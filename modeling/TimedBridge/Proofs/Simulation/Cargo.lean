import Mathlib.Logic.Relation
import TimedBridge.Proofs.Bridge.FunctionalRead
import TimedBridge.Proofs.Bridge.FunctionalWrite
import TimedBridge.Proofs.Bridge.Passage
import TimedBridge.Proofs.Simulation.Agents

/-!
The cargo of a bridge between a generator and a memory: the accesses that are still to be issued, the
requests on their way, the bytes of the memory, and the responses that come back. Time, credit and
back-pressure are left out. What is left of a call is that it moves nothing, carries the oldest request
one stage on (`Cargo.Carries`), or issues an access (`Cargo.Issues`).
-/

namespace TimedBridge

/-- What is on its way through a simulation. -/
structure Cargo where
  ranges : List AddressRange
  /-- The accesses not yet issued. -/
  pending : List (Packet × AccessMode)
  /-- The requests in the bridge. -/
  queued : List Packet
  /-- The requests that the memory has taken. -/
  inService : List Packet
  /-- The bytes of the memory. -/
  contents : Address → UInt8
  /-- The responses that have arrived and those in the bridge. -/
  returning : List Packet

namespace Cargo

/-- One of the ranges covers the packet. -/
def Covers (v : Cargo) (p : Packet) : Prop := v.ranges.any (·.covers p.footprint) = true

/-- The oldest request goes one stage on. -/
inductive Carries (v : Cargo) : Cargo → Prop
  /-- The memory takes it. -/
  | taken {p : Packet} {rest : List Packet} (hqueued : v.queued = p :: rest) :
      Carries v { v with queued := rest, inService := v.inService ++ [p] }
  /-- The memory performs it and answers, if an answer is expected. -/
  | performed {p : Packet} {rest answers : List Packet} {m : Memory}
      (hservice : v.inService = p :: rest) (hcontents : m.byteAt = v.contents)
      (hanswers : List.Forall₂ (Packet.Relabelled .response)
        (if p.expectsResponse then [(m.perform p).2] else []) answers) :
      Carries v
        { v with
          inService := rest
          contents := (m.perform p).1.byteAt
          returning := v.returning ++ answers }

/-- The next access is issued. -/
inductive Issues (v : Cargo) : Cargo → Prop
  /-- No range covers it. -/
  | dropped {p : Packet} {mode : AccessMode} {rest : List (Packet × AccessMode)}
      (hpending : v.pending = (p, mode) :: rest) (hcovers : ¬ v.Covers p) :
      Issues v { v with pending := rest }
  | queued {p q : Packet} {rest : List (Packet × AccessMode)}
      (hpending : v.pending = (p, .timing) :: rest) (hcovers : v.Covers p)
      (hlabels : p.Relabelled .request q) :
      Issues v { v with pending := rest, queued := v.queued ++ [q] }
  | atomic {p : Packet} {rest : List (Packet × AccessMode)} {m : Memory}
      (hpending : v.pending = (p, .atomic) :: rest) (hcovers : v.Covers p)
      (hcontents : m.byteAt = v.contents) :
      Issues v { v with pending := rest, contents := (m.perform p).1.byteAt }
  | functionalRead {p : Packet} {rest : List (Packet × AccessMode)}
      (hpending : v.pending = (p, .functional) :: rest) (hcovers : v.Covers p)
      (hread : p.isWrite = false) :
      Issues v { v with pending := rest }
  /-- It is laid over what is in the bridge, and performed. -/
  | functionalWrite {p : Packet} {rest : List (Packet × AccessMode)} {returning : List Packet}
      {m : Memory} (hpending : v.pending = (p, .functional) :: rest) (hcovers : v.Covers p)
      (hwrite : p.isWrite = true) (hcontents : m.byteAt = v.contents) :
      Issues v
        { v with
          pending := rest
          queued := v.queued.map fun q => (p.snoop q).held
          contents := (m.perform p).1.byteAt
          returning }

/-- What an event can do. -/
inductive Moves (v : Cargo) : Cargo → Prop
  | stays : Moves v v
  | carries {v' : Cargo} (h : v.Carries v') : Moves v v'
  | issues {v' : Cargo} (h : Relation.ReflTransGen Issues v v') : Moves v v'

/-- What a request that goes on and an access that is issued keep, an event keeps. -/
theorem Moves.preserves {P : Cargo → Prop} {v v' : Cargo} (hmoves : v.Moves v')
    (hcarries : ∀ u u' : Cargo, u.Carries u' → P u → P u')
    (hissues : ∀ u u' : Cargo, u.Issues u' → P u → P u') (h : P v) : P v' := by
  cases hmoves with
  | stays => exact h
  | carries hcarried => exact hcarries v v' hcarried h
  | issues hchain =>
    induction hchain with
    | refl => exact h
    | @tail u u' _ hissued ih => exact hissues u u' hissued ih

end Cargo

/-! ### The memory is offered a request -/

namespace Memory

variable {m m' : Memory} {p q : Packet}

theorem eq_of_offer_refused (h : m.offer p = (m', .refused q)) :
    q = p ∧ m'.inService = m.inService ∧ m'.bytes = m.bytes := by
  obtain ⟨-, rfl, rfl⟩ := refuses_of_offer_refused h
  exact ⟨rfl, rfl, rfl⟩

theorem eq_of_offer_accepted (h : m.offer p = (m', .accepted)) :
    m'.inService = m.inService ++ [p] ∧ m'.bytes = m.bytes := by
  obtain ⟨-, rfl⟩ := takes_of_offer_accepted h
  exact ⟨rfl, rfl⟩

theorem byteAt_congr (h : m'.bytes = m.bytes) : m'.byteAt = m.byteAt := by
  funext a
  rw [byteAt, byteAt, h]

theorem inService_perform (m : Memory) (p : Packet) : (m.perform p).1.inService = m.inService := by
  rw [m.perform_eq p]

/-- The tag of an access does not matter to the bytes. -/
theorem perform_tagged {υ δ : Type} (m : Memory) (b : Bridge υ δ) (p : Packet) :
    (m.perform (b.tagged p)).1 = (m.perform p).1 := by
  cases hwrite : p.isWrite with
  | false => rw [m.perform_of_not_isWrite hwrite, m.perform_of_not_isWrite (by exact hwrite)]
  | true =>
    rw [m.perform_of_isWrite hwrite, m.perform_of_isWrite (by exact hwrite)]
    rfl

end Memory

/-! ### The cargo of a bridge -/

namespace Bridge

variable {b : Bridge Generator Memory} {g : Generator} {m : Memory} {v : Cargo} {now : Tick}

/-- The cargo of a bridge between a generator and a memory. -/
def cargo (b : Bridge Generator Memory) (g : Generator) (m : Memory) : Cargo where
  ranges := b.front.ranges
  pending := g.pending.map fun i => (i.packet, i.mode)
  queued := b.back.requests.packets
  inService := m.inService
  contents := m.byteAt
  returning := g.responses ++ b.front.responses.packets

/-- The bridge is between a generator and a memory and has the given cargo. -/
def Holds (b : Bridge Generator Memory) (v : Cargo) : Prop :=
  ∃ g m, b.front.agent = some g ∧ b.back.agent = some m ∧ b.cargo g m = v

/-! ### Requests leave -/

theorem Holds.sendOwedRetry (h : b.Holds v) : b.sendOwedRetry.state.Holds v := by
  obtain ⟨g, m, hinitiator, htarget, hcargo⟩ := h
  rw [(sendOwedRetry_of_bound hinitiator).1, wake]
  split
  next => exact ⟨g, m, hinitiator, htarget, hcargo⟩
  next => exact ⟨_, m, rfl, htarget, hcargo⟩

/-- The memory takes the oldest request, or nothing moves. -/
theorem Holds.trySendRequest (h : b.Holds v) (now : Tick) :
    ∃ v', (b.trySendRequest now).state.Holds v' ∧ v.Moves v' := by
  obtain ⟨g, m, hinitiator, htarget, rfl⟩ := h
  have hend := b.requestSending_trySendRequest now
  generalize b.trySendRequest now = called at hend ⊢
  cases hend with
  | unbound hagent => simp [htarget] at hagent
  | empty hagent hentries => exact ⟨_, ⟨g, m, hinitiator, htarget, rfl⟩, .stays⟩
  | early hagent hentries hearly =>
    obtain rfl := Option.some.inj (htarget.symm.trans hagent)
    refine ⟨_, ⟨g, m, hinitiator, rfl, ?_⟩, .stays⟩
    simp only [cargo, setBack, TransmitQueue.packets, TransmitQueue.entries_arm]
  | @refused agent agent' head rest packet hagent hentries hdue hoffer =>
    obtain rfl := Option.some.inj (htarget.symm.trans hagent)
    obtain ⟨rfl, hservice, hbytes⟩ := Memory.eq_of_offer_refused hoffer
    refine ⟨_, ⟨g, agent', hinitiator, rfl, ?_⟩, .stays⟩
    simp only [cargo, setBack, TransmitQueue.packets, hentries, hservice, Memory.byteAt_congr hbytes,
      List.map_cons]
  | @taken agent agent' head rest hagent hentries hdue hoffer =>
    obtain rfl := Option.some.inj (htarget.symm.trans hagent)
    obtain ⟨hservice, hbytes⟩ := Memory.eq_of_offer_accepted hoffer
    have hqueued : (b.cargo g m).queued = head.packet :: rest.map Deferred.packet :=
      congrArg (List.map Deferred.packet) hentries
    refine ⟨_, Holds.sendOwedRetry ⟨g, agent', hinitiator, rfl, ?_⟩, .carries (.taken hqueued)⟩
    simp only [cargo, setBack, TransmitQueue.packets, TransmitQueue.entries_armForHead, hservice,
      Memory.byteAt_congr hbytes]

/-! ### Responses leave -/

theorem Holds.releaseSlot (h : b.Holds v) (reserved : Nat) : (b.releaseSlot reserved).Holds v := h

/-- A response that the generator takes is still among those that come back. -/
theorem holds_departure (htarget : b.back.agent = some m)
    {head : Deferred} {rest : List Deferred} (hentries : b.front.responses.entries = head :: rest)
    (now : Tick) :
    (b.setFront ({ b.front.responses with entries := rest }.armForHead now).state
      { g with responses := g.responses ++ [head.packet] }).Holds (b.cargo g m) := by
  refine ⟨_, m, rfl, htarget, ?_⟩
  simp only [cargo, setFront, TransmitQueue.packets, TransmitQueue.entries_armForHead, hentries,
    List.map_cons, List.append_assoc, List.singleton_append]

/-- The generator takes the oldest response, or nothing moves; either way it is on its way back. -/
theorem Holds.trySendResponse (h : b.Holds v) (now : Tick) : (b.trySendResponse now).state.Holds v := by
  obtain ⟨g, m, hinitiator, htarget, rfl⟩ := h
  have hend := b.responseSending_trySendResponse now
  generalize b.trySendResponse now = called at hend ⊢
  cases hend with
  | unbound hagent => simp [hinitiator] at hagent
  | empty hagent hentries => exact ⟨g, m, hinitiator, htarget, rfl⟩
  | early hagent hentries hearly =>
    obtain rfl := Option.some.inj (hinitiator.symm.trans hagent)
    refine ⟨g, m, rfl, htarget, ?_⟩
    simp only [cargo, setFront, TransmitQueue.packets, TransmitQueue.entries_arm]
  | refused hagent hentries hdue hoffer => simp [Initiator.offerResponse] at hoffer
  | unreserved hagent hentries hdue hoffer hreserved =>
    obtain rfl := Option.some.inj (hinitiator.symm.trans hagent)
    obtain ⟨rfl, -⟩ := Prod.mk.inj hoffer
    exact holds_departure htarget hentries now
  | takenFull hagent hentries hdue hoffer hreserved hfull =>
    obtain rfl := Option.some.inj (hinitiator.symm.trans hagent)
    obtain ⟨rfl, -⟩ := Prod.mk.inj hoffer
    exact (holds_departure htarget hentries now).releaseSlot _
  | taken hagent hentries hdue hoffer hreserved hfull =>
    obtain rfl := Option.some.inj (hinitiator.symm.trans hagent)
    obtain ⟨rfl, -⟩ := Prod.mk.inj hoffer
    exact ((holds_departure htarget hentries now).releaseSlot _).sendOwedRetry

/-- An attempt to send moves at most the oldest request. -/
theorem Holds.attempt (h : b.Holds v) (now : Tick) (d : Direction) :
    ∃ v', (b.attempt now d).state.Holds v' ∧ v.Moves v' := by
  cases d with
  | request =>
    have hdue : { b with back := { b.back with requests := b.back.requests.attemptDue } }.Holds v := h
    exact hdue.trySendRequest now
  | response =>
    have hdue : { b with front := { b.front with responses := b.front.responses.attemptDue } }.Holds v :=
      h
    exact ⟨v, hdue.trySendResponse now, .stays⟩

theorem Holds.requestRetry (h : b.Holds v) (now : Tick) :
    ∃ v', (b.requestRetry now).state.Holds v' ∧ v.Moves v' := by
  rw [Bridge.requestRetry, TransmitQueue.takeRetry]
  split
  next heq =>
    split at heq
    next => contradiction
    next => exact ⟨v, h, .stays⟩
  next heq =>
    split at heq
    next =>
      cases heq
      have htaken : { b with back := { b.back with
          requests := { b.back.requests with awaitingRetry := false } } }.Holds v := h
      exact htaken.trySendRequest now
    next => contradiction

/-! ### Responses come -/

/-- The memory answers. -/
theorem holds_respond {p : Packet} (h : b.Holds v) (hok : (b.respond now p).answer = .ok ()) :
    ∃ q, p.Relabelled .response q ∧
      (b.respond now p).state.Holds { v with returning := v.returning ++ [q] } := by
  obtain ⟨g, m, hinitiator, htarget, rfl⟩ := h
  have hend := b.reception_respond now p
  generalize b.respond now p = called at hend hok ⊢
  cases hend with
  | unknown => contradiction
  | overflow => contradiction
  | @queued route table htake hroom =>
    refine ⟨{ b.back.crossing.charge p with destination := some route }, ?_, g, m, hinitiator, htarget, ?_⟩
    · refine ⟨?_, nofun⟩
      rw [(b.back.crossing.relabelled_charge .response p).rest]
    · simp only [cargo, pushResponse, TransmitQueue.packets_push _ _ hroom, List.append_assoc]

/-! ### Accesses are made -/

/-- A timed access is handed back, and nothing moves. -/
theorem holds_submit_refused {p q : Packet} (h : b.Holds v)
    (hrefused : (b.submit now p).answer = .ok (.refused q)) :
    q = p ∧ (b.submit now p).state.Holds v := by
  have hend := b.submission_submit now p
  generalize b.submit now p = called at hend hrefused ⊢
  cases hend with
  | early => contradiction
  | refused =>
    cases hrefused
    exact ⟨rfl, h⟩
  | alreadyTagged => contradiction
  | duplicate => contradiction
  | accepted => cases hrefused

/-- A timed access is let in. -/
theorem holds_submit_accepted {p : Packet} (h : b.Holds v)
    (haccepted : (b.submit now p).answer = .ok .accepted) :
    ∃ q, p.Relabelled .request q ∧
      (b.submit now p).state.Holds { v with queued := v.queued ++ [q] } := by
  obtain ⟨g, m, hinitiator, htarget, rfl⟩ := h
  have hend := b.submission_submit now p
  generalize b.submit now p = called at hend haccepted ⊢
  cases hend with
  | early => contradiction
  | refused => cases haccepted
  | alreadyTagged => contradiction
  | duplicate => contradiction
  | accepted hretry hroom htag hsave =>
    refine ⟨_, b.relabelled_relabel .request p, g, m, hinitiator, htarget, ?_⟩
    simp only [cargo, pushRequest, TransmitQueue.packets_push _ _ hroom.1]
    rfl

/-- The memory performs an access at once. -/
theorem holds_perform (responses requests : TransmitQueue) (p : Packet)
    (hinitiator : b.front.agent = some g) (m : Memory) :
    ((b.withQueues responses requests).withTarget (m.perform (b.tagged p)).1).Holds
      { b.cargo g m with
        queued := requests.packets
        contents := (m.perform p).1.byteAt
        returning := g.responses ++ responses.packets } := by
  refine ⟨g, _, hinitiator, rfl, ?_⟩
  rw [m.perform_tagged]
  simp only [cargo, m.inService_perform]
  rfl

/-- An atomic access is performed. -/
theorem holds_atomic {p : Packet} {latency : Tick} (h : b.Holds v)
    (hok : (b.atomic p).answer = .ok latency) :
    ∃ m : Memory, m.byteAt = v.contents ∧
      (b.atomic p).state.1.Holds { v with contents := (m.perform p).1.byteAt } := by
  obtain ⟨g, m, hinitiator, htarget, rfl⟩ := h
  have hend := b.atomicAccess_atomic p
  generalize b.atomic p = called at hend hok ⊢
  cases hend with
  | alreadyTagged => contradiction
  | unbound => contradiction
  | performed htag hagent hperform =>
    obtain rfl := Option.some.inj (htarget.symm.trans hagent)
    obtain ⟨rfl, -⟩ := Prod.mk.inj hperform
    exact ⟨m, rfl, holds_perform b.front.responses b.back.requests p hinitiator m⟩

/-- A functional access that stores nothing moves nothing. -/
theorem holds_functional_read {p : Packet} (h : b.Holds v) (hread : p.isWrite = false)
    (hok : (b.functional p).answer = .ok ()) : (b.functional p).state.1.Holds v := by
  obtain ⟨g, m, hinitiator, htarget, rfl⟩ := h
  have hread' : (b.tagged p).isWrite = false := hread
  have hend := b.functionalAccess_functional p
  generalize b.functional p = called at hend hok ⊢
  cases hend with
  | alreadyTagged => contradiction
  | byResponse htag hresponses =>
    refine ⟨g, m, hinitiator, htarget, ?_⟩
    simp only [cargo, withQueues, TransmitQueue.packets_snoop_of_read hread' hresponses]
  | byRequest htag hresponses hrequests =>
    obtain rfl := TransmitQueue.access_snoop hresponses
    refine ⟨g, m, hinitiator, htarget, ?_⟩
    simp only [cargo, withQueues, TransmitQueue.packets_snoop_of_read hread' hresponses,
      TransmitQueue.packets_snoop_of_read hread' hrequests]
  | unbound => contradiction
  | @performed responses requests access left answered agent agent' htag hresponses hrequests hagent
      hperform =>
    obtain rfl := TransmitQueue.access_snoop hresponses
    obtain rfl := TransmitQueue.access_snoop hrequests
    obtain rfl := Option.some.inj (htarget.symm.trans hagent)
    have hsame : (m.perform (b.tagged p)).1 = m := m.perform_of_not_isWrite hread'
    obtain rfl : m = agent' := hsame.symm.trans (congrArg Prod.fst hperform)
    refine ⟨g, m, hinitiator, rfl, ?_⟩
    simp only [cargo, withTarget, withQueues, TransmitQueue.packets_snoop_of_read hread' hresponses,
      TransmitQueue.packets_snoop_of_read hread' hrequests]

theorem tag_of_functional {p : Packet} (hok : (b.functional p).answer = .ok ()) : p.tag = none := by
  have hend := b.functionalAccess_functional p
  generalize b.functional p = called at hend hok
  cases hend with
  | alreadyTagged => contradiction
  | byResponse htag => exact htag
  | byRequest htag => exact htag
  | unbound => contradiction
  | performed htag => exact htag

/-- A functional write is laid over what is in the bridge, and performed. -/
theorem holds_functional_write {p : Packet} (h : b.Holds v) (hwrite : p.isWrite = true)
    (hok : (b.functional p).answer = .ok ()) :
    ∃ (m : Memory) (returning : List Packet), m.byteAt = v.contents ∧
      (b.functional p).state.1.Holds
        { v with
          queued := v.queued.map fun q => (p.snoop q).held
          contents := (m.perform p).1.byteAt
          returning } := by
  have htag := tag_of_functional hok
  obtain ⟨g, m, hinitiator, htarget, rfl⟩ := h
  rw [functional_of_isWrite htarget hwrite htag]
  have hqueued : (b.back.requests.overwrite (b.tagged p)).packets =
      (b.cargo g m).queued.map fun q => (p.snoop q).held := by
    rw [TransmitQueue.packets_overwrite]
    refine List.map_congr_left fun q _ => ?_
    rw [Packet.snoop_of_isWrite hwrite, Packet.snoop_of_isWrite (by exact hwrite)]
    rfl
  have hholds := holds_perform (b.front.responses.overwrite (b.tagged p))
    (b.back.requests.overwrite (b.tagged p)) p hinitiator m
  rw [hqueued] at hholds
  exact ⟨m, _, rfl, hholds⟩

end Bridge

end TimedBridge
