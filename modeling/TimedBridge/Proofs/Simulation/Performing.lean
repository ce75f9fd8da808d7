import TimedBridge.Proofs.Bridge.Tagging
import TimedBridge.Proofs.Simulation.Moves

/-!
The accesses that the memory performs: the oldest request in service when it completes, and atomic and
functional accesses when they are issued, unless a packet in the bridge serves them (`performed`). Nothing
else changes the bytes of the memory (`Running.performs_after`).
-/

namespace TimedBridge

/-! ### The memory behind a bridge -/

namespace Memory

variable {m m' m'' : Memory} {packets more : List Packet}

theorem bytes_store_congr (h : m'.bytes = m.bytes) (a : Address) (data : List UInt8) :
    (m'.store a data).bytes = (m.store a data).bytes := by
  induction data generalizing m m' a with
  | nil => exact h
  | cons b rest ih => exact ih (congrArg (·.insert a b) h) (a + 1)

/-- What a packet does to the bytes depends on the bytes only. -/
theorem bytes_perform_congr (h : m'.bytes = m.bytes) (p : Packet) :
    (m'.perform p).1.bytes = (m.perform p).1.bytes := by
  cases hwrite : p.isWrite with
  | false => rwa [m.perform_of_not_isWrite hwrite, m'.perform_of_not_isWrite hwrite]
  | true =>
    rw [m.perform_of_isWrite hwrite, m'.perform_of_isWrite hwrite]
    cases p.data with
    | none => exact h
    | some data => exact bytes_store_congr h p.address data

theorem bytes_deliver_congr (h : m'.bytes = m.bytes) (packets : List Packet) :
    (m'.deliver packets).bytes = (m.deliver packets).bytes := by
  induction packets generalizing m m' with
  | nil => exact h
  | cons p rest ih => exact ih (bytes_perform_congr h p)

/-- The bytes of the memory `m'` are those of `m` after the packets have been performed. -/
def Performs (m : Memory) (packets : List Packet) (m' : Memory) : Prop :=
  m'.bytes = (m.deliver packets).bytes

theorem Performs.append (h : m.Performs packets m') (h' : m'.Performs more m'') :
    m.Performs (packets ++ more) m'' := by
  rw [Performs, deliver, List.foldl_append]
  exact h'.trans (bytes_deliver_congr h more)

end Memory

namespace Bridge

variable {b b' b'' : Bridge Generator Memory} {m : Memory} {packets more : List Packet}

/-- The memory behind the bridge performs the packets on the way to another state of the bridge. -/
def Performs (b : Bridge Generator Memory) (packets : List Packet) (b' : Bridge Generator Memory) : Prop :=
  ∃ m m', b.back.agent = some m ∧ b'.back.agent = some m' ∧ m.Performs packets m'

theorem Performs.append (h : b.Performs packets b') (h' : b'.Performs more b'') :
    b.Performs (packets ++ more) b'' := by
  obtain ⟨m, m₁, htarget, htarget₁, hperforms⟩ := h
  obtain ⟨m₁', m', htarget₁', htarget', hperforms'⟩ := h'
  obtain rfl := Option.some.inj (htarget₁.symm.trans htarget₁')
  exact ⟨m, m', htarget, htarget', hperforms.append hperforms'⟩

theorem performs_none (htarget : b.back.agent = some m) (hsame : b'.back.agent = b.back.agent) :
    b.Performs [] b' :=
  ⟨m, m, htarget, hsame.trans htarget, rfl⟩

/-- Sending the owed retry reaches only the generator. -/
theorem target_sendOwedRetry (b : Bridge Generator Memory) :
    b.sendOwedRetry.state.back.agent = b.back.agent := by
  have hend := owedRetry_sendOwedRetry b
  generalize b.sendOwedRetry = called at hend ⊢
  cases hend <;> rfl

theorem performs_trySend (htarget : b.back.agent = some m) (now : Tick) (d : Direction) :
    b.Performs [] (b.trySend now d).state := by
  cases d with
  | request =>
    have hend := requestSending_trySendRequest b now
    rw [trySend]
    generalize b.trySendRequest now = called at hend ⊢
    cases hend with
    | unbound hagent => simp [htarget] at hagent
    | empty => exact performs_none htarget rfl
    | early hagent => exact performs_none htarget hagent.symm
    | refused hagent hentries hdue hoffer =>
      obtain ⟨-, -, hbytes⟩ := Memory.eq_of_offer_refused hoffer
      exact ⟨_, _, hagent, rfl, hbytes⟩
    | taken hagent hentries hdue hoffer =>
      obtain ⟨-, hbytes⟩ := Memory.eq_of_offer_accepted hoffer
      exact ⟨_, _, hagent, target_sendOwedRetry _, hbytes⟩
  | response =>
    have hend := responseSending_trySendResponse b now
    rw [trySend]
    generalize b.trySendResponse now = called at hend ⊢
    cases hend with
    | taken => exact performs_none htarget (target_sendOwedRetry _)
    | _ => exact performs_none htarget rfl

theorem performs_attempt (htarget : b.back.agent = some m) (now : Tick) (d : Direction) :
    b.Performs [] (b.attempt now d).state := by
  have hsend := performs_trySend (b := b.setQueue (b.queue d).attemptDue d) (m := m)
  cases d with
  | request => exact hsend htarget now .request
  | response => exact hsend htarget now .response

theorem performs_requestRetry (htarget : b.back.agent = some m) (now : Tick) :
    b.Performs [] (b.requestRetry now).state := by
  rw [Bridge.requestRetry, TransmitQueue.takeRetry]
  by_cases hawaiting : b.back.requests.awaitingRetry = true
  · rw [if_pos hawaiting]
    exact performs_trySend (b := b.setQueue { b.back.requests with awaitingRetry := false } .request)
      htarget now .request
  · rw [if_neg hawaiting]
    exact performs_none htarget rfl

theorem target_respond (b : Bridge Generator Memory) (now : Tick) (p : Packet) :
    (b.respond now p).state.back.agent = b.back.agent := by
  have hend := b.reception_respond now p
  generalize b.respond now p = called at hend ⊢
  cases hend <;> rfl

theorem performs_atomic (htarget : b.back.agent = some m) (p : Packet) :
    b.Performs (Effect.accesses (b.atomic p).effects) (b.atomic p).state.1 := by
  have hend := atomicAccess_atomic b p
  generalize b.atomic p = called at hend ⊢
  cases hend with
  | alreadyTagged => exact performs_none htarget rfl
  | unbound => exact performs_none htarget rfl
  | performed htag hagent hperform =>
    obtain ⟨rfl, -⟩ := Prod.mk.inj hperform
    exact ⟨_, _, hagent, rfl, rfl⟩

theorem performs_functional (htarget : b.back.agent = some m) (p : Packet) :
    b.Performs (Effect.accesses (b.functional p).effects) (b.functional p).state.1 := by
  have hend := functionalAccess_functional b p
  generalize b.functional p = called at hend ⊢
  cases hend with
  | performed htag hresponses hrequests hagent hperform =>
    have hagent' := congrArg Prod.fst hperform
    exact ⟨_, _, hagent, rfl, congrArg Memory.bytes hagent'.symm⟩
  | _ => exact performs_none htarget rfl

end Bridge

/-! ### What a step performs -/

namespace Simulation

variable {s s' : Simulation} {g : Generator} {m : Memory}

/-- The packets that the memory performs when an access is issued. -/
def performedBy (s : Simulation) (i : Issue) : List Packet :=
  if s.routable i.packet then
    match i.mode with
    | .timing => []
    | .atomic => Effect.accesses (s.bridge.atomic i.packet).effects
    | .functional => Effect.accesses (s.bridge.functional i.packet).effects
  else []

/-- The packets that the memory performs when the accesses that are due are issued, at most `n`. -/
def performedDue : Nat → Simulation → List Packet
  | 0, _ => []
  | n + 1, s =>
    match s.bridge.front.retry, s.generator with
    | .idle, .ok g =>
      match g.nextDue? s.now with
      | none => []
      | some (issue, g) =>
        (s.withGenerator g).performedBy issue ++
          match (s.withGenerator g).issueOne issue with
          | (_, .error _) => []
          | (s, .ok ()) => performedDue n s
    | _, _ => []

/-- The packets that the memory performs in the next step. -/
def performed (s : Simulation) : List Packet :=
  match s.agenda.pop?, s.generator, s.memory with
  | some (_, .complete, _), _, .ok m => m.inService.head?.toList
  | some (_, .issue, agenda), .ok g, _ => performedDue g.remaining { s with agenda }.disarmed
  | _, _, _ => []

/-- The packets that the memory performs in a number of steps. -/
def performedIn (s : Simulation) : Nat → List Packet
  | 0 => []
  | n + 1 => s.performed ++ s.step.1.performedIn n

theorem performs_adopt {α : Type} {packets : List Packet}
    {called : Outcome (Bridge Generator Memory) α} (h : s.bridge.Performs packets called.state) :
    s.bridge.Performs packets (s.adopt called).bridge := by
  rwa [bridge_adopt]

theorem performs_issueTimed (htarget : s.bridge.back.agent = some m) {i : Issue}
    (hok : s.issueTimed i = (s', .ok ())) : s.bridge.Performs [] s'.bridge := by
  have hsubmitted : s.bridge.Performs [] (s.adopt (s.bridge.submit s.now i.packet)).bridge := by
    refine performs_adopt (Bridge.performs_none htarget ?_)
    have hend := s.bridge.submission_submit s.now i.packet
    generalize s.bridge.submit s.now i.packet = called at hend ⊢
    cases hend <;> rfl
  rw [issueTimed] at hok
  dsimp only at hok
  split at hok
  next => cases hok
  next =>
    obtain rfl := congrArg Prod.fst hok
    dsimp only
    split
    next => exact hsubmitted
    next => exact hsubmitted
  next =>
    split at hok
    next => cases hok
    next =>
      obtain rfl := congrArg Prod.fst hok
      exact hsubmitted

theorem performs_issueOne (htarget : s.bridge.back.agent = some m) {i : Issue}
    (hok : s.issueOne i = (s', .ok ())) : s.bridge.Performs (s.performedBy i) s'.bridge := by
  rw [issueOne] at hok
  rw [performedBy]
  by_cases hroutable : s.routable i.packet = true
  · rw [if_pos hroutable] at hok ⊢
    cases hmode : i.mode with
    | timing =>
      simp only [hmode] at hok
      exact performs_issueTimed htarget hok
    | atomic =>
      simp only [hmode, issueAtomic] at hok
      split at hok
      next => cases hok
      next =>
        obtain rfl := congrArg Prod.fst hok
        exact performs_adopt (Bridge.performs_atomic htarget i.packet)
    | functional =>
      simp only [hmode] at hok
      obtain ⟨-, hbridge⟩ := functional_of_issueFunctional hok
      rw [hbridge]
      exact Bridge.performs_functional htarget i.packet
  · rw [if_neg hroutable] at hok ⊢
    obtain rfl := congrArg Prod.fst hok
    exact Bridge.performs_none htarget rfl

theorem performs_issueDue (n : Nat) (htarget : s.bridge.back.agent = some m)
    (hok : s.issueDue n = (s', .ok ())) : s.bridge.Performs (s.performedDue n) s'.bridge := by
  induction n generalizing s m with
  | zero =>
    obtain rfl := congrArg Prod.fst hok
    exact Bridge.performs_none htarget rfl
  | succ n ih =>
    rw [issueDue] at hok
    rw [performedDue]
    cases hretry : s.bridge.front.retry with
    | pending =>
      rw [hretry] at hok
      obtain rfl := congrArg Prod.fst hok
      exact Bridge.performs_none htarget rfl
    | idle =>
    cases hgenerator : s.generator with
    | error fault =>
      rw [hretry, hgenerator] at hok
      cases hok
    | ok g =>
    rw [hretry, hgenerator] at hok
    dsimp only at hok ⊢
    cases hnext : g.nextDue? s.now with
    | none =>
      rw [hnext] at hok
      obtain rfl := congrArg Prod.fst hok
      exact Bridge.performs_none htarget rfl
    | some next =>
    obtain ⟨i, g'⟩ := next
    rw [hnext] at hok
    dsimp only at hok ⊢
    rcases hone : (s.withGenerator g').issueOne i with ⟨s₁, fault | ⟨⟩⟩
    · rw [hone] at hok
      cases hok
    · rw [hone] at hok
      have hfirst : s.bridge.Performs _ s₁.bridge :=
        performs_issueOne (s := s.withGenerator g') htarget hone
      obtain ⟨-, m₁, -, htarget₁, -⟩ := id hfirst
      exact hfirst.append (ih htarget₁ hok)

theorem performs_issue (hinitiator : s.bridge.front.agent = some g)
    (htarget : s.bridge.back.agent = some m) (hok : s.issue = (s', .ok ())) :
    s.bridge.Performs (s.disarmed.performedDue g.remaining) s'.bridge := by
  obtain ⟨t, hdue, harm⟩ := exists_due_of_issue hinitiator hok
  have hbridge := t.bridge_armIssue
  rw [harm] at hbridge
  have hperforms := performs_issueDue _ (s.bridge_disarmed ▸ htarget) hdue
  rwa [bridge_disarmed, ← hbridge] at hperforms

theorem performs_completeOldest (htarget : s.bridge.back.agent = some m)
    (hok : s.completeOldest = (s', .ok ())) :
    s.bridge.Performs m.inService.head?.toList s'.bridge := by
  rw [completeOldest, memory_of_bound htarget] at hok
  cases hservice : m.inService with
  | nil =>
    simp only [Memory.completeNext, hservice] at hok
    obtain rfl := congrArg Prod.fst hok
    exact ⟨m, m, htarget, rfl, rfl⟩
  | cons p rest =>
    have hbytes : ({ m with inService := rest }.perform p).1.bytes = (m.perform p).1.bytes :=
      Memory.bytes_perform_congr (show { m with inService := rest }.bytes = m.bytes from rfl) p
    have hperformed : s.bridge.Performs [p]
        (s.withMemory ({ m with inService := rest }.perform p).1).bridge := ⟨m, _, htarget, rfl, hbytes⟩
    simp only [completeNext_cons hservice] at hok
    cases hexpects : p.expectsResponse with
    | false =>
      simp only [hexpects] at hok
      obtain rfl := congrArg Prod.fst hok
      exact hperformed
    | true =>
      simp only [hexpects, if_true] at hok
      obtain ⟨-, hbridge⟩ := eq_of_finish hok
      rw [hbridge]
      exact ⟨m, _, htarget, (Bridge.target_respond ..).trans rfl, hbytes⟩

/-- An event that is carried out without a fault has the memory perform what the simulation notes. -/
theorem performs_dispatch {tick : Tick} {event : SimEvent} {agenda : Agenda SimEvent}
    (hinitiator : s.bridge.front.agent = some g) (htarget : s.bridge.back.agent = some m)
    (hpop : s.agenda.pop? = some (tick, event, agenda))
    (hok : { s with agenda }.dispatch event = (s', .ok ())) :
    s.bridge.Performs s.performed s'.bridge := by
  rw [performed, hpop, generator_of_bound hinitiator, memory_of_bound htarget]
  cases event with
  | send d =>
    rw [(eq_of_finish hok).2]
    exact Bridge.performs_attempt htarget _ d
  | issue => exact performs_issue (s := { s with agenda }) hinitiator htarget hok
  | complete => exact performs_completeOldest (s := { s with agenda }) htarget hok
  | memoryRetry =>
    rw [(eq_of_finish hok).2]
    exact Bridge.performs_requestRetry htarget _

/-- Looking after the agents leaves the bytes of the memory alone. -/
theorem performs_step (hinitiator : s.bridge.front.agent = some g)
    (htarget : s.bridge.back.agent = some m) (hstep : s.step = (s', .ok true)) :
    s.bridge.Performs s.performed s'.bridge := by
  obtain ⟨tick, event, agenda, s₁, hpop, hdispatch, hlooked⟩ := exists_of_step hstep
  have hholds : { s with agenda }.bridge.Holds (s.bridge.cargo g m) := ⟨g, m, hinitiator, htarget, rfl⟩
  obtain ⟨v', ⟨g₁, m₁, hinitiator₁, htarget₁, -⟩, -⟩ := holds_dispatch hholds hdispatch
  have hperforms := performs_dispatch hinitiator htarget hpop hdispatch
  rw [bridge_lookAfter hinitiator₁ htarget₁ hlooked]
  obtain ⟨m₀, m₁', htarget₀, htarget₁', hbytes⟩ := hperforms
  obtain rfl := Option.some.inj (htarget₁.symm.trans htarget₁')
  exact ⟨m₀, m₁.rested, htarget₀, rfl, hbytes⟩

/-- The bytes of the memory after a number of steps are those of the packets that it has performed. -/
theorem Running.performs_after (h : s.Running g m) (n : Nat) :
    s.bridge.Performs (s.performedIn n) (s.after n).bridge := by
  induction n generalizing s g m with
  | zero => exact Bridge.performs_none h.joins.target rfl
  | succ n ih =>
    rw [performedIn, Simulation.after]
    rcases h.step with ⟨hpop, hstep⟩ | ⟨s', g', m', hstep, hrunning, -⟩
    · have hnone : s.performed = [] := by rw [performed, hpop]
      rw [hstep, hnone]
      exact ih h
    · rw [hstep]
      exact (performs_step h.joins.initiator h.joins.target hstep).append (ih hrunning)

end Simulation

end TimedBridge
