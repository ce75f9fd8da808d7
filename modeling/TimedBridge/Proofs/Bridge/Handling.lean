import TimedBridge.Proofs.Bridge.Passage
import TimedBridge.Proofs.Bridge.Settings

/-!
What a call does with the packets that wait in a direction (`Handling`). They stay in their places,
where a functional write may meet them; or one joins them; or the head is offered and leaves, or is
refused. Each end says which packet it is and from which tick on a packet that joins may leave. From
it follows, call by call, what can be said of each packet that was let in, wherever it is now
(`forall₂_arrivals`).
-/

namespace TimedBridge

/-! ### Offers -/

namespace Effect

/-- The offers that effects make in a direction: the packet, and whether it was taken. -/
def offersIn (direction : Direction) (effects : List Effect) : List (Packet × Bool) :=
  (offers effects).filterMap fun offer => if offer.1 = direction then some offer.2 else none

variable {effects more : List Effect} {d : Direction}

theorem offersIn_append : offersIn d (effects ++ more) = offersIn d effects ++ offersIn d more := by
  rw [offersIn, offers_append, List.filterMap_append]
  rfl

theorem offersIn_of_no_offer (h : offers effects = []) : offersIn d effects = [] := by
  rw [offersIn, h]
  rfl

theorem offersIn_cons (direction : Direction) (packet : Packet) (taken : Bool) :
    offersIn d (.offer direction packet taken :: effects) =
      if direction = d then (packet, taken) :: offersIn d effects else offersIn d effects := by
  by_cases h : direction = d
  · simp [offersIn, offers, h]
  · simp [offersIn, offers, h]

theorem mem_offers {packet : Packet} {taken : Bool} :
    (d, packet, taken) ∈ offers effects ↔ Effect.offer d packet taken ∈ effects := by
  rw [offers, List.mem_filterMap]
  constructor
  · rintro ⟨effect, heffect, hoffer⟩
    cases effect with
    | offer direction packet taken =>
      cases hoffer
      exact heffect
    | _ => contradiction
  · exact fun heffect => ⟨_, heffect, rfl⟩

theorem mem_offersIn {packet : Packet} {taken : Bool} :
    (packet, taken) ∈ offersIn d effects ↔ Effect.offer d packet taken ∈ effects := by
  rw [← mem_offers, offersIn, List.mem_filterMap]
  constructor
  · rintro ⟨⟨direction, offered⟩, hoffer, hin⟩
    obtain ⟨hdirection, hoffered⟩ := Option.ite_none_right_eq_some.1 hin
    cases hdirection
    cases hoffered
    exact hoffer
  · exact fun hoffer => ⟨_, hoffer, if_pos rfl⟩

theorem departures_eq (effects : List Effect) :
    departures d effects =
      (offersIn d effects).filterMap fun offer => if offer.2 then some offer.1 else none := by
  rw [departures, offersIn, List.filterMap_filterMap]
  congr 1
  funext offer
  by_cases h : offer.1 = d <;> simp [h]

end Effect

/-! ### Places in a queue -/

/-- The packet waits on in its place, where some of the `writes` may have met it. -/
structure Deferred.Held (writes : List Packet) (e e' : Deferred) : Prop where
  packet : e.packet.Overwritten writes e'.packet
  ready : e'.ready = e.ready

theorem Deferred.Held.refl (writes : List Packet) (e : Deferred) : Held writes e e :=
  ⟨.refl writes e.packet, rfl⟩

/-- Packets that keep their places may leave when they might before. -/
theorem Deferred.ready_of_held {writes : List Packet} {entries entries' : List Deferred}
    (h : List.Forall₂ (Held writes) entries entries') :
    entries'.map ready = entries.map ready := by
  induction h with
  | nil => rfl
  | cons hfirst _ ih => rw [List.map_cons, List.map_cons, hfirst.ready, ih]

namespace TransmitQueue

/-- What a try to send at `now` does with the entries of a queue, told by the offers that it makes; the
agent hands back what it refuses if it is `faithful`. -/
inductive Try (faithful : Prop) (now : Tick) :
    List Deferred → List (Packet × Bool) → List Deferred → Prop
  | none (entries : List Deferred) : Try faithful now entries [] entries
  | taken {head : Deferred} {rest : List Deferred} (hdue : head.ready ≤ now) :
      Try faithful now (head :: rest) [(head.packet, true)] rest
  | refused {head : Deferred} {rest : List Deferred} {packet : Packet} (hdue : head.ready ≤ now)
      (hback : faithful → packet = head.packet) :
      Try faithful now (head :: rest) [(head.packet, false)] (⟨packet, head.ready⟩ :: rest)

variable {q : TransmitQueue} {head : Deferred} {rest : List Deferred} {faithful : Prop} {now : Tick}
  {d : Direction}

theorem offersIn_arm (tick : Tick) : Effect.offersIn d (q.arm tick).effects = [] :=
  Effect.offersIn_of_no_offer (offers_arm ..)

theorem offersIn_departure (packet : Packet) :
    Effect.offersIn d (.offer q.direction packet true ::
        ({ q with entries := rest }.armForHead now).effects) =
      if q.direction = d then [(packet, true)] else [] := by
  rw [Effect.offersIn_cons, Effect.offersIn_of_no_offer (offers_armForHead ..)]

theorem try_arm (tick : Tick) :
    Try faithful now q.entries (Effect.offersIn d (q.arm tick).effects) (q.arm tick).state.entries := by
  rw [offersIn_arm, entries_arm]
  exact .none _

theorem try_departure (hd : q.direction = d) (h : q.entries = head :: rest) (hdue : head.ready ≤ now) :
    Try faithful now q.entries
      (Effect.offersIn d (.offer q.direction head.packet true ::
        ({ q with entries := rest }.armForHead now).effects))
      ({ q with entries := rest }.armForHead now).state.entries := by
  rw [offersIn_departure, if_pos hd, entries_armForHead, h]
  exact .taken hdue

theorem try_refused (hd : q.direction = d) (h : q.entries = head :: rest) (hdue : head.ready ≤ now)
    {packet : Packet} (hback : faithful → packet = head.packet) :
    Try faithful now q.entries (Effect.offersIn d [.offer q.direction head.packet false])
      (⟨packet, head.ready⟩ :: rest) := by
  rw [Effect.offersIn_cons, if_pos hd, h]
  exact .refused hdue hback

theorem held_snoop {q' : TransmitQueue} {writes : List Packet}
    (hpackets : List.Forall₂ (Packet.Overwritten writes) q.packets q'.packets) (h : q.Alike q') :
    List.Forall₂ (Deferred.Held writes) q.entries q'.entries := by
  have hready := h.ready
  rw [packets, packets, List.forall₂_map_left_iff, List.forall₂_map_right_iff] at hpackets
  generalize q.entries = entries, q'.entries = entries' at hpackets hready ⊢
  induction hpackets with
  | nil => exact .nil
  | cons hpacket _ ih =>
    obtain ⟨hfirst, hrest⟩ := List.cons.inj hready
    exact .cons ⟨hpacket, hfirst⟩ (ih hrest)

end TransmitQueue

namespace Bridge

variable {υ δ : Type} {b : Bridge υ δ}

/-- A packet as it joins the queue of a direction at `now`. -/
def joining (b : Bridge υ δ) (d : Direction) (now : Tick) (p : Packet) : Deferred :=
  ⟨b.relabel d p, (b.settings.crossing d).readyAt now⟩

variable [Initiator υ] [Target δ]

/-- What a recorded call does with the packets of a direction, which wait as `entries` after it. -/
inductive Handling (b : Bridge υ δ) (d : Direction) (turn : Turn υ δ) (entries : List Deferred) : Prop
  /-- No packet joins, and none is offered. -/
  | stay (hentered : turn.entered d = []) (hoffers : Effect.offersIn d turn.effects = [])
      (hentries : List.Forall₂ (Deferred.Held turn.writes) (b.queue d).entries entries)
  | join (p : Packet) (hentered : turn.entered d = [p]) (huntagged : d = .request → p.tag = none)
      (hoffers : Effect.offersIn d turn.effects = [])
      (hentries : entries = (b.queue d).entries ++ [b.joining d turn.now p])
  /-- The queue tries to send, because an attempt has come due or because an owed retry has come. -/
  | send (hentered : turn.entered d = []) (hwrites : turn.writes = [])
      (hcause : turn.operation = .attempt d ∨
        turn.operation = .retry d ∧ (b.queue d).awaitingRetry = true)
      (hentries : TransmitQueue.Try (KeepsRefused υ δ d) turn.now (b.queue d).entries
        (Effect.offersIn d turn.effects) entries)

/-! ### Sending -/

/-- What sending in the direction `sending` does with the packets of the direction `d`. -/
def Tries (b : Bridge υ δ) (now : Tick) (sending d : Direction) (called : Call υ δ Unit) : Prop :=
  if d = sending then
    TransmitQueue.Try (KeepsRefused υ δ d) now (b.queue d).entries (Effect.offersIn d called.effects)
      (called.state.queue d).entries
  else
    Effect.offersIn d called.effects = [] ∧ called.state.queue d = b.queue d

theorem Tries.sendOwedRetry {b' : Bridge υ δ} {now : Tick} {sending d : Direction}
    {effects : List Effect} (h : b.Tries now sending d ⟨b', effects, .ok ()⟩) :
    b.Tries now sending d (b'.sendOwedRetry.after effects) := by
  rw [Tries, Outcome.after, queue_sendOwedRetry, Effect.offersIn_append,
    Effect.offersIn_of_no_offer b'.offers_sendOwedRetry, List.append_nil]
  exact h

theorem tries_trySendResponse (haligned : b.Aligned) (now : Tick) (d : Direction) :
    b.Tries now .response d (b.trySendResponse now) := by
  have hdirection : b.front.responses.direction = .response := haligned .response
  have hend := responseSending_trySendResponse b now
  generalize b.trySendResponse now = called at hend ⊢
  cases d with
  | request =>
    have hother : b.front.responses.direction ≠ .request := by rw [hdirection]; decide
    have hdeparture : ∀ (rest : List Deferred) (p : Packet),
        Effect.offersIn .request (.offer b.front.responses.direction p true ::
          ({ b.front.responses with entries := rest }.armForHead now).effects) = [] :=
      fun rest p => (TransmitQueue.offersIn_departure p).trans (if_neg hother)
    cases hend with
    | unbound => exact ⟨rfl, rfl⟩
    | empty => exact ⟨rfl, rfl⟩
    | early => exact ⟨TransmitQueue.offersIn_arm _, rfl⟩
    | refused => exact ⟨(Effect.offersIn_cons ..).trans (if_neg hother), rfl⟩
    | unreserved => exact ⟨hdeparture .., rfl⟩
    | takenFull => exact ⟨hdeparture .., rfl⟩
    | taken => exact Tries.sendOwedRetry ⟨hdeparture .., rfl⟩
  | response =>
    cases hend with
    | unbound => exact .none _
    | empty => exact .none _
    | early => exact TransmitQueue.try_arm _
    | @refused agent agent' head rest packet hagent h hdue hoffer =>
      refine TransmitQueue.try_refused hdirection h hdue fun hkeeps => ?_
      have hkept := hkeeps agent head.packet
      rwa [hoffer] at hkept
    | unreserved hagent h hdue => exact TransmitQueue.try_departure hdirection h hdue
    | takenFull hagent h hdue => exact TransmitQueue.try_departure hdirection h hdue
    | taken hagent h hdue =>
      exact Tries.sendOwedRetry (TransmitQueue.try_departure hdirection h hdue)

theorem tries_trySendRequest (haligned : b.Aligned) (now : Tick) (d : Direction) :
    b.Tries now .request d (b.trySendRequest now) := by
  have hdirection : b.back.requests.direction = .request := haligned .request
  have hend := requestSending_trySendRequest b now
  generalize b.trySendRequest now = called at hend ⊢
  cases d with
  | request =>
    cases hend with
    | unbound => exact .none _
    | empty => exact .none _
    | early => exact TransmitQueue.try_arm _
    | @refused agent agent' head rest packet hagent h hdue hoffer =>
      refine TransmitQueue.try_refused hdirection h hdue fun hkeeps => ?_
      have hkept := hkeeps agent head.packet
      rwa [hoffer] at hkept
    | taken hagent h hdue =>
      exact Tries.sendOwedRetry (TransmitQueue.try_departure hdirection h hdue)
  | response =>
    have hother : b.back.requests.direction ≠ .response := by rw [hdirection]; decide
    cases hend with
    | unbound => exact ⟨rfl, rfl⟩
    | empty => exact ⟨rfl, rfl⟩
    | early => exact ⟨TransmitQueue.offersIn_arm _, rfl⟩
    | refused => exact ⟨(Effect.offersIn_cons ..).trans (if_neg hother), rfl⟩
    | taken =>
      exact Tries.sendOwedRetry
        ⟨(TransmitQueue.offersIn_departure _).trans (if_neg hother), rfl⟩

theorem tries_trySend (haligned : b.Aligned) (now : Tick) (sending d : Direction) :
    b.Tries now sending d (b.trySend now sending) := by
  cases sending with
  | request => exact tries_trySendRequest haligned now d
  | response => exact tries_trySendResponse haligned now d

/-! ### Every call -/

variable (b) (now : Tick)

/-- A call that leaves a direction alone. -/
theorem Handling.rest {d : Direction} {turn : Turn υ δ} (hentered : turn.entered d = [])
    (hoffers : Effect.offersIn d turn.effects = []) {entries : List Deferred}
    (hentries : entries = (b.queue d).entries) : b.Handling d turn entries := by
  rw [hentries]
  exact .stay hentered hoffers (List.forall₂_same.2 fun e _ => .refl turn.writes e)

/-- What a recorded call at `now` does with the packets of a direction. -/
def Handles (operation : Operation υ δ) (d : Direction) : Prop :=
  b.Handling d (b.turn now operation) ((b.perform now operation).state.queue d).entries

theorem handles_submit (p : Packet) (d : Direction) : b.Handles now (.submit p) d := by
  have hend := submission_submit b now p
  simp only [Handles, turn, perform]
  generalize b.submit now p = called at hend ⊢
  cases d with
  | request =>
    cases hend with
    | accepted hretry hroom htag =>
      refine .join p rfl (fun _ => htag) ?_ (TransmitQueue.entries_push _ _ hroom.1)
      exact Effect.offersIn_of_no_offer (TransmitQueue.offers_push ..)
    | _ => exact .rest b rfl rfl rfl
  | response =>
    cases hend with
    | accepted => exact .rest b rfl (Effect.offersIn_of_no_offer (TransmitQueue.offers_push ..)) rfl
    | _ => exact .rest b rfl rfl rfl

theorem handles_respond (p : Packet) (d : Direction) : b.Handles now (.respond p) d := by
  have hend := reception_respond b now p
  simp only [Handles, turn, perform]
  generalize b.respond now p = called at hend ⊢
  cases d with
  | request =>
    cases hend with
    | queued => exact .rest b rfl (Effect.offersIn_of_no_offer (TransmitQueue.offers_push ..)) rfl
    | _ => exact .rest b rfl rfl rfl
  | response =>
    cases hend with
    | queued htake hroom =>
      have hother : Direction.response ≠ .request := by decide
      refine .join p rfl (absurd · hother)
        (Effect.offersIn_of_no_offer (TransmitQueue.offers_push ..)) ?_
      rw [joining, relabel, RequestTable.route?_of_take htake]
      exact TransmitQueue.entries_push _ _ hroom
    | _ => exact .rest b rfl rfl rfl

omit [Initiator υ] [Target δ] in
/-- A functional access leaves the waiting packets in their places, whatever its tag. -/
theorem held_snoop_tagged {q q' : TransmitQueue} {p access : Packet} {served : Bool}
    (h : q.snoop (b.tagged p) = (q', access, served)) :
    List.Forall₂ (Deferred.Held p.asWrite) q.entries q'.entries := by
  have hpasses : q.Passes .request True p.asWrite [] [] q' := passes_snoop_tagged h rfl
  have horder := hpasses.order trivial
  rw [List.append_nil] at horder
  exact TransmitQueue.held_snoop horder (TransmitQueue.alike_snoop h)

variable {b} in
/-- A functional access may meet the packets that wait. -/
theorem Handling.snooped {p : Packet} (htag : p.tag = none) {d : Direction} {turn : Turn υ δ}
    (hoperation : turn.operation = .functional p) (hoffers : Effect.offersIn d turn.effects = [])
    {entries : List Deferred}
    (hentries : List.Forall₂ (Deferred.Held p.asWrite) (b.queue d).entries entries) :
    b.Handling d turn entries := by
  have hentered : turn.entered d = [] := by
    rw [Turn.entered.eq_def, hoperation]
    cases d <;> rfl
  have hwrites : turn.writes = p.asWrite := by
    rw [Turn.writes, hoperation]
    exact if_pos htag
  exact .stay hentered hoffers (hwrites ▸ hentries)

theorem handles_functional (p : Packet) (d : Direction) : b.Handles now (.functional p) d := by
  have hend := functionalAccess_functional b p
  simp only [Handles, turn, perform]
  generalize b.functional p = called at hend ⊢
  cases hend with
  | alreadyTagged => cases d <;> exact .rest b rfl rfl rfl
  | byResponse htag hresponses =>
    cases d with
    | request => exact .rest b rfl rfl rfl
    | response => exact .snooped htag rfl rfl (b.held_snoop_tagged hresponses)
  | byRequest htag hresponses hrequests =>
    obtain rfl := TransmitQueue.access_snoop hresponses
    cases d with
    | request => exact .snooped htag rfl rfl (b.held_snoop_tagged hrequests)
    | response => exact .snooped htag rfl rfl (b.held_snoop_tagged hresponses)
  | unbound htag hresponses hrequests =>
    obtain rfl := TransmitQueue.access_snoop hresponses
    cases d with
    | request => exact .snooped htag rfl rfl (b.held_snoop_tagged hrequests)
    | response => exact .snooped htag rfl rfl (b.held_snoop_tagged hresponses)
  | performed htag hresponses hrequests =>
    obtain rfl := TransmitQueue.access_snoop hresponses
    cases d with
    | request => exact .snooped htag rfl rfl (b.held_snoop_tagged hrequests)
    | response => exact .snooped htag rfl rfl (b.held_snoop_tagged hresponses)

variable {b}

/-- A try to send handles the packets of both directions; what the queue waited for does not matter. -/
theorem handles_of_tries (haligned : b.Aligned) {sending : Direction} {operation : Operation υ δ}
    (hentered : ∀ d, (b.turn now operation).entered d = [])
    (hwrites : (b.turn now operation).writes = [])
    (hcause : operation = .attempt sending ∨
      operation = .retry sending ∧ (b.queue sending).awaitingRetry = true)
    {sendScheduled awaitingRetry : Bool}
    (hperform : b.perform now operation =
      ((b.setQueue { b.queue sending with sendScheduled, awaitingRetry } sending).trySend now
        sending).answering fun () => .done) (d : Direction) : b.Handles now operation d := by
  have htries := tries_trySend (haligned.setQueue sending sendScheduled awaitingRetry) now sending d
  rw [Handles, hperform]
  rw [Tries] at htries
  by_cases hd : d = sending
  · subst hd
    rw [if_pos rfl, queue_setQueue] at htries
    refine .send (hentered d) hwrites hcause ?_
    rw [turn, hperform]
    exact htries
  · rw [if_neg hd, queue_setQueue_of_ne _ _ hd] at htries
    obtain ⟨hoffers, hqueue⟩ := htries
    refine .rest b (hentered d) ?_ (congrArg TransmitQueue.entries hqueue)
    rw [turn, hperform]
    exact hoffers

/-- Every call handles the packets of a direction in one of these ways. -/
theorem handles_perform (haligned : b.Aligned) (operation : Operation υ δ) (d : Direction) :
    b.Handles now operation d := by
  cases operation with
  | submit p => exact b.handles_submit now p d
  | respond p => exact b.handles_respond now p d
  | functional p => exact b.handles_functional now p d
  | bindInitiator => cases d <;> exact .rest b rfl rfl rfl
  | bindTarget => cases d <;> exact .rest b rfl rfl rfl
  | start =>
    have hend := starting_start b
    simp only [Handles, turn, perform]
    generalize b.start = called at hend ⊢
    cases hend <;> cases d <;> exact .rest b rfl rfl rfl
  | atomic p =>
    have hend := atomicAccess_atomic b p
    simp only [Handles, turn, perform]
    generalize b.atomic p = called at hend ⊢
    cases hend <;> cases d <;> exact .rest b rfl rfl rfl
  | attempt sending =>
    have hentered : ∀ d, (b.turn now (.attempt sending)).entered d = [] := by
      intro d; cases d <;> rfl
    exact handles_of_tries now haligned hentered rfl (.inl rfl) (b.perform_attempt now sending) d
  | retry sending =>
    have hentered : ∀ d, (b.turn now (.retry sending)).entered d = [] := by
      intro d; cases d <;> rfl
    by_cases hawaiting : (b.queue sending).awaitingRetry = true
    · have hperform := b.perform_retry now sending
      rw [if_pos hawaiting] at hperform
      exact handles_of_tries now haligned hentered rfl (.inr ⟨rfl, hawaiting⟩) hperform d
    · rw [Handles, turn, perform_retry, if_neg hawaiting]
      exact .rest b (by cases d <;> rfl) rfl rfl

end Bridge

/-! ### The packets that were let in, wherever they are now -/

/-- A packet that has crossed may meet further functional writes. -/
theorem Entrant.Crossed.later {d : Direction} {e : Entrant} {p p' : Packet} {writes : List Packet}
    (h : e.Crossed d p) (hp : p.Overwritten writes p') :
    Entrant.Crossed d ⟨e.packet, e.writes ++ writes⟩ p' := by
  obtain ⟨joined, hjoined, hover⟩ := h
  exact ⟨joined, hjoined, hover.trans hp⟩

theorem Bridge.crossed_joining {υ δ : Type} (b : Bridge υ δ) (d : Direction) (now : Tick)
    (p : Packet) : Entrant.Crossed d ⟨p, []⟩ (b.joining d now p).packet :=
  ⟨_, b.relabelled_relabel d p, .refl ..⟩

/-- A packet that was let in, and when. -/
structure Arrival where
  tick : Tick
  entrant : Entrant

/-- The arrival after further functional writes. -/
def Arrival.later (a : Arrival) (writes : List Packet) : Arrival :=
  { a with entrant := { a.entrant with writes := a.entrant.writes ++ writes } }

namespace Turn

variable {υ δ : Type} (d : Direction)

/-- The packets that a run lets in for a direction, as they were handed to the bridge, and when. -/
def arrivals : List (Turn υ δ) → List Arrival
  | [] => []
  | turn :: rest =>
    (turn.entered d).map (⟨turn.now, ·, rest.flatMap Turn.writes⟩) ++ arrivals rest

/-- The packets that a run hands over to the agent at the end of a direction, and when. -/
def leavings (log : List (Turn υ δ)) : List Deferred :=
  log.flatMap fun turn => (Effect.departures d turn.effects).map (⟨·, turn.now⟩)

theorem entrant_arrivals (log : List (Turn υ δ)) :
    (arrivals d log).map Arrival.entrant = entrants d log := by
  induction log with
  | nil => rfl
  | cons turn rest ih =>
    rw [arrivals, entrants, List.map_append, ih, List.map_map]
    rfl

theorem arrivals_concat (log : List (Turn υ δ)) (turn : Turn υ δ) :
    arrivals d (log ++ [turn]) =
      (arrivals d log).map (·.later turn.writes) ++ (turn.entered d).map (⟨turn.now, ·, []⟩) := by
  induction log with
  | nil => exact List.append_nil _
  | cons first rest ih =>
    rw [List.cons_append, arrivals, arrivals, ih, List.map_append, List.map_map, List.append_assoc,
      List.flatMap_append, List.flatMap_singleton]
    rfl

theorem leavings_concat (log : List (Turn υ δ)) (turn : Turn υ δ) :
    leavings d (log ++ [turn]) =
      leavings d log ++ (Effect.departures d turn.effects).map (⟨·, turn.now⟩) := by
  rw [leavings, List.flatMap_append, List.flatMap_singleton]
  rfl

end Turn

namespace Bridge

variable {υ δ : Type} [Initiator υ] [Target δ] {b : Bridge υ δ} {d : Direction}

/-- What holds of each packet that was let in, be it gone or waiting, holds after a call too, if it holds
of a packet that joins and is kept when a packet meets a write and when it leaves. -/
theorem Handling.forall₂_arrivals {R : Arrival → Deferred → Prop} {log : List (Turn υ δ)}
    {turn : Turn υ δ} {entries : List Deferred} (h : b.Handling d turn entries)
    (hbefore : List.Forall₂ R (Turn.arrivals d log) (Turn.leavings d log ++ (b.queue d).entries))
    (hkeeps : KeepsRefused υ δ d ∨ ∀ offer ∈ Effect.offersIn d turn.effects, offer.2 = true)
    (held : ∀ a e e', R a e → e.Held turn.writes e' → R (a.later turn.writes) e')
    (joins : ∀ p, turn.entered d = [p] → (d = .request → p.tag = none) →
      R ⟨turn.now, p, []⟩ (b.joining d turn.now p))
    (leaves : ∀ a head rest, (b.queue d).entries = head :: rest → head.ready ≤ turn.now →
      R a head → R a ⟨head.packet, turn.now⟩) :
    List.Forall₂ R (Turn.arrivals d (log ++ [turn])) (Turn.leavings d (log ++ [turn]) ++ entries) := by
  -- What each packet was before the call is linked to what it is after it.
  have hlink : ∀ places, List.Forall₂ (fun e e' => ∀ a, R a e → R (a.later turn.writes) e')
      (Turn.leavings d log ++ (b.queue d).entries) places →
      List.Forall₂ R ((Turn.arrivals d log).map (·.later turn.writes)) places := by
    intro places hplaces
    rw [List.forall₂_map_left_iff]
    exact forall₂_chain (fun a e e' ha he => he a ha) hbefore hplaces
  have hrest : ∀ e a, R a e → R (a.later turn.writes) e := fun e a ha =>
    held a e e ha (.refl turn.writes e)
  have hgone : List.Forall₂ (fun e e' => ∀ a, R a e → R (a.later turn.writes) e')
      (Turn.leavings d log) (Turn.leavings d log) := List.forall₂_same.2 fun e _ => hrest e
  rw [Turn.arrivals_concat, Turn.leavings_concat, Effect.departures_eq]
  cases h with
  | stay hentered hoffers hentries =>
    rw [hentered, hoffers]
    simp only [List.map_nil, List.filterMap_nil, List.append_nil]
    refine hlink _ (List.rel_append hgone (hentries.imp fun e e' he a ha => held a e e' ha he))
  | join p hentered huntagged hoffers hentries =>
    rw [hentered, hoffers, hentries]
    simp only [List.map_cons, List.map_nil, List.filterMap_nil, List.append_nil, ← List.append_assoc]
    refine List.rel_append (hlink _ ?_) (.cons (joins p hentered huntagged) .nil)
    exact List.forall₂_same.2 fun e _ => hrest e
  | send hentered hwrites hcause hentries =>
    rw [hentered]
    simp only [List.map_nil, List.append_nil]
    refine hlink _ ?_
    generalize hold : (b.queue d).entries = old, Effect.offersIn d turn.effects = offers
      at hentries hkeeps ⊢
    cases hentries with
    | none =>
      simp only [List.filterMap_nil, List.map_nil, List.append_nil]
      exact List.forall₂_same.2 fun e _ => hrest e
    | @taken head rest hdue =>
      simp only [List.filterMap_cons, List.filterMap_nil, if_true, List.map_cons, List.map_nil,
        List.append_assoc, List.singleton_append]
      refine List.rel_append hgone (.cons (fun a ha => ?_) ?_)
      · exact hrest _ a (leaves a head _ hold hdue ha)
      · exact List.forall₂_same.2 fun e _ => hrest e
    | @refused head rest packet hdue hback =>
      simp only [List.filterMap_cons, List.filterMap_nil, Bool.false_eq_true, if_false, List.map_nil,
        List.append_nil]
      have hpacket : packet = head.packet := by
        rcases hkeeps with hkeeps | htaken
        · exact hback hkeeps
        · exact nomatch htaken _ (List.mem_singleton_self _)
      rw [hpacket]
      exact List.forall₂_same.2 fun e _ => hrest e

end Bridge

end TimedBridge
