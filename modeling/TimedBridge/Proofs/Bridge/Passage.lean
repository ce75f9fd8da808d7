import TimedBridge.Proofs.Bridge.Credit
import TimedBridge.Proofs.Bridge.Queues
import TimedBridge.Proofs.TransmitQueue.Passage

/-!
The passage of packets across a bridge. What has left in a direction, followed by what still waits, is
what has been let in, in the same order (`exists_crossed`): nothing is lost, doubled or overtaken. A
packet is relabelled once, when it is let in; after that only the bytes of functional writes reach it.
The step is `passesTurn`: what waits before a call and what the call lets in are what leaves in the
call and what waits after it.
-/

namespace TimedBridge

/-- What is linked to the one in between, item by item, is linked to the other end. -/
theorem forall₂_chain {α β γ : Type} {R : α → β → Prop} {S : β → γ → Prop} {T : α → γ → Prop}
    (hlink : ∀ a b c, R a b → S b c → T a c) {as : List α} {bs : List β} {cs : List γ}
    (h : List.Forall₂ R as bs) (h' : List.Forall₂ S bs cs) : List.Forall₂ T as cs := by
  induction h generalizing cs with
  | nil =>
    obtain rfl := List.forall₂_nil_left_iff.1 h'
    exact .nil
  | cons hfirst _ ih =>
    obtain ⟨c, rest, hc, hrest, rfl⟩ := List.forall₂_cons_left_iff.1 h'
    exact .cons (hlink _ _ _ hfirst hc) (ih hrest)

/-! ### What is let in -/

/-- The packet `q` is `p` with other labels: its tag and its delays and, on the way back, its
destination. -/
structure Packet.Relabelled (d : Direction) (p q : Packet) : Prop where
  rest : q = { p with
    tag := q.tag
    destination := q.destination
    firstWordDelay := q.firstWordDelay
    lastWordDelay := q.lastWordDelay }
  destination : d = .request → q.destination = p.destination

theorem Crossing.relabelled_charge (c : Crossing) (d : Direction) (p : Packet) :
    p.Relabelled d (c.charge p) := by
  unfold charge Hints.charge
  split <;> exact ⟨rfl, fun _ => rfl⟩

namespace Turn

variable {υ δ : Type}

/-- The packet that a call lets in for a direction, as it was handed to the bridge. -/
def entered (d : Direction) (turn : Turn υ δ) : List Packet :=
  match d, turn.operation, turn.answer with
  | .request, .submit p, .ok (.admission .accepted) => [p]
  | .response, .respond p, .ok _ => [p]
  | _, _, _ => []

/-- The functional write that a call makes. -/
def writes (turn : Turn υ δ) : List Packet :=
  match turn.operation with
  | .functional p => if p.tag = none then p.asWrite else []
  | _ => []

/-- The packets that the calls of a run hand over to the agent at the end of a direction. -/
def departures (d : Direction) (log : List (Turn υ δ)) : List Packet :=
  log.flatMap fun turn => Effect.departures d turn.effects

/-- A call that lets a packet in makes no functional write. -/
theorem writes_of_mem_entered {d : Direction} {turn : Turn υ δ} {p : Packet}
    (h : p ∈ turn.entered d) : turn.writes = [] := by
  rw [entered.eq_def] at h
  split at h
  next hoperation _ => rw [writes, hoperation]
  next hoperation _ => rw [writes, hoperation]
  next => exact absurd h List.not_mem_nil

end Turn

/-- A packet that is let in, and the functional writes that are made after that. -/
structure Entrant where
  packet : Packet
  writes : List Packet

/-- The packets that a run lets in for a direction, as they were handed to the bridge. -/
def Turn.entrants {υ δ : Type} (d : Direction) : List (Turn υ δ) → List Entrant
  | [] => []
  | turn :: rest => (turn.entered d).map (⟨·, rest.flatMap Turn.writes⟩) ++ entrants d rest

/-- The packet `p` is the one that joined the queue, overwritten by writes that were made after that. -/
def Entrant.Kept (e : Entrant) (p : Packet) : Prop := e.packet.Overwritten e.writes p

/-- The packet `p` is the one that was let in: it has been relabelled once, and then only overwritten,
by writes that were made after it was let in. -/
def Entrant.Crossed (d : Direction) (e : Entrant) (p : Packet) : Prop :=
  ∃ joined : Packet, e.packet.Relabelled d joined ∧ joined.Overwritten e.writes p

namespace Bridge

variable {υ δ : Type} {b : Bridge υ δ}

/-- The packet as it joins the queue of a direction. -/
def relabel (b : Bridge υ δ) (d : Direction) (p : Packet) : Packet :=
  match d with
  | .request => b.front.crossing.charge (b.tagged p)
  | .response => { b.back.crossing.charge p with destination := b.table.route? p.id }

theorem relabelled_relabel (b : Bridge υ δ) (d : Direction) (p : Packet) :
    p.Relabelled d (b.relabel d p) := by
  cases d with
  | request =>
    have hcharge := b.front.crossing.relabelled_charge .request (b.tagged p)
    exact ⟨hcharge.rest, hcharge.destination⟩
  | response =>
    have hrest := (b.back.crossing.relabelled_charge .response p).rest
    refine ⟨?_, nofun⟩
    simp only [relabel]
    rw [hrest]

/-- Each queue is that of its direction. -/
def Aligned (b : Bridge υ δ) : Prop := ∀ d, (b.queue d).direction = d

/-! ### Where packets wait -/

theorem packets_setQueue (b : Bridge υ δ) (d d' : Direction) (sendScheduled awaitingRetry : Bool) :
    ((b.setQueue { b.queue d with sendScheduled, awaitingRetry } d).queue d').packets =
      (b.queue d').packets := by
  cases d <;> cases d' <;> rfl

theorem Aligned.setQueue (h : b.Aligned) (d : Direction) (sendScheduled awaitingRetry : Bool) :
    (b.setQueue { b.queue d with sendScheduled, awaitingRetry } d).Aligned := by
  intro d'
  have hd' := h d'
  cases d <;> cases d' <;> exact hd'

theorem Fresh.aligned {c : BridgeConfig} (h : b.Fresh c) : b.Aligned := by
  intro d
  obtain ⟨capacity, hqueue⟩ := h.queue_eq d
  rw [hqueue]

theorem Fresh.packets_eq {c : BridgeConfig} (h : b.Fresh c) (d : Direction) :
    (b.queue d).packets = [] := by
  obtain ⟨capacity, hqueue⟩ := h.queue_eq d
  rw [hqueue]
  rfl

/-- The tag of a functional access does not matter to the packets that it meets. -/
theorem passes_snoop_tagged {q q' : TransmitQueue} {p access : Packet} {served : Bool}
    (h : q.snoop (b.tagged p) = (q', access, served)) {d : Direction} {faithful : Prop}
    {effects : List Effect} (heffects : Effect.departures d effects = []) :
    q.Passes d faithful p.asWrite [] effects q' := by
  have hpasses : q.Passes d faithful (b.tagged p).asWrite [] effects q' :=
    TransmitQueue.passes_snoop h heffects
  refine ⟨hpasses.direction, fun hfaithful => ?_⟩
  refine (hpasses.order hfaithful).imp fun held held' hover => ?_
  refine ⟨hover.rest, hover.length, fun a => (hover.byte a).imp_right ?_⟩
  rintro ⟨w, hw, hbyte⟩
  rw [Packet.asWrite] at hw ⊢
  split at hw
  next hwrite =>
    obtain rfl := List.mem_singleton.1 hw
    rw [if_pos (by exact hwrite)]
    exact ⟨p, List.mem_singleton_self p, hbyte⟩
  next => exact absurd hw List.not_mem_nil

variable [Initiator υ] [Target δ]

/-- The agent at the end of a direction hands back unchanged what it refuses. -/
def KeepsRefused (υ δ : Type) [Initiator υ] [Target δ] : Direction → Prop
  | .request => ∀ (agent : δ) (p : Packet), (Target.offerRequest agent p).2.KeepsPacket p
  | .response => ∀ (agent : υ) (p : Packet), (Initiator.offerResponse agent p).2.KeepsPacket p

/-- A call passes packets on in a direction. -/
def Passes {α : Type} (b : Bridge υ δ) (d : Direction) (writes entering : List Packet)
    (called : Call υ δ α) : Prop :=
  (b.queue d).Passes d (KeepsRefused υ δ d) writes entering called.effects (called.state.queue d)

/-- What a queue waits for does not matter to the packets that it passes on. -/
theorem Passes.of_setQueue {α : Type} {called : Call υ δ α} (haligned : b.Aligned)
    {d d' : Direction} {sendScheduled awaitingRetry : Bool}
    (h : (b.setQueue { b.queue d with sendScheduled, awaitingRetry } d).Passes d' [] [] called) :
    b.Passes d' [] [] called := by
  refine ⟨h.direction.trans ?_, fun hkeeps => ?_⟩
  · rw [haligned.setQueue d sendScheduled awaitingRetry d', haligned d']
  · rw [← b.packets_setQueue d d' sendScheduled awaitingRetry]
    exact h.order hkeeps

/-! ### Leaving the queues -/

/-- A call that passes packets on may send the owed retry afterwards. -/
theorem Passes.sendOwedRetry {b' : Bridge υ δ} {d : Direction} {writes entering : List Packet}
    {effects : List Effect} (h : b.Passes d writes entering ⟨b', effects, Except.ok ()⟩) :
    b.Passes d writes entering (b'.sendOwedRetry.after effects) := by
  rw [Passes, Outcome.after, queue_sendOwedRetry]
  refine ⟨h.direction, fun hkeeps => ?_⟩
  rw [Effect.departures_append, Effect.departures_of_no_offer b'.offers_sendOwedRetry,
    List.append_nil]
  exact h.order hkeeps

theorem passes_trySendResponse (haligned : b.Aligned) (now : Tick) (d : Direction) :
    b.Passes d [] [] (b.trySendResponse now) := by
  have hdirection : b.front.responses.direction = .response := haligned .response
  have hend := responseSending_trySendResponse b now
  generalize b.trySendResponse now = called at hend ⊢
  cases d with
  | request =>
    have hother : b.front.responses.direction ≠ .request := by rw [hdirection]; decide
    cases hend with
    | unbound => exact .rest _ rfl
    | empty => exact .rest _ rfl
    | early => exact .rest _ (TransmitQueue.departures_arm ..)
    | refused => exact .rest _ (Effect.departures_refused ..)
    | unreserved => exact .rest _ (TransmitQueue.departures_departure hother ..)
    | takenFull => exact .rest _ (TransmitQueue.departures_departure hother ..)
    | taken =>
      exact Passes.sendOwedRetry (.rest _ (TransmitQueue.departures_departure hother ..))
  | response =>
    cases hend with
    | unbound => exact .rest _ rfl
    | empty => exact .rest _ rfl
    | early => exact TransmitQueue.passes_arm ..
    | @refused agent agent' head rest packet hagent h hdue hoffer =>
      refine TransmitQueue.passes_refused h fun hkeeps => ?_
      have hkept := hkeeps agent head.packet
      rwa [hoffer] at hkept
    | unreserved hagent h => exact TransmitQueue.passes_departure hdirection h now
    | takenFull hagent h => exact TransmitQueue.passes_departure hdirection h now
    | taken hagent h =>
      exact Passes.sendOwedRetry (TransmitQueue.passes_departure hdirection h now)

theorem passes_trySendRequest (haligned : b.Aligned) (now : Tick) (d : Direction) :
    b.Passes d [] [] (b.trySendRequest now) := by
  have hdirection : b.back.requests.direction = .request := haligned .request
  have hend := requestSending_trySendRequest b now
  generalize b.trySendRequest now = called at hend ⊢
  cases d with
  | request =>
    cases hend with
    | unbound => exact .rest _ rfl
    | empty => exact .rest _ rfl
    | early => exact TransmitQueue.passes_arm ..
    | @refused agent agent' head rest packet hagent h hdue hoffer =>
      refine TransmitQueue.passes_refused h fun hkeeps => ?_
      have hkept := hkeeps agent head.packet
      rwa [hoffer] at hkept
    | taken hagent h =>
      exact Passes.sendOwedRetry (TransmitQueue.passes_departure hdirection h now)
  | response =>
    have hother : b.back.requests.direction ≠ .response := by rw [hdirection]; decide
    cases hend with
    | unbound => exact .rest _ rfl
    | empty => exact .rest _ rfl
    | early => exact .rest _ (TransmitQueue.departures_arm ..)
    | refused => exact .rest _ (Effect.departures_refused ..)
    | taken =>
      exact Passes.sendOwedRetry (.rest _ (TransmitQueue.departures_departure hother ..))

theorem passes_trySend (haligned : b.Aligned) (now : Tick) (sending d : Direction) :
    b.Passes d [] [] (b.trySend now sending) := by
  cases sending with
  | request => exact passes_trySendRequest haligned now d
  | response => exact passes_trySendResponse haligned now d

/-! ### Every call -/

/-- The packets that a call lets in, as they join the queue of a direction. -/
def entering (b : Bridge υ δ) (now : Tick) (operation : Operation υ δ) (d : Direction) :
    List Packet :=
  ((b.turn now operation).entered d).map (b.relabel d)

/-- A call passes packets on in a direction, those among them that it lets in. -/
def PassesTurn (b : Bridge υ δ) (now : Tick) (operation : Operation υ δ) (d : Direction) : Prop :=
  b.Passes d (b.turn now operation).writes (b.entering now operation d) (b.perform now operation)

theorem passesTurn_submit (b : Bridge υ δ) (now : Tick) (p : Packet) (d : Direction) :
    b.PassesTurn now (.submit p) d := by
  have hend := submission_submit b now p
  simp only [PassesTurn, entering, turn, perform]
  generalize b.submit now p = called at hend ⊢
  cases d with
  | request =>
    cases hend with
    | accepted hretry hroom => exact TransmitQueue.passes_push _ _ hroom.1
    | _ => exact .rest _ rfl
  | response =>
    cases hend with
    | accepted => exact .rest _ (Effect.departures_of_no_offer (TransmitQueue.offers_push ..))
    | _ => exact .rest _ rfl

theorem passesTurn_respond (b : Bridge υ δ) (now : Tick) (p : Packet) (d : Direction) :
    b.PassesTurn now (.respond p) d := by
  have hend := reception_respond b now p
  simp only [PassesTurn, entering, turn, perform]
  generalize b.respond now p = called at hend ⊢
  cases d with
  | request =>
    cases hend with
    | queued => exact .rest _ (Effect.departures_of_no_offer (TransmitQueue.offers_push ..))
    | _ => exact .rest _ rfl
  | response =>
    cases hend with
    | queued htake hroom =>
      have hroute := RequestTable.route?_of_take htake
      simp only [Turn.entered, Outcome.answering, Except.map, List.map_singleton, relabel, hroute]
      exact TransmitQueue.passes_push _ _ hroom
    | _ => exact .rest _ rfl

theorem passesTurn_functional (b : Bridge υ δ) (now : Tick) (p : Packet) (d : Direction) :
    b.PassesTurn now (.functional p) d := by
  have hend := functionalAccess_functional b p
  have hentering : (b.turn now (.functional p)).entered d = [] := by cases d <;> rfl
  rw [PassesTurn, entering, hentering]
  simp only [turn, perform, Turn.writes]
  generalize b.functional p = called at hend ⊢
  cases hend with
  | alreadyTagged => exact .rest _ rfl
  | byResponse htag hresponses =>
    rw [if_pos htag]
    cases d with
    | request => exact .rest _ rfl
    | response => exact passes_snoop_tagged hresponses rfl
  | byRequest htag hresponses hrequests =>
    obtain rfl := TransmitQueue.access_snoop hresponses
    rw [if_pos htag]
    cases d with
    | request => exact passes_snoop_tagged hrequests rfl
    | response => exact passes_snoop_tagged hresponses rfl
  | unbound htag hresponses hrequests =>
    obtain rfl := TransmitQueue.access_snoop hresponses
    rw [if_pos htag]
    cases d with
    | request => exact passes_snoop_tagged hrequests rfl
    | response => exact passes_snoop_tagged hresponses rfl
  | performed htag hresponses hrequests =>
    obtain rfl := TransmitQueue.access_snoop hresponses
    rw [if_pos htag]
    cases d with
    | request => exact passes_snoop_tagged hrequests rfl
    | response => exact passes_snoop_tagged hresponses rfl

/-- Every call passes packets on. -/
theorem passesTurn (haligned : b.Aligned) (now : Tick) (operation : Operation υ δ) (d : Direction) :
    b.PassesTurn now operation d := by
  cases operation with
  | submit p => exact b.passesTurn_submit now p d
  | respond p => exact b.passesTurn_respond now p d
  | functional p => exact b.passesTurn_functional now p d
  | bindInitiator => cases d <;> exact .rest _ rfl
  | bindTarget => cases d <;> exact .rest _ rfl
  | start =>
    have hend := starting_start b
    simp only [PassesTurn, entering, turn, perform]
    generalize b.start = called at hend ⊢
    cases hend <;> cases d <;> exact .rest _ rfl
  | atomic p =>
    have hend := atomicAccess_atomic b p
    simp only [PassesTurn, entering, turn, perform]
    generalize b.atomic p = called at hend ⊢
    cases hend <;> cases d <;> exact .rest _ rfl
  | attempt sending =>
    have hentering : b.entering now (.attempt sending) d = [] := by cases d <;> rfl
    have hwaiting := haligned.setQueue sending false (b.queue sending).awaitingRetry
    rw [PassesTurn, hentering, perform_attempt]
    exact Passes.of_setQueue haligned (passes_trySend hwaiting now sending d)
  | retry sending =>
    have hentering : b.entering now (.retry sending) d = [] := by cases d <;> rfl
    have hwaiting := haligned.setQueue sending (b.queue sending).sendScheduled false
    rw [PassesTurn, hentering, perform_retry]
    split
    · exact Passes.of_setQueue haligned (passes_trySend hwaiting now sending d)
    · exact .rest _ rfl

theorem Aligned.perform (h : b.Aligned) (now : Tick) (operation : Operation υ δ) :
    (b.perform now operation).state.Aligned :=
  fun d => (passesTurn h now operation d).direction.trans (h d)

/-! ### Runs -/

/-- The packets that a run lets in, as they join the queue of a direction. -/
def joiners (d : Direction) (b : Bridge υ δ) : List (Tick × Operation υ δ) → List Entrant
  | [] => []
  | (now, operation) :: rest =>
    (b.entering now operation d).map
        (⟨·, ((b.perform now operation).state.record rest).flatMap Turn.writes⟩) ++
      joiners d (b.perform now operation).state rest

/-- A packet that joins in a call has met no write of that call. -/
theorem entering_with_writes (b : Bridge υ δ) (now : Tick) (operation : Operation υ δ)
    (d : Direction) (writes : List Packet) :
    (b.entering now operation d).map (Entrant.mk · writes) =
      (b.entering now operation d).map
        (Entrant.mk · ((b.turn now operation).writes ++ writes)) := by
  refine List.map_congr_left fun joined hjoined => ?_
  obtain ⟨p, hp, -⟩ := List.mem_map.1 hjoined
  rw [Turn.writes_of_mem_entered hp, List.nil_append]

/-- What is kept through a call and then through the rest of a run is kept through both. -/
theorem kept_append {before waiting departed : List Packet} {more : List Entrant}
    {after : List Packet} {writes later : List Packet}
    (h : List.Forall₂ (Packet.Overwritten writes) before (departed ++ waiting))
    (hlater : List.Forall₂ Entrant.Kept (waiting.map (⟨·, later⟩) ++ more) after) :
    List.Forall₂ Entrant.Kept (before.map (⟨·, writes ++ later⟩) ++ more) (departed ++ after) := by
  induction departed generalizing before with
  | nil =>
    -- Nothing has departed, so each packet goes on from the call into the rest of the run.
    rw [List.nil_append] at h ⊢
    induction h generalizing after with
    | nil => exact hlater
    | cons hfirst _ ih =>
      obtain ⟨p, rest, hp, hrest, rfl⟩ := List.forall₂_cons_left_iff.1 hlater
      exact .cons (hfirst.trans hp) (ih hrest)
  | cons p departed ih =>
    obtain ⟨q, rest, hq, hrest, rfl⟩ := List.forall₂_cons_right_iff.1 h
    exact .cons (hq.mono (List.subset_append_left writes later)) (ih hrest)

/-- What waits at the start of a run and what joins in it are what departs in it and what waits at its
end. -/
theorem kept_after (haligned : b.Aligned) {d : Direction} (hkeeps : KeepsRefused υ δ d)
    (run : List (Tick × Operation υ δ)) :
    List.Forall₂ Entrant.Kept
      ((b.queue d).packets.map (⟨·, (b.record run).flatMap Turn.writes⟩) ++ b.joiners d run)
      (Turn.departures d (b.record run) ++ ((b.after run).queue d).packets) := by
  induction run generalizing b with
  | nil =>
    rw [joiners, List.append_nil, List.forall₂_map_left_iff]
    exact List.forall₂_same.2 fun p _ => .refl _ p
  | cons call rest ih =>
    obtain ⟨now, operation⟩ := call
    have hcall := (passesTurn haligned now operation d).order hkeeps
    have hrest := ih (haligned.perform now operation)
    have hrun := kept_append hcall hrest
    rw [List.map_append, List.append_assoc, ← b.entering_with_writes now operation d] at hrun
    rw [record, joiners, Turn.departures, List.flatMap_cons, List.flatMap_cons, List.append_assoc]
    exact hrun

/-- A packet joins the queue as it was handed to the bridge, but for its labels. -/
theorem relabelled_joiners (b : Bridge υ δ) (d : Direction) (run : List (Tick × Operation υ δ)) :
    List.Forall₂ (fun e joined : Entrant =>
        e.packet.Relabelled d joined.packet ∧ joined.writes = e.writes)
      (Turn.entrants d (b.record run)) (b.joiners d run) := by
  induction run generalizing b with
  | nil => exact .nil
  | cons call rest ih =>
    rw [record, Turn.entrants, joiners, entering, List.map_map]
    refine List.rel_append ?_ (ih _)
    rw [List.forall₂_map_left_iff, List.forall₂_map_right_iff]
    exact List.forall₂_same.2 fun p _ => ⟨b.relabelled_relabel d p, rfl⟩

/-- In every run of a bridge of accepted settings between agents that hand back unchanged what they
refuse, the packets that have departed and those that wait are the packets that were let in, in this
order. -/
theorem exists_crossed {c : BridgeConfig} (name : String) (valid : c.validate = .ok ())
    (hkeeps : ∀ d, KeepsRefused υ δ d) :
    ∃ b : Bridge υ δ, ofConfig name c = .ok b ∧ ∀ run d,
      List.Forall₂ (Entrant.Crossed d) (Turn.entrants d (b.record run))
        (Turn.departures d (b.record run) ++ ((b.after run).queue d).packets) := by
  obtain ⟨b, hb, hfresh⟩ := exists_ofConfig name valid
  refine ⟨b, hb, fun run d => ?_⟩
  have hkept := kept_after hfresh.aligned (hkeeps d) run
  rw [hfresh.packets_eq d] at hkept
  refine forall₂_chain (fun e joined p hjoined hp => ?_) (b.relabelled_joiners d run) hkept
  exact ⟨joined.packet, hjoined.1, hjoined.2 ▸ hp⟩

/-- The generator refuses nothing, and the memory hands back the request that it refuses. -/
theorem keepsRefused_generator_memory (d : Direction) : KeepsRefused Generator Memory d := by
  cases d with
  | request =>
    intro m p
    change (m.offer p).2.KeepsPacket p
    rw [Memory.offer]
    dsimp only
    split
    · rfl
    · trivial
  | response => exact fun _ _ => trivial

/-- A memory that takes the first request and refuses the second one once. -/
def balkingMemory : Memory := { latency := 0, refuseEvery := 2 }

/-- Two writes cross. The second one is refused, and while it waits a functional write meets it. -/
def overwrittenWrite : List (Tick × Operation Generator Memory) :=
  [(0, .bindInitiator {}), (0, .bindTarget balkingMemory),
    (0, .submit (.write 1 0 [1, 2, 3, 4] 0)), (1, .attempt .request),
    (1, .submit (.write 2 8 [5, 6, 7, 8] 0)), (2, .attempt .request),
    (2, .functional (.write 3 9 [0, 0] 0)), (3, .retry .request),
    (3, .respond (Packet.write 1 0 [1, 2, 3, 4] 0).respond)]

theorem crossed_overwrittenWrite :
    ∃ b : Bridge Generator Memory, ofConfig "narrow" narrow = .ok b ∧
      (∀ d, List.Forall₂ (Entrant.Crossed d) (Turn.entrants d (b.record overwrittenWrite))
        (Turn.departures d (b.record overwrittenWrite) ++
          ((b.after overwrittenWrite).queue d).packets)) ∧
      (Turn.departures .request (b.record overwrittenWrite)).map Packet.data =
        [some [1, 2, 3, 4], some [5, 0, 0, 8]] := by
  have valid : narrow.validate = .ok () := rfl
  obtain ⟨b, hb, hcrossed⟩ := exists_crossed "narrow" valid keepsRefused_generator_memory
  refine ⟨b, hb, hcrossed overwrittenWrite, ?_⟩
  obtain rfl := Except.ok.inj hb
  rfl

end Bridge

end TimedBridge
