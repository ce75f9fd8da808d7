import TimedBridge.Proofs.Simulation.Agents

/-!
What each event of a simulation does to the flow. With its agents bound and its accounts in order, an
event is carried out without a fault and is one step of the flow; one that issues nothing leaves the
accesses to come as they are.
-/

namespace TimedBridge

namespace Simulation

variable {s : Simulation} {g : Generator} {m : Memory} {tick : Tick} {event : SimEvent}
  {agenda : Agenda SimEvent} {P Q : Flow → Prop}

/-- A simulation between two steps. -/
structure Running (s : Simulation) (g : Generator) (m : Memory) : Prop where
  driven : s.Driven
  joins : s.bridge.Joins g m
  quiet : Quiet g m
  consistent : (s.flow g m).Consistent
  settled : (s.flow g m).Settled

/-- A part of a step succeeds, keeps the simulation going, and leaves a flow with the given property. -/
def Carried (P : Flow → Prop) (result : Step Unit) : Prop :=
  ∃ s g m, result = (s, .ok ()) ∧ s.Driven ∧ s.bridge.Joins g m ∧ P (s.flow g m)

/-- A call on the bridge succeeds, keeps it between two agents, and leaves a flow with the given
property. -/
def Leaves (s : Simulation) (P : Flow → Prop) (called : Call Generator Memory Unit) : Prop :=
  called.answer = .ok () ∧
    ∃ g m, called.state.Joins g m ∧ P ({ s with bridge := called.state }.flow g m)

theorem Carried.mono {result : Step Unit} (h : Carried P result) (himp : ∀ v, P v → Q v) :
    Carried Q result := by
  obtain ⟨s, g, m, hresult, hdriven, hjoins, hflow⟩ := h
  exact ⟨s, g, m, hresult, hdriven, hjoins, himp _ hflow⟩

/-- What a call leaves behind is taken over. -/
theorem carried_adopt {α : Type} {o : Outcome (Bridge Generator Memory) α}
    (hdriven : (s.adopt o).Driven) (hjoins : o.state.Joins g m)
    (hflow : P ({ s with bridge := o.state }.flow g m)) : Carried P (s.adopt o, .ok ()) := by
  refine ⟨s.adopt o, g, m, rfl, hdriven, ?_, ?_⟩
  · rw [bridge_adopt]
    exact hjoins
  · rw [flow_adopt]
    exact hflow

/-- A call that makes a whole step. -/
theorem Leaves.finish {called : Call Generator Memory Unit} (h : s.Leaves P called)
    (hdriven : (s.adopt called).Driven) : Carried P (s.finish called) := by
  obtain ⟨hanswer, g, m, hjoins, hflow⟩ := h
  rw [Simulation.finish, hanswer]
  exact carried_adopt hdriven hjoins hflow

/-- A call that ends by sending the owed retry. -/
theorem leaves_sendOwedRetry {b : Bridge Generator Memory} (hjoins : b.Joins g m)
    (hreceived : g.retryReceived = false) (effects : List Effect)
    (h : P ({ s with bridge := b }.flow g m).wake) : s.Leaves P (b.sendOwedRetry.after effects) := by
  obtain ⟨hstate, hanswer⟩ := Bridge.sendOwedRetry_of_bound hjoins.initiator
  refine ⟨hanswer, g.woken b.front.retry, m, ?_, ?_⟩
  · rw [Outcome.after, hstate]
    exact hjoins.wake
  · rw [Outcome.after, hstate]
    exact { s with bridge := b }.flow_wake g m hreceived ▸ h

/-! ### Requests leave -/

theorem queued_flow {head : Deferred} {rest : List Deferred}
    (h : s.bridge.back.requests.entries = head :: rest) (g : Generator) (m : Memory) :
    (s.flow g m).queued =
      head.packet.ticket :: (rest.map Deferred.packet).map Packet.ticket := by
  simp only [flow, TransmitQueue.packets, h, List.map_cons]

/-- The head of the requests is offered to the memory, unless it may not leave yet. -/
theorem leaves_trySendRequest (hjoins : s.bridge.Joins g m) (hquiet : Quiet g m) {first : Deferred}
    {others : List Deferred} (hentries : s.bridge.back.requests.entries = first :: others) :
    s.Leaves (fun v => (s.flow g m).Offers v ∨ s.now < first.ready ∧ v = s.flow g m)
      (s.bridge.trySendRequest s.now) := by
  have hend := s.bridge.requestSending_trySendRequest s.now
  generalize s.bridge.trySendRequest s.now = called at hend ⊢
  cases hend with
  | unbound hagent => simp [hjoins.target] at hagent
  | empty hagent h => simp [hentries] at h
  | early hagent h hearly =>
    obtain rfl := Option.some.inj (hagent.symm.trans hjoins.target)
    obtain ⟨rfl, rfl⟩ := List.cons.inj (h.symm.trans hentries)
    refine ⟨rfl, g, _, ⟨hjoins.initiator, rfl, hjoins.keen, hjoins.stalled⟩, .inr ⟨hearly, ?_⟩⟩
    simp only [flow, Bridge.setBack, TransmitQueue.packets, TransmitQueue.state_arm, now]
  | @refused agent agent' head rest packet hagent h hdue hoffer =>
    obtain rfl := Option.some.inj (hagent.symm.trans hjoins.target)
    obtain ⟨hrefuses, rfl, rfl⟩ := Memory.refuses_of_offer_refused hoffer
    refine ⟨rfl, g, _, ⟨hjoins.initiator, rfl, hjoins.keen, hjoins.stalled⟩, .inl ?_⟩
    convert Flow.Offers.refused (queued_flow h g agent) hrefuses using 1
    simp [flow, Bridge.setBack, TransmitQueue.packets, h, now, hquiet.owesRetry]
  | @taken agent agent' head rest hagent h hdue hoffer =>
    obtain rfl := Option.some.inj (hagent.symm.trans hjoins.target)
    obtain ⟨htakes, hagent'⟩ := Memory.takes_of_offer_accepted hoffer
    refine leaves_sendOwedRetry (m := agent') ?_ hquiet.retryReceived _ ?_
    · exact ⟨hjoins.initiator, rfl, hjoins.keen, hjoins.stalled⟩
    · left
      convert Flow.Offers.taken (queued_flow h g agent) htakes using 2
      rw [hagent']
      simp [flow, Bridge.setBack, TransmitQueue.packets, TransmitQueue.entries_armForHead,
        TransmitQueue.awaitingRetry_armForHead, now, Nat.add_assoc]

theorem leaves_requestAttempt (hjoins : s.bridge.Joins g m) (hquiet : Quiet g m) {first : Deferred}
    {others : List Deferred} (hentries : s.bridge.back.requests.entries = first :: others) :
    s.Leaves (fun v => (s.flow g m).Offers v ∨ s.now < first.ready ∧ v = s.flow g m)
      (s.bridge.requestAttempt s.now) :=
  leaves_trySendRequest
    (s := { s with bridge := s.bridge.setQueue s.bridge.back.requests.attemptDue .request })
    ⟨hjoins.initiator, hjoins.target, hjoins.keen, hjoins.stalled⟩ hquiet hentries

theorem carried_sendRequest (h : s.Running g m)
    (hpop : s.agenda.pop? = some (tick, .send .request, agenda)) :
    Carried (fun v => (s.flow g m).Step v ∧ (s.flow g m).Tends v)
      ({ s with agenda }.dispatch (.send .request)) := by
  obtain ⟨hdriven, hjoins, hquiet, -, -⟩ := h
  obtain ⟨hawaiting, head, rest, hentries, hready⟩ := hdriven.due hpop
  obtain ⟨-, -, hnow, -⟩ := Agenda.pending_of_pop hpop
  have hleaves := leaves_requestAttempt (s := { s with agenda }) hjoins hquiet hentries
  refine (hleaves.finish (hdriven.attempt hpop (makes_of_answering rfl hleaves.1))).mono fun v hv => ?_
  rw [flow_pop_send hpop hquiet] at hv
  rcases hv with hoffers | ⟨hearly, -⟩
  · obtain ⟨hpending, harmed, htold⟩ := hoffers.tends
    exact ⟨.offered tick hawaiting hoffers, hpending, harmed, htold⟩
  · exact absurd hready (UInt64.not_le.2 (hnow ▸ hearly))

/-! ### Responses leave -/

/-- The head of the responses goes to the generator, which takes it. -/
theorem leaves_trySendResponse (hjoins : s.bridge.Joins g m) (hquiet : Quiet g m)
    (hsound : s.bridge.ledger.Sound) {first : Deferred} {others : List Deferred}
    (hentries : s.bridge.front.responses.entries = first :: others) (hready : first.ready ≤ s.now) :
    s.Leaves (fun v => v = { s.flow g m with returning := others.length }.wake ∨
        v = { s.flow g m with returning := others.length })
      (s.bridge.trySendResponse s.now) := by
  have hend := s.bridge.responseSending_trySendResponse s.now
  generalize s.bridge.trySendResponse s.now = called at hend ⊢
  cases hend with
  | unbound hagent => simp [hjoins.initiator] at hagent
  | empty hagent h => simp [hentries] at h
  | early hagent h hearly =>
    obtain ⟨rfl, rfl⟩ := List.cons.inj (h.symm.trans hentries)
    exact absurd hready (UInt64.not_le.2 hearly)
  | refused hagent h hdue hoffer => simp [Initiator.offerResponse] at hoffer
  | unreserved hagent h hdue hoffer hreserved =>
    have hresponses : s.bridge.ledger.responses = others.length + 1 := congrArg List.length hentries
    have hbalance := hsound.balanced.balance
    rw [show s.bridge.ledger.reserved = 0 from hreserved] at hbalance
    omega
  | @takenFull agent agent' head rest reserved hagent h hdue hoffer hreserved =>
    obtain ⟨rfl, rfl⟩ := List.cons.inj (h.symm.trans hentries)
    obtain rfl := Option.some.inj (hagent.symm.trans hjoins.initiator)
    obtain ⟨rfl, -⟩ := Prod.mk.inj hoffer
    refine ⟨rfl, _, m, ⟨rfl, hjoins.target, ?_, hjoins.stalled⟩, .inr ?_⟩
    · simp only [Bridge.releaseSlot, Bridge.setFront, TransmitQueue.awaitingRetry_armForHead]
      exact hjoins.keen
    · simp only [flow, Bridge.releaseSlot, Bridge.setFront, TransmitQueue.size,
        TransmitQueue.entries_armForHead, now]
  | @taken agent agent' head rest reserved hagent h hdue hoffer hreserved =>
    obtain ⟨rfl, rfl⟩ := List.cons.inj (h.symm.trans hentries)
    obtain rfl := Option.some.inj (hagent.symm.trans hjoins.initiator)
    obtain ⟨hagent', -⟩ := Prod.mk.inj hoffer
    refine leaves_sendOwedRetry (g := agent') (m := m) ?_ ?_ _ ?_
    · subst hagent'
      refine ⟨rfl, hjoins.target, ?_, hjoins.stalled⟩
      simp only [Bridge.releaseSlot, Bridge.setFront, TransmitQueue.awaitingRetry_armForHead]
      exact hjoins.keen
    · subst hagent'
      exact hquiet.retryReceived
    · left
      subst hagent'
      simp only [flow, Bridge.releaseSlot, Bridge.setFront, TransmitQueue.size,
        TransmitQueue.entries_armForHead, now]

theorem leaves_responseAttempt (hjoins : s.bridge.Joins g m) (hquiet : Quiet g m)
    (hsound : s.bridge.ledger.Sound) {first : Deferred} {others : List Deferred}
    (hentries : s.bridge.front.responses.entries = first :: others) (hready : first.ready ≤ s.now) :
    s.Leaves (fun v => v = { s.flow g m with returning := others.length }.wake ∨
        v = { s.flow g m with returning := others.length })
      (s.bridge.responseAttempt s.now) :=
  leaves_trySendResponse
    (s := { s with bridge := s.bridge.setQueue s.bridge.front.responses.attemptDue .response })
    ⟨hjoins.initiator, hjoins.target, hjoins.keen, hjoins.stalled⟩ hquiet hsound hentries hready

theorem carried_sendResponse (h : s.Running g m)
    (hpop : s.agenda.pop? = some (tick, .send .response, agenda)) :
    Carried (fun v => (s.flow g m).Step v ∧ (s.flow g m).Tends v)
      ({ s with agenda }.dispatch (.send .response)) := by
  obtain ⟨hdriven, hjoins, hquiet, -, -⟩ := h
  obtain ⟨-, head, rest, hentries, hready⟩ := hdriven.due hpop
  obtain ⟨-, -, hnow, -⟩ := Agenda.pending_of_pop hpop
  have hreturning : (s.flow g m).returning = rest.length + 1 := congrArg List.length hentries
  have hleaves := leaves_responseAttempt (s := { s with agenda }) hjoins hquiet hdriven.sound hentries
    (show head.ready ≤ agenda.now from hnow ▸ hready)
  refine (hleaves.finish (hdriven.attempt hpop (makes_of_answering rfl hleaves.1))).mono fun v hv => ?_
  rw [flow_pop_send hpop hquiet] at hv
  rcases hv with rfl | rfl
  · exact ⟨.returned tick hreturning, rfl, rfl, (Flow.tends_wake _).told⟩
  · exact ⟨.returnedFull tick hreturning, rfl, rfl, .inl ⟨rfl, rfl⟩⟩

/-! ### The memory wants the head again -/

theorem requestRetry_of_awaiting (h : s.bridge.back.requests.awaitingRetry = true) :
    s.bridge.requestRetry s.now =
      (s.bridge.setQueue { s.bridge.back.requests with awaitingRetry := false }
        .request).trySendRequest s.now := by
  rw [Bridge.requestRetry, TransmitQueue.takeRetry, if_pos h]
  rfl

theorem leaves_requestRetry (hjoins : s.bridge.Joins g m) (hquiet : Quiet g m) {first : Deferred}
    {others : List Deferred} (hentries : s.bridge.back.requests.entries = first :: others)
    (hawaiting : s.bridge.back.requests.awaitingRetry = true) :
    s.Leaves (fun v => { s.flow g m with awaiting := false }.Offers v ∨
        s.now < first.ready ∧ v = { s.flow g m with awaiting := false })
      (s.bridge.requestRetry s.now) := by
  rw [requestRetry_of_awaiting hawaiting]
  exact leaves_trySendRequest
    (s := { s with
      bridge := s.bridge.setQueue { s.bridge.back.requests with awaitingRetry := false } .request })
    ⟨hjoins.initiator, hjoins.target, hjoins.keen, hjoins.stalled⟩ hquiet hentries

theorem carried_memoryRetry (h : s.Running g m)
    (hpop : s.agenda.pop? = some (tick, .memoryRetry, agenda)) :
    Carried (fun v => (s.flow g m).Step v ∧ (s.flow g m).Tends v)
      ({ s with agenda }.dispatch .memoryRetry) := by
  obtain ⟨hdriven, hjoins, hquiet, -, hsettled⟩ := h
  obtain ⟨retries, hretries, hflow⟩ := flow_pop_memoryRetry hpop hquiet
  have hawaiting : s.bridge.back.requests.awaitingRetry = true := by
    have howed : retries + 1 = s.bridge.back.requests.awaitingRetry.toNat :=
      hretries.symm.trans hsettled.served.retries
    cases hflag : s.bridge.back.requests.awaitingRetry with
    | true => rfl
    | false => simp [hflag] at howed
  have hpopped := hdriven.popped hpop (by simp)
  obtain ⟨first, others, hentries⟩ : ∃ first others,
      s.bridge.back.requests.entries = first :: others := by
    refine List.exists_cons_of_ne_nil fun hnil => ?_
    have hidle := ((hdriven.tended.awake .request).idle hnil).2
    exact Bool.false_ne_true (hidle.symm.trans hawaiting)
  have hleaves := leaves_requestRetry (s := { s with agenda }) hjoins hquiet hentries hawaiting
  have hmakes : { s with agenda }.Makes (.retry .request) (s.bridge.requestRetry agenda.now) :=
    makes_of_answering rfl hleaves.1
  refine (hleaves.finish (hpopped.adopt hmakes (by simp))).mono fun v hv => ?_
  rw [hflow] at hv
  rcases hv with hoffers | ⟨-, rfl⟩
  · obtain ⟨hpending, harmed, htold⟩ := hoffers.tends
    exact ⟨.retried tick hretries hoffers, hpending, harmed, htold⟩
  · exact ⟨.retriedEarly tick hretries, rfl, rfl, .inl ⟨rfl, rfl⟩⟩

/-! ### The memory completes a request -/

/-- The memory after it has completed its oldest request. -/
theorem completeNext_cons {p : Packet} {rest : List Packet} (h : m.inService = p :: rest) :
    m.completeNext =
      (if p.expectsResponse then some ({ m with inService := rest }.perform p).2 else none,
        ({ m with inService := rest }.perform p).1) := by
  rw [Memory.completeNext, h]

theorem flow_withMemory (s : Simulation) (g : Generator) {m m' : Memory} {rest : List Packet}
    {bytes : Std.HashMap Address UInt8} (h : m' = { m with inService := rest, bytes }) :
    (s.withMemory m').flow g m' = { s.flow g m with inService := rest.map Packet.ticket } := by
  rw [h]
  rfl

/-- The response to the oldest request in service finds its request waiting, and room. -/
theorem leaves_respond (hjoins : s.bridge.Joins g m) (hsound : s.bridge.ledger.Sound) {p : Packet}
    (hwaiting : p.id ∈ s.bridge.table.entries.map Prod.fst) :
    s.Leaves (fun v => v = { s.flow g m with
        waiting := (s.flow g m).waiting.filter (· != p.id)
        returning := (s.flow g m).returning + 1 })
      (s.bridge.respond s.now p) := by
  have hroom := Bridge.hasReplyRoom_of_balanced hsound.balanced
  have hend := s.bridge.reception_respond s.now p
  generalize s.bridge.respond s.now p = called at hend ⊢
  cases hend with
  | unknown hunknown =>
    have hcontains := RequestTable.contains_iff_mem.2 hwaiting
    rw [RequestTable.contains, hunknown] at hcontains
    contradiction
  | overflow htake hfull => exact absurd (hroom _ _ _ htake) (Nat.not_lt.2 hfull)
  | @queued route table htake hspace =>
    have hsize : ∀ now, (s.bridge.pushResponse now p route).state.size =
        s.bridge.front.responses.size + 1 :=
      fun _ => TransmitQueue.size_push _ _ hspace
    refine ⟨rfl, g, m, ⟨hjoins.initiator, hjoins.target, ?_, hjoins.stalled⟩, ?_⟩
    · exact (TransmitQueue.awaitingRetry_push _ _ hspace).trans hjoins.keen
    · simp only [flow, hsize, RequestTable.ids_take htake, now]

theorem carried_complete (h : s.Running g m)
    (hpop : s.agenda.pop? = some (tick, .complete, agenda)) :
    Carried (fun v => (s.flow g m).Step v ∧ (s.flow g m).Tends v)
      ({ s with agenda }.dispatch .complete) := by
  obtain ⟨hdriven, hjoins, hquiet, hconsistent, hsettled⟩ := h
  obtain ⟨completions, hcompletions, hflow⟩ := flow_pop_complete hpop hquiet
  obtain ⟨p, rest, hservice⟩ : ∃ p rest, m.inService = p :: rest := by
    refine List.exists_cons_of_ne_nil fun hnil => ?_
    have hcount := hsettled.served.completions
    rw [hcompletions] at hcount
    simp [flow, hnil] at hcount
  have hinService : (s.flow g m).inService = p.ticket :: rest.map Packet.ticket :=
    congrArg (List.map Packet.ticket) hservice
  have hmemory : { s with agenda }.memory = .ok m := by
    simp only [memory, hjoins.target]
  -- The memory performs the access, which changes only bytes, and keeps the identity.
  obtain ⟨⟨m', answered⟩, hperform⟩ : ∃ done, { m with inService := rest }.perform p = done := ⟨_, rfl⟩
  have hm' : m' = { m with inService := rest, bytes := m'.bytes } := by
    have heq := { m with inService := rest }.perform_eq p
    rwa [hperform] at heq
  have hid : answered.id = p.id := by
    have heq := { m with inService := rest }.id_perform p
    rwa [hperform] at heq
  have hdriven' : ({ s with agenda }.withMemory m').Driven :=
    (hdriven.popped hpop (by simp)).withMemory m'
  have hjoins' : ({ s with agenda }.withMemory m').bridge.Joins g m' :=
    ⟨hjoins.initiator, rfl, hjoins.keen, hjoins.stalled⟩
  have hflow' := { s with agenda }.flow_withMemory g hm'
  rw [hflow] at hflow'
  simp only [dispatch, completeOldest, hmemory, completeNext_cons hservice, hperform]
  cases hexpects : p.expectsResponse with
  | false =>
    refine ⟨_, g, m', rfl, hdriven', hjoins', ?_⟩
    rw [hflow']
    exact ⟨.performed tick hcompletions hinService hexpects, rfl, rfl, .inl ⟨rfl, rfl⟩⟩
  | true =>
    have hwaiting : answered.id ∈ s.bridge.table.entries.map Prod.fst := by
      have hmem :
          p.ticket ∈ ((s.flow g m).inService ++ (s.flow g m).queued).filter Ticket.answered := by
        rw [hinService]
        exact List.mem_filter.2 ⟨List.mem_cons_self, hexpects⟩
      have hticket := List.mem_map_of_mem (f := Ticket.id) hmem
      rw [← hconsistent.waiting] at hticket
      exact hid ▸ hticket
    have hleaves := leaves_respond hjoins' hdriven'.sound hwaiting
    have hmakes : ({ s with agenda }.withMemory m').Makes (.respond answered)
        (({ s with agenda }.withMemory m').bridge.respond agenda.now answered) :=
      makes_of_answering rfl hleaves.1
    refine (hleaves.finish (hdriven'.adopt hmakes (by simp))).mono fun v hv => ?_
    rw [hflow', hid] at hv
    rw [hv]
    exact ⟨.answered tick hcompletions hinService hexpects, rfl, rfl, .inl ⟨rfl, rfl⟩⟩

end Simulation

end TimedBridge
