import TimedBridge.Proofs.Bridge.Settings
import TimedBridge.Proofs.Clock
import TimedBridge.Proofs.Simulation.Reckoning

/-!
A simulation of one timed access that will be answered. At each stage of its way one event is to come
(`Alone`): it is let in when it is due, the memory takes it when it has crossed, performs it after its
latency, and the response comes back when it has crossed (`exists_alone_after`). Nothing is ever in its
way.
-/

namespace TimedBridge

/-! ### A bridge with a single packet in it -/

namespace Bridge

variable {b : Bridge Generator Memory} {c : BridgeConfig} {g : Generator} {m : Memory} {now : Tick}
  {p : Packet} {e : Deferred} {table : RequestTable}

/-- The bridge between the given agents with the given packets waiting, an attempt scheduled for each
direction in which one does. -/
def loaded (b : Bridge Generator Memory) (c : BridgeConfig) (g : Generator) (m : Memory)
    (requests responses : List Deferred) (table : RequestTable) (reserved : Nat) :
    Bridge Generator Memory :=
  { b with
    front := { b.front with
      agent := some g
      responses := {
        direction := .response
        capacity := c.responseCapacity.toNat
        entries := responses
        sendScheduled := !responses.isEmpty }
      reserved
      retry := .idle }
    back := { b.back with
      agent := some m
      requests := {
        direction := .request
        capacity := c.requestCapacity.toNat
        entries := requests
        sendScheduled := !requests.isEmpty } }
    table }

theorem submit_loaded (valid : c.validate = .ok ()) (htag : p.tag = none)
    (hexpects : p.expectsResponse = true) :
    (b.loaded c g m [] [] {} 0).submit now p =
      ⟨b.loaded c g m [⟨b.front.crossing.charge (b.tagged p), b.front.crossing.readyAt now⟩] []
          { entries := [(p.id, p.source)] } 1,
        [.askSend .request (b.front.crossing.readyAt now)], .ok .accepted⟩ := by
  obtain ⟨hrequests, hresponses⟩ := c.capacity_pos valid
  have hroom : (b.loaded c g m [] [] {} 0).HasRoom p := ⟨hrequests, fun _ => hresponses⟩
  have hsave : (if p.expectsResponse then RequestTable.save {} p.id p.source else .ok {}) =
      .ok { entries := [(p.id, p.source)] } := by
    rw [if_pos hexpects]
    rfl
  have hend := submission_submit (b.loaded c g m [] [] {} 0) now p
  generalize (b.loaded c g m [] [] {} 0).submit now p = called at hend ⊢
  cases hend with
  | early => contradiction
  | refused _ hfull => exact absurd hroom hfull
  | alreadyTagged _ _ htagged => cases htag.symm.trans htagged
  | duplicate => contradiction
  | accepted _ _ _ hsaved =>
    cases hsave.symm.trans hsaved
    rw [if_pos hexpects, pushRequest, TransmitQueue.push_of_room _ _ hroom.1]
    rfl

theorem attempt_request_loaded (hdue : e.ready ≤ now)
    (htakes : ¬ Memory.Refuses m.refuseEvery (m.offered + 1)) :
    (b.loaded c g m [e] [] table 1).attempt now .request =
      ⟨b.loaded c g (m.offer e.packet).1 [] [] table 1, [.offer .request e.packet true], .ok ()⟩ := by
  have hoffer : Target.offerRequest m e.packet = ((m.offer e.packet).1, .accepted) := by
    rw [Memory.offer_of_takes htakes]
    exact Memory.offer_of_takes htakes
  simp [attempt, requestAttempt, trySendRequest, loaded, TransmitQueue.trySend,
    TransmitQueue.attemptDue, TransmitQueue.armForHead, UInt64.not_lt.2 hdue, hoffer, sendOwedRetry,
    Outcome.after]

theorem respond_loaded (valid : c.validate = .ok ()) {route : Route} :
    (b.loaded c g m [] [] { entries := [(p.id, route)] } 1).respond now p =
      ⟨b.loaded c g m []
          [⟨{ b.back.crossing.charge p with destination := some route }, b.back.crossing.readyAt now⟩]
          {} 1,
        [.askSend .response (b.back.crossing.readyAt now)], .ok ()⟩ := by
  obtain ⟨-, hresponses⟩ := c.capacity_pos valid
  simp [respond, queueResponse, loaded, RequestTable.take, RequestTable.route?, Crossing.id_charge,
    TransmitQueue.push, TransmitQueue.isFull, TransmitQueue.size, TransmitQueue.isEmpty,
    TransmitQueue.arm, Nat.pos_iff_ne_zero.1 hresponses]

theorem attempt_response_loaded (valid : c.validate = .ok ()) (hdue : e.ready ≤ now) :
    (b.loaded c g m [] [e] table 1).attempt now .response =
      ⟨b.loaded c { g with responses := g.responses ++ [e.packet] } m [] [] table 0,
        [.offer .response e.packet true], .ok ()⟩ := by
  obtain ⟨hrequests, -⟩ := c.capacity_pos valid
  simp [attempt, responseAttempt, trySendResponse, loaded, TransmitQueue.trySend,
    TransmitQueue.attemptDue, TransmitQueue.armForHead, UInt64.not_lt.2 hdue, Initiator.offerResponse,
    sendOwedRetry, Outcome.after, TransmitQueue.isFull, TransmitQueue.size,
    Nat.pos_iff_ne_zero.1 hrequests]

end Bridge

/-! ### One event to come -/

namespace Simulation

variable {s : Simulation} {now tick : Tick} {event : SimEvent} {next : Option (SimEvent × Tick)}
  {bridge : Bridge Generator Memory} {issuedAt : List (RequestId × Tick)} {report : Report}

/-- A simulation in which at most one event is to come. -/
structure Alone (s : Simulation) (now : Tick) (next : Option (SimEvent × Tick))
    (bridge : Bridge Generator Memory) (issuedAt : List (RequestId × Tick)) (report : Report) :
    Prop where
  now : s.now = now
  pending : s.agenda.pending.map (fun e => (e.event, e.due)) = next.toList
  bridge : s.bridge = bridge
  issuedAt : s.issuedAt = issuedAt
  report : s.report = report

theorem Alone.withBridge (h : s.Alone now next bridge issuedAt report)
    (bridge' : Bridge Generator Memory) :
    { s with bridge := bridge' }.Alone now next bridge' issuedAt report :=
  ⟨h.now, h.pending, rfl, h.issuedAt, h.report⟩

theorem Alone.schedule (h : s.Alone now none bridge issuedAt report) (hlater : now ≤ tick)
    (event : SimEvent) :
    (s.schedule event tick).Alone now (some (event, tick)) bridge issuedAt report := by
  have hnil : s.agenda.pending = [] := List.map_eq_nil_iff.1 h.pending
  have hmax : max tick s.agenda.now = tick := max_eq_of_le (h.now ▸ hlater : s.now ≤ tick)
  refine ⟨h.now, ?_, h.bridge, h.issuedAt, h.report⟩
  simp only [Simulation.schedule, Agenda.schedule, hnil, hmax]
  rfl

/-- A call that asks for nothing leaves nothing to come. -/
theorem Alone.adopt (h : s.Alone now none bridge issuedAt report) {α : Type}
    {o : Outcome (Bridge Generator Memory) α} (hasked : Effect.asked o.effects = []) :
    (s.adopt o).Alone now none o.state issuedAt report := by
  rw [Simulation.adopt, scheduleAsked, hasked]
  exact h.withBridge o.state

/-- A call that asks for an attempt has it to come. -/
theorem Alone.adopt_asked (h : s.Alone now none bridge issuedAt report) {α : Type}
    {o : Outcome (Bridge Generator Memory) α} {d : Direction}
    (hasked : Effect.asked o.effects = [(tick, d)]) (hlater : now ≤ tick) :
    (s.adopt o).Alone now (some (.send d, tick)) o.state issuedAt report := by
  rw [Simulation.adopt, scheduleAsked, hasked]
  exact (h.withBridge o.state).schedule hlater (.send d)

theorem Alone.popped (h : s.Alone now (some (event, tick)) bridge issuedAt report) :
    ∃ agenda, s.agenda.pop? = some (tick, event, agenda) ∧
      { s with agenda }.Alone tick none bridge issuedAt report := by
  cases hpop : s.agenda.pop? with
  | none =>
    have hpending := h.pending
    rw [Agenda.pending_of_pop_none hpop] at hpending
    contradiction
  | some popped =>
    obtain ⟨tick', event', agenda⟩ := popped
    obtain ⟨serial, hpending, hnow, -⟩ := Agenda.pending_of_pop hpop
    have honly := h.pending
    rw [hpending, List.map_cons] at honly
    obtain ⟨hentry, hrest⟩ := List.cons.inj honly
    cases hentry
    exact ⟨agenda, rfl, hnow, hrest, h.bridge, h.issuedAt, h.report⟩

theorem Alone.pop_none (h : s.Alone now none bridge issuedAt report) : s.agenda.pop? = none := by
  cases hpop : s.agenda.pop? with
  | none => rfl
  | some popped =>
    obtain ⟨tick, event, agenda⟩ := popped
    obtain ⟨serial, hpending, -⟩ := Agenda.pending_of_pop hpop
    have hnothing := h.pending
    rw [hpending] at hnothing
    contradiction

/-- The event that is to come, and looking after the agents, make a step. -/
theorem Alone.step {next' : Option (SimEvent × Tick)} {bridge' : Bridge Generator Memory}
    {issuedAt' : List (RequestId × Tick)} {report' : Report}
    (h : s.Alone now (some (event, tick)) bridge issuedAt report)
    (hevent : ∀ t : Simulation, t.Alone tick none bridge issuedAt report →
      ∃ t₁ t', t.dispatch event = (t₁, .ok ()) ∧ t₁.lookAfter = (t', .ok ()) ∧
        t'.Alone tick next' bridge' issuedAt' report') :
    s.step.1.Alone tick next' bridge' issuedAt' report' := by
  obtain ⟨agenda, hpop, hpopped⟩ := h.popped
  obtain ⟨t₁, t', hdispatch, hlooked, halone⟩ := hevent { s with agenda } hpopped
  simp only [Simulation.step, hpop, hdispatch, hlooked]
  exact halone

/-! ### Looking after the agents -/

variable {g : Generator} {m : Memory}

/-- With no retry owed or received, looking after the agents schedules completions and counts
responses. -/
theorem lookAfter_of_no_retry (hinitiator : s.bridge.front.agent = some g)
    (htarget : s.bridge.back.agent = some m) (howed : m.owesRetry = false)
    (hreceived : g.retryReceived = false) :
    s.lookAfter =
      (g.responses.foldl countResponse
        (((List.range m.newlyAccepted).foldl
          (fun t _ => t.schedule .complete (cappedAdd s.now m.latency))
            (s.withMemory m.rested)).withGenerator g.rested), .ok ()) := by
  have hbridge := bridge_schedules (s.withMemory m.rested) (List.range m.newlyAccepted) .complete
    (cappedAdd s.now m.latency)
  rw [lookAfter, lookAfterMemory_of_bound (memory_of_bound htarget) rfl, howed]
  simp only [Bool.false_eq_true, if_false]
  rw [lookAfterGenerator_of_bound (generator_of_bound (by rw [hbridge]; exact hinitiator)) rfl,
    hreceived]
  rfl

/-! ### The stages -/

variable {b : Bridge Generator Memory} {c : BridgeConfig} {i : Issue} {e : Deferred} {p : Packet}
  {table : RequestTable} {reserved : Nat} {requests responses : List Deferred}
  {ranges : List AddressRange}

theorem Alone.initiator (h : s.Alone now next (b.loaded c g m requests responses table reserved)
    issuedAt report) : s.bridge.front.agent = some g := by
  rw [h.bridge]
  rfl

theorem Alone.target (h : s.Alone now next (b.loaded c g m requests responses table reserved)
    issuedAt report) : s.bridge.back.agent = some m := by
  rw [h.bridge]
  rfl

theorem Alone.withGenerator
    (h : s.Alone now next (b.loaded c g m requests responses table reserved) issuedAt report)
    (g' : Generator) :
    (s.withGenerator g').Alone now next (b.loaded c g' m requests responses table reserved) issuedAt
      report := by
  refine ⟨h.now, h.pending, ?_, h.issuedAt, h.report⟩
  rw [Simulation.withGenerator, h.bridge]
  rfl

theorem Alone.withMemory
    (h : s.Alone now next (b.loaded c g m requests responses table reserved) issuedAt report)
    (m' : Memory) :
    (s.withMemory m').Alone now next (b.loaded c g m' requests responses table reserved) issuedAt
      report := by
  refine ⟨h.now, h.pending, ?_, h.issuedAt, h.report⟩
  rw [Simulation.withMemory, h.bridge]
  rfl

/-- Looking after a generator that has got nothing and a memory that has taken nothing changes
nothing. -/
theorem Alone.lookAfter (hm : m.rested = m)
    (h : s.Alone now next (b.loaded c { ranges } m requests responses table reserved) issuedAt report) :
    s.lookAfter = (s, .ok ()) := by
  have hbridge : (s.bridge.withTarget m).withInitiator { ranges } = s.bridge := by
    rw [h.bridge]
    rfl
  have hnone : m.newlyAccepted = 0 := (congrArg Memory.newlyAccepted hm).symm
  rw [lookAfter_of_no_retry h.initiator h.target (congrArg Memory.owesRetry hm).symm rfl, hnone, hm]
  exact congrArg (fun bridge => ({ s with bridge }, Except.ok ())) hbridge

theorem Alone.issueOne (valid : c.validate = .ok ()) (hmode : i.mode = .timing)
    (htag : i.packet.tag = none) (hexpects : i.packet.expectsResponse = true)
    (hcovers : b.front.ranges.any (·.covers i.packet.footprint) = true)
    (h : s.Alone now none (b.loaded c g m [] [] {} 0) [] report) :
    ∃ s', s.issueOne i = (s', .ok ()) ∧
      s'.Alone now (some (.send .request, b.front.crossing.readyAt now))
        (b.loaded c g m [⟨b.front.crossing.charge (b.tagged i.packet), b.front.crossing.readyAt now⟩] []
          { entries := [(i.packet.id, i.packet.source)] } 1)
        [(i.packet.id, now)] { report with issued := report.issued + 1 } := by
  have hroutable : s.routable i.packet = true := by
    rw [routable, h.bridge]
    exact hcovers
  have hcalled : s.bridge.submit s.now i.packet =
      ⟨b.loaded c g m [⟨b.front.crossing.charge (b.tagged i.packet), b.front.crossing.readyAt now⟩] []
          { entries := [(i.packet.id, i.packet.source)] } 1,
        [.askSend .request (b.front.crossing.readyAt now)], .ok .accepted⟩ := by
    rw [h.bridge, h.now]
    exact Bridge.submit_loaded valid htag hexpects
  have hadopted := h.adopt_asked (o := s.bridge.submit s.now i.packet)
    (by rw [hcalled]; rfl) (Clock.le_edgeAfter ..)
  rw [hcalled] at hadopted
  rw [Simulation.issueOne, if_pos hroutable, hmode]
  dsimp only
  rw [issueTimed]
  simp only [hcalled, hexpects, if_true]
  refine ⟨_, rfl, hadopted.now, hadopted.pending, hadopted.bridge, ?_, ?_⟩
  · exact congrArg₂ (fun known now => known ++ [(i.packet.id, now)]) hadopted.issuedAt h.now
  · exact congrArg (fun report => { report with issued := report.issued + 1 }) hadopted.report

/-- The access is let in when it comes due. -/
theorem Alone.issued (valid : c.validate = .ok ()) (hm : m.rested = m) (hmode : i.mode = .timing)
    (htag : i.packet.tag = none) (hexpects : i.packet.expectsResponse = true)
    (hcovers : b.front.ranges.any (·.covers i.packet.footprint) = true)
    (h : s.Alone now (some (.issue, i.tick)) (b.loaded c { pending := [i], ranges } m [] [] {} 0) []
      report) :
    ∃ e : Deferred, e.packet.expectsResponse = true ∧ e.ready = b.front.crossing.readyAt i.tick ∧
      s.step.1.Alone i.tick (some (.send .request, e.ready))
        (b.loaded c { ranges } m [e] [] { entries := [(e.packet.id, i.packet.source)] } 1)
        [(e.packet.id, i.tick)] { report with issued := report.issued + 1 } := by
  have hid : (b.front.crossing.charge (b.tagged i.packet)).id = i.packet.id :=
    b.front.crossing.id_charge _
  refine ⟨⟨b.front.crossing.charge (b.tagged i.packet), b.front.crossing.readyAt i.tick⟩,
    (b.front.crossing.expectsResponse_charge _).trans hexpects, rfl, h.step fun t ht => ?_⟩
  have hdisarmed : t.disarmed.Alone i.tick none
      (b.loaded c { pending := [i], ranges } m [] [] {} 0) [] report := by
    rw [disarmed]
    split
    next => exact ⟨ht.now, ht.pending, ht.bridge, ht.issuedAt, ht.report⟩
    next => exact ht
  have hretry : t.disarmed.bridge.front.retry = .idle := by
    rw [hdisarmed.bridge]
    rfl
  have hnext : Generator.nextDue? { pending := [i], ranges } t.disarmed.now = some (i, { ranges }) := by
    rw [hdisarmed.now]
    exact if_pos (UInt64.le_refl _)
  obtain ⟨t', hone, halone⟩ :=
    (hdisarmed.withGenerator { ranges }).issueOne valid hmode htag hexpects hcovers
  have hdue : t.disarmed.issueDue 1 = (t', .ok ()) := by
    simp only [issueDue, hretry, generator_disarmed ht.initiator, hnext, hone]
  dsimp only
  rw [hid]
  refine ⟨t', t', ?_, halone.lookAfter hm, halone⟩
  rw [dispatch, issue_of_due ht.initiator hdue, armIssue, generator_of_bound halone.initiator]
  rfl

/-- The memory takes the request when it has crossed. -/
theorem Alone.taken (htakes : ¬ Memory.Refuses m.refuseEvery (m.offered + 1)) (hm : m.rested = m)
    (hservice : m.inService = [])
    (h : s.Alone now (some (.send .request, e.ready)) (b.loaded c { ranges } m [e] [] table 1)
      issuedAt report) :
    ∃ m', m'.rested = m' ∧ m'.inService = [e.packet] ∧
      s.step.1.Alone e.ready (some (.complete, cappedAdd e.ready m.latency))
        (b.loaded c { ranges } m' [] [] table 1) issuedAt report := by
  have hoffer := Memory.offer_of_takes (p := e.packet) htakes
  obtain ⟨m', hm'⟩ : ∃ m', m' = (m.offer e.packet).1 := ⟨_, rfl⟩
  have hnewly : m'.newlyAccepted = 1 := by
    rw [hm', hoffer]
    exact congrArg (· + 1) (congrArg Memory.newlyAccepted hm).symm
  have howed : m'.owesRetry = false := by
    rw [hm', hoffer]
    exact (congrArg Memory.owesRetry hm).symm
  have hlatency : m'.latency = m.latency := by rw [hm', hoffer]
  have hservice' : m'.rested.inService = [e.packet] := by
    rw [hm', hoffer]
    exact congrArg (· ++ [e.packet]) hservice
  refine ⟨m'.rested, rfl, hservice', h.step fun t ht => ?_⟩
  have hcalled : t.bridge.attempt t.now .request =
      ⟨b.loaded c { ranges } m' [] [] table 1, [.offer .request e.packet true], .ok ()⟩ := by
    rw [ht.bridge, ht.now, hm']
    exact Bridge.attempt_request_loaded (UInt64.le_refl _) htakes
  have hadopted := ht.adopt (o := t.bridge.attempt t.now .request) (by rw [hcalled]; rfl)
  rw [hcalled] at hadopted
  have hlooked := lookAfter_of_no_retry hadopted.initiator hadopted.target howed rfl
  rw [hnewly, hlatency, hadopted.now] at hlooked
  refine ⟨_, _, ?_, hlooked, ?_⟩
  · rw [dispatch, finish, hcalled]
    rfl
  · exact ((hadopted.withMemory _).schedule (le_cappedAdd ..) .complete).withGenerator { ranges }

theorem rested_perform (hm : m.rested = m) (p : Packet) :
    (m.perform p).1.rested = (m.perform p).1 := by
  rw [Memory.perform_eq]
  generalize (m.perform p).1.bytes = bytes
  exact congrArg (fun m : Memory => { m with bytes }) hm

/-- The memory performs the request after its latency, and answers. -/
theorem Alone.performed (valid : c.validate = .ok ()) (hservice : m.inService = [p])
    (hexpects : p.expectsResponse = true) (hm : m.rested = m) {route : Route}
    (h : s.Alone now (some (.complete, tick))
      (b.loaded c { ranges } m [] [] { entries := [(p.id, route)] } 1) issuedAt report) :
    ∃ e m', e.packet.id = p.id ∧ e.ready = b.back.crossing.readyAt tick ∧ m'.rested = m' ∧
      s.step.1.Alone tick (some (.send .response, e.ready)) (b.loaded c { ranges } m' [] [e] {} 1)
        issuedAt report := by
  have hm' := rested_perform (m := { m with inService := [] })
    (congrArg (fun m : Memory => { m with inService := [] }) hm) p
  have hid := Memory.id_perform { m with inService := [] } p
  have hcompleted := completeNext_cons hservice
  rw [hexpects, if_pos rfl] at hcompleted
  generalize { m with inService := [] }.perform p = performed at hm' hid hcompleted
  refine ⟨⟨{ b.back.crossing.charge performed.2 with destination := some route },
    b.back.crossing.readyAt tick⟩, performed.1, ?_, rfl, hm', h.step fun t ht => ?_⟩
  · rw [← hid]
    exact b.back.crossing.id_charge performed.2
  have hperformed := ht.withMemory performed.1
  have hcalled : (t.withMemory performed.1).bridge.respond (t.withMemory performed.1).now performed.2 =
      ⟨b.loaded c { ranges } performed.1 []
          [⟨{ b.back.crossing.charge performed.2 with destination := some route },
            b.back.crossing.readyAt tick⟩] {} 1,
        [.askSend .response (b.back.crossing.readyAt tick)], .ok ()⟩ := by
    rw [hperformed.bridge, hperformed.now, ← hid]
    exact Bridge.respond_loaded valid
  have hadopted := hperformed.adopt_asked
    (o := (t.withMemory performed.1).bridge.respond (t.withMemory performed.1).now performed.2)
      (by rw [hcalled]; rfl) (Clock.le_edgeAfter ..)
  rw [hcalled] at hadopted
  refine ⟨_, _, ?_, hadopted.lookAfter hm', hadopted⟩
  rw [dispatch, completeOldest, memory_of_bound ht.target]
  simp only [hcompleted]
  rw [finish, hcalled]
  rfl

/-- A response that is looked at is counted with the time since its access was let in. -/
theorem Alone.counted {admitted : Tick}
    (h : s.Alone now next bridge [(p.id, admitted)] report) :
    (s.countResponse p).Alone now next bridge [] (report.completing (flooredSub now admitted)) := by
  have hlookup : s.issuedAt.lookup p.id = some admitted := by
    rw [h.issuedAt, List.lookup_cons_self]
  rw [countResponse, hlookup]
  refine ⟨h.now, h.pending, h.bridge, ?_, ?_⟩
  · change s.issuedAt.filter (fun e => e.1 != p.id) = []
    simp [h.issuedAt]
  · change s.report.completing (flooredSub s.now admitted) = _
    rw [h.report, h.now]

/-- The response comes back when it has crossed, and is counted. -/
theorem Alone.returned (valid : c.validate = .ok ()) (hm : m.rested = m) {admitted : Tick}
    (h : s.Alone now (some (.send .response, e.ready)) (b.loaded c { ranges } m [] [e] table 1)
      [(e.packet.id, admitted)] report) :
    s.step.1.Alone e.ready none (b.loaded c { ranges } m [] [] table 0) []
      (report.completing (flooredSub e.ready admitted)) := by
  refine h.step fun t ht => ?_
  have hcalled : t.bridge.attempt t.now .response =
      ⟨b.loaded c { responses := [e.packet], ranges } m [] [] table 0, [.offer .response e.packet true],
        .ok ()⟩ := by
    rw [ht.bridge, ht.now]
    exact Bridge.attempt_response_loaded valid (UInt64.le_refl _)
  have hadopted := ht.adopt (o := t.bridge.attempt t.now .response) (by rw [hcalled]; rfl)
  rw [hcalled] at hadopted
  have hlooked := lookAfter_of_no_retry hadopted.initiator hadopted.target
    (congrArg Memory.owesRetry hm).symm rfl
  rw [show m.newlyAccepted = 0 from (congrArg Memory.newlyAccepted hm).symm, hm] at hlooked
  refine ⟨_, _, ?_, hlooked, ?_⟩
  · rw [dispatch, finish, hcalled]
    rfl
  · exact ((hadopted.withMemory m).withGenerator { ranges }).counted

end Simulation

/-! ### A scenario of one access -/

/-- The tick at which the response comes back to an access that is let in and meets no other. -/
def Scenario.backAt (sc : Scenario) (admitted : Tick) : Tick :=
  sc.bridge.clock.edgeAfter
    (cappedAdd (sc.bridge.clock.edgeAfter admitted sc.bridge.requestDelay)
      (sc.bridge.clock.ticks sc.memory.latency))
    sc.bridge.responseDelay

theorem Memory.not_refuses_one {refuseEvery : UInt32} (h : refuseEvery ≠ 1) :
    ¬ Refuses refuseEvery 1 := by
  intro hrefuses
  have hdvd := (refuses_ofNat_iff (n := 1) (by decide) (by decide)).1 hrefuses
  exact h (UInt32.toNat_inj.1 (Nat.dvd_one.1 hdvd))

namespace Simulation

variable {sc : Scenario} {item : TrafficItem}

/-- The bridge between the agents of a scenario has nothing in it. -/
theorem firstBridge_eq {b : Bridge Generator Memory} (hfresh : b.Fresh sc.bridge) :
    firstBridge sc b = b.loaded sc.bridge
      { pending := numberedIssues 1 sc.traffic, ranges := b.front.ranges } (firstMemory sc) [] [] {}
        0 := by
  have hbridge : firstBridge sc b = { b with
      front := { b.front with
        agent := some { pending := numberedIssues 1 sc.traffic, ranges := b.front.ranges }
        responses := b.front.responses
        reserved := b.front.reserved
        retry := b.front.retry }
      back := { b.back with agent := some (firstMemory sc), requests := b.back.requests }
      table := b.table } := rfl
  rw [hbridge, hfresh.requests, hfresh.responses, hfresh.table, hfresh.reserved, hfresh.retry]
  rfl

/-- The simulation of one access has its issue to come. -/
theorem exists_alone (valid : sc.bridge.validate = .ok ()) (htraffic : sc.traffic = [item]) :
    ∃ (s : Simulation) (b : Bridge Generator Memory) (trafficTag : UInt32), ofScenario sc = .ok s ∧
      b.settings = sc.bridge.settings ∧ b.front.ranges = sc.bridge.ranges ∧
      s.Alone 0 (some (.issue, item.tick))
        (b.loaded sc.bridge { pending := [item.issue 1], ranges := sc.bridge.ranges } (firstMemory sc)
          [] [] {} 0) [] { trafficTag } := by
  obtain ⟨b, hb, hfresh⟩ := Bridge.exists_ofConfig (υ := Generator) (δ := Memory) "bridge" valid
  obtain ⟨s₀, hfirst, hstart⟩ := exists_first hb
  obtain ⟨trafficTag, hreport⟩ := hfirst.report
  have hranges := ranges_ofConfig hb
  have hbridge := hfirst.bridge.trans (firstBridge_eq hfresh)
  rw [htraffic, hranges] at hbridge
  have halone : s₀.Alone 0 none _ [] { trafficTag } :=
    ⟨hfirst.now, List.map_eq_nil_iff.2 hfirst.pending, hbridge, hfirst.issuedAt, hreport⟩
  have hzero : (0 : Tick) ≤ item.tick := UInt64.le_iff_toNat_le.2 (Nat.zero_le _)
  have hmax : max item.tick 0 = item.tick := max_eq_of_le hzero
  have harm : s₀.armIssue =
      ({ s₀ with armed := some item.tick }.schedule .issue item.tick, .ok ()) := by
    rw [armIssue, generator_of_bound halone.initiator, hfirst.now]
    change (if s₀.armed.any (· ≤ max item.tick 0) then _ else
      ({ s₀ with armed := some (max item.tick 0) }.schedule .issue (max item.tick 0), _)) = _
    rw [hfirst.armed, hmax]
    rfl
  rw [harm] at hstart
  have harmed : { s₀ with armed := some item.tick }.Alone 0 none _ [] { trafficTag } :=
    ⟨halone.now, halone.pending, halone.bridge, halone.issuedAt, halone.report⟩
  exact ⟨_, b, trafficTag, hstart, Bridge.settings_of_ofConfig hb, hranges,
    harmed.schedule hzero .issue⟩

/-- The response to a single timed access comes back as soon as the crossings and the memory let it. -/
theorem exists_alone_after (valid : sc.bridge.validate = .ok ()) (htraffic : sc.traffic = [item])
    (hmode : item.mode = .timing) (hkind : item.kind ≠ .writeback)
    (hcovered : item.covered sc.bridge.ranges = true) (hrefuseEvery : sc.memory.refuseEvery ≠ 1) :
    ∃ (s : Simulation) (bridge : Bridge Generator Memory) (report : Report), ofScenario sc = .ok s ∧
      report.totalLatency = 0 ∧ report.maxLatency = 0 ∧
      (s.after 4).Alone (sc.backAt item.tick) none bridge []
        (report.completing (flooredSub (sc.backAt item.tick) item.tick)) := by
  obtain ⟨s, b, trafficTag, hs, hsettings, hranges, halone⟩ := exists_alone valid htraffic
  have houtward : b.front.crossing = ⟨_, _, _⟩ := congrArg (Settings.crossing · .request) hsettings
  have hhomeward : b.back.crossing = ⟨_, _, _⟩ := congrArg (Settings.crossing · .response) hsettings
  have hexpects : (item.issue 1).packet.expectsResponse = true :=
    (item.expectsResponse_packet 1).trans (decide_eq_true hkind)
  have hcovers : b.front.ranges.any (·.covers (item.issue 1).packet.footprint) = true := by
    rw [hranges, TrafficItem.issue, item.footprint_packet]
    exact hcovered
  obtain ⟨e, hanswered, hready, hissued⟩ := halone.issued (i := item.issue 1) valid rfl hmode
    (item.tag_packet 1) hexpects hcovers
  obtain ⟨m, hm, hservice, htaken⟩ := hissued.taken (Memory.not_refuses_one hrefuseEvery) rfl rfl
  obtain ⟨e', m', hid, hready', hm', hperformed⟩ := htaken.performed valid hservice hanswered hm
  rw [← hid] at hperformed
  have hreturned := hperformed.returned valid hm'
  have hback : e'.ready = sc.backAt item.tick := by
    rw [hready', hready, houtward, hhomeward]
    rfl
  rw [hback] at hreturned
  exact ⟨s, _, _, hs, rfl, rfl, hreturned⟩

end Simulation

end TimedBridge
