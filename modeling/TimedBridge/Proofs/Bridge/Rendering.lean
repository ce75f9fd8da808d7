import TimedBridge.Proofs.Rendering
import TimedBridge.Proofs.Bridge.FunctionalRead
import TimedBridge.Proofs.Bridge.History
import TimedBridge.Proofs.TransmitQueue.Passage

/-!
A bridge in another rendering, between agents of other types that answer as the bridge's own agents do
(`Portrait`). Each timed call can be carried out before the change of rendering or after it, with the same
state, effects and answer (`Portrait.perform_bridge`). An access outside the queues cannot be seen in the
other rendering, if it hides what the access can change (`Portrait.Steady.bridge_perform`).
-/

namespace TimedBridge

/-! ### Calls -/

section Calls

variable {υ υ' δ δ' : Type}

/-- Whether a call goes through the queues, or is none on the packets of the bridge. -/
def Operation.isTimed : Operation υ δ → Bool
  | .atomic _ | .functional _ => false
  | _ => true

/-- The call with its agents and its packets put in other terms. -/
def Operation.recast (initiator : υ → υ') (target : δ → δ') (packet : Packet → Packet) :
    Operation υ δ → Operation υ' δ'
  | .bindInitiator agent => .bindInitiator (initiator agent)
  | .bindTarget agent => .bindTarget (target agent)
  | .start => .start
  | .submit p => .submit (packet p)
  | .respond p => .respond (packet p)
  | .attempt direction => .attempt direction
  | .retry direction => .retry direction
  | .atomic p => .atomic (packet p)
  | .functional p => .functional (packet p)

/-- The queues of responses and requests after a functional access has looked at them. -/
def Bridge.snooped (b : Bridge υ δ) (p : Packet) : TransmitQueue × TransmitQueue :=
  let met := b.front.responses.snoop (b.tagged p)
  (met.1, if met.2.2 then b.back.requests else (b.back.requests.snoop met.2.1).1)

end Calls

namespace Guise

variable (g : Guise)

/-- All that the guise shows of bytes is how many there are. -/
def HidesBytes : Prop :=
  ∀ bytes bytes' : List UInt8, bytes.length = bytes'.length → g.recast bytes = g.recast bytes'

/-- An access outside the queues that writes nothing to them which the guise shows. -/
def Overlooks {υ δ : Type} : Operation υ δ → Prop
  | .atomic _ => True
  | .functional p => p.isWrite = false ∨ g.HidesBytes
  | _ => False

end Guise

namespace Rendering

variable (r : Rendering)

/-- What a call answers, in a rendering. -/
def reply : Answer → Answer
  | .done => .done
  | .admission admission => .admission (r.admission admission)
  | .access p latency => .access (r.packet p) latency

variable {r} {access : Packet}

theorem packet_held (h : access.isWrite = false ∨ r.HidesBytes) (held : Packet) :
    r.packet (access.snoop held).held = r.packet held := by
  rcases h with hread | hhides
  · rw [Packet.held_snoop_of_read hread]
  · obtain ⟨hrest, hlength, -⟩ := access.overwritten_snoop held
    have hdata : (access.snoop held).held.data.map r.recast = held.data.map r.recast := by
      cases hdata : held.data with
      | none => simpa [hdata] using hlength
      | some bytes =>
        rw [hdata] at hlength
        obtain ⟨bytes', hdata', heq⟩ := Option.map_eq_some_iff.1 hlength
        rw [hdata', Option.map_some, Option.map_some, hhides bytes' bytes heq]
    rw [packet, Guise.packet, hdata, hrest]
    rfl

theorem map_entry_snoopEntries (h : access.isWrite = false ∨ r.HidesBytes) (entries : List Deferred) :
    (TransmitQueue.snoopEntries access entries).1.map r.entry = entries.map r.entry := by
  induction entries with
  | nil => rfl
  | cons e rest ih =>
    have hentry : r.entry { e with packet := (access.snoop e.packet).held } = r.entry e := by
      rw [entry, packet_held h]
      rfl
    rw [TransmitQueue.snoopEntries]
    dsimp only
    split
    next => rw [List.map_cons, List.map_cons, hentry]
    next hserved =>
      rw [Packet.access_snoop (Bool.not_eq_true _ ▸ hserved), List.map_cons, List.map_cons, hentry, ih]

theorem queue_snoop (h : access.isWrite = false ∨ r.HidesBytes) (q : TransmitQueue) :
    r.queue (q.snoop access).1 = r.queue q := by
  have hentries := map_entry_snoopEntries h q.entries
  rw [queue, queue, ← hentries]
  rfl

end Rendering

/-- The queues do not look different after an access that stores nothing in sight. -/
theorem Bridge.queues_snooped {υ δ : Type} {r : Rendering} (b : Bridge υ δ) {p : Packet}
    (h : p.isWrite = false ∨ r.HidesBytes) :
    r.queue (b.snooped p).1 = r.queue b.front.responses ∧
      r.queue (b.snooped p).2 = r.queue b.back.requests := by
  have htagged : (b.tagged p).isWrite = false ∨ r.HidesBytes := h
  refine ⟨Rendering.queue_snoop htagged b.front.responses, ?_⟩
  rw [snooped]
  dsimp only
  split
  next => rfl
  next hserved =>
    have hgoes : (b.front.responses.snoop (b.tagged p)).2.1 = b.tagged p :=
      TransmitQueue.access_snoopEntries (Bool.not_eq_true _ ▸ hserved)
    rw [hgoes]
    exact Rendering.queue_snoop htagged b.back.requests

/-! ### Agents -/

/-- A rendering, with agents of other types that do in it what the agents of a bridge do. -/
structure Portrait (υ υ' δ δ' : Type) [Initiator υ] [Initiator υ'] [Target δ] [Target δ'] extends
    Rendering where
  initiator : υ → υ'
  target : δ → δ'
  offerResponse : ∀ agent p, Initiator.offerResponse (initiator agent) (toRendering.packet p) =
    (initiator (Initiator.offerResponse agent p).1,
      toRendering.admission (Initiator.offerResponse agent p).2)
  retryRequest : ∀ agent,
    Initiator.retryRequest (initiator agent) = initiator (Initiator.retryRequest agent)
  advertise : ∀ agent ranges,
    Initiator.advertise (initiator agent) ranges = initiator (Initiator.advertise agent ranges)
  offerRequest : ∀ agent p, Target.offerRequest (target agent) (toRendering.packet p) =
    (target (Target.offerRequest agent p).1, toRendering.admission (Target.offerRequest agent p).2)

namespace Portrait

variable {υ υ' δ δ' : Type} [Initiator υ] [Initiator υ'] [Target δ] [Target δ']
  (look : Portrait υ υ' δ δ')

def front (f : Front υ) : Front υ' :=
  { f with
    agent := f.agent.map look.initiator
    crossing := look.crossing f.crossing
    responses := look.queue f.responses
    tag := look.tag f.tag }

def back (b : Back δ) : Back δ' :=
  { b with
    agent := b.agent.map look.target
    crossing := look.crossing b.crossing
    requests := look.queue b.requests }

def bridge (b : Bridge υ δ) : Bridge υ' δ' :=
  { b with
    front := look.front b.front
    back := look.back b.back
    table := look.table b.table
    tagBase := bif look.labelled then b.tagBase else 0 }

/-- The outcome of a call in another rendering. -/
def call {α β : Type} (f : α → β) (o : Call υ δ α) : Call υ' δ' β :=
  o.recounted look.bridge look.effect (look.answer f)

theorem call_after {α β : Type} (f : α → β) (o : Call υ δ α) (effects : List Effect) :
    look.call f (o.after effects) = (look.call f o).after (effects.map look.effect) := by
  rw [call, Outcome.recounted, Outcome.after, List.map_append]
  rfl

variable (b : Bridge υ δ) (now : Tick) (p : Packet)

/-! ### Entering the queues -/

theorem queueRequest_bridge (ready : Tick) :
    (look.bridge b).queueRequest (look.packet p) ready = look.call id (b.queueRequest p ready) := by
  have hsaved :
      (if (look.packet p).expectsResponse then
        (look.bridge b).table.save (look.packet p).id (look.packet p).source
      else .ok (look.bridge b).table) =
        look.answer look.table
          (if p.expectsResponse then b.table.save p.id p.source else .ok b.table) := by
    rw [look.expectsResponse_packet]
    cases p.expectsResponse with
    | true => exact look.save_table b.table p.id p.source
    | false => rfl
  rw [Bridge.queueRequest, Bridge.queueRequest, hsaved]
  cases (if p.expectsResponse then b.table.save p.id p.source else .ok b.table) with
  | error fault => rfl
  | ok table =>
    have hpushed : (look.bridge b).back.requests.push (look.packet p) ready = _ :=
      look.push_queue p b.back.requests ready
    have htaken : (look.table table).take (look.packet p).id = _ := look.take_table table p.id
    simp only [Rendering.answer, hpushed, Outcome.recounted, htaken, look.expectsResponse_packet]
    cases (b.back.requests.push p ready).answer with
    | ok _ => rfl
    | error fault =>
      cases p.expectsResponse with
      | false => rfl
      | true =>
        cases table.take p.id with
        | error missing => rfl
        | ok taken => rfl

theorem submit_bridge :
    (look.bridge b).submit now (look.packet p) = look.call look.admission (b.submit now p) := by
  have hretry : (look.bridge b).front.retry = b.front.retry := rfl
  have hroom : ((look.bridge b).back.requests.isFull ||
      (look.packet p).expectsResponse && (look.bridge b).front.slotsFull) =
        (b.back.requests.isFull || p.expectsResponse && b.front.slotsFull) := by
    have hfull : (look.bridge b).back.requests.isFull = _ := look.isFull_queue b.back.requests
    rw [hfull]
    rfl
  rw [Bridge.submit, Bridge.submit, hretry, hroom]
  cases hpending : b.front.retry with
  | pending => rfl
  | idle =>
    cases hfull : (b.back.requests.isFull || p.expectsResponse && b.front.slotsFull) with
    | true => rfl
    | false =>
      have htagged : (look.packet p).withTag (look.bridge b).front.tag = _ :=
        look.withTag_packet p b.front.tag
      rw [htagged]
      cases p.withTag b.front.tag with
      | error fault => rfl
      | ok tagged =>
        have hqueued := look.queueRequest_bridge
          { b with front := { b.front with
            reserved := if tagged.expectsResponse then b.front.reserved + 1 else b.front.reserved } }
          (b.front.crossing.charge tagged) (b.front.crossing.readyAt now)
        rw [← look.charge_packet] at hqueued
        simp only [Rendering.answer]
        refine (congrArg (fun queued : Call υ' δ' Unit =>
          { queued with answer := queued.answer.map fun () => Admission.accepted }) hqueued).trans ?_
        simp only [call, Outcome.recounted]
        cases (Bridge.queueRequest _ _ _).answer with
        | error fault => rfl
        | ok _ => rfl

theorem queueResponse_bridge (ready : Tick) :
    (look.bridge b).queueResponse (look.packet p) ready = look.call id (b.queueResponse p ready) := by
  have htaken : (look.bridge b).table.take (look.packet p).id = _ := look.take_table b.table p.id
  rw [Bridge.queueResponse, Bridge.queueResponse, htaken]
  cases b.table.take p.id with
  | error fault => rfl
  | ok taken =>
    obtain ⟨route, table⟩ := taken
    have hpushed : (look.bridge b).front.responses.push
        { look.packet p with destination := some route } ready = _ :=
      look.push_queue { p with destination := some route } b.front.responses ready
    simp only [Rendering.answer, hpushed]
    rfl

theorem respond_bridge :
    (look.bridge b).respond now (look.packet p) = look.call id (b.respond now p) := by
  rw [Bridge.respond, Bridge.respond, ← queueResponse_bridge, ← look.charge_packet]
  rfl

/-! ### Leaving the queues -/

theorem sendOwedRetry_bridge : (look.bridge b).sendOwedRetry = look.call id b.sendOwedRetry := by
  have hretry : (look.bridge b).front.retry = b.front.retry := rfl
  have hagent : (look.bridge b).front.agent = b.front.agent.map look.initiator := rfl
  rw [Bridge.sendOwedRetry, Bridge.sendOwedRetry, hretry]
  cases b.front.retry with
  | idle => rfl
  | pending =>
    simp only [hagent]
    cases b.front.agent with
    | none => rfl
    | some agent =>
      simp only [Option.map_some, look.retryRequest]
      rfl

theorem trySendRequest_bridge :
    (look.bridge b).trySendRequest now = look.call id (b.trySendRequest now) := by
  have hagent : (look.bridge b).back.agent = b.back.agent.map look.target := rfl
  rw [Bridge.trySendRequest, Bridge.trySendRequest, hagent]
  cases b.back.agent with
  | none => rfl
  | some agent =>
    have hsent : (look.bridge b).back.requests.trySend now (look.target agent) Target.offerRequest = _ :=
      look.trySend_queue b.back.requests now look.offerRequest agent
    simp only [Option.map_some, hsent, Outcome.recounted]
    cases (b.back.requests.trySend now agent Target.offerRequest).answer with
    | none => rfl
    | some _ =>
      dsimp only [id]
      rw [call_after, ← sendOwedRetry_bridge]
      rfl

theorem trySendResponse_bridge :
    (look.bridge b).trySendResponse now = look.call id (b.trySendResponse now) := by
  have hagent : (look.bridge b).front.agent = b.front.agent.map look.initiator := rfl
  have hfull : (look.bridge b).back.requests.isFull = _ := look.isFull_queue b.back.requests
  rw [Bridge.trySendResponse, Bridge.trySendResponse, hagent]
  cases b.front.agent with
  | none => rfl
  | some agent =>
    have hsent : (look.bridge b).front.responses.trySend now (look.initiator agent)
        Initiator.offerResponse = _ :=
      look.trySend_queue b.front.responses now look.offerResponse agent
    simp only [Option.map_some, hsent, Outcome.recounted]
    cases (b.front.responses.trySend now agent Initiator.offerResponse).answer with
    | none => rfl
    | some _ =>
      have hreserved : (look.bridge b).front.reserved = b.front.reserved := rfl
      dsimp only [id]
      rw [hreserved, hfull]
      cases b.front.reserved with
      | zero => rfl
      | succ reserved =>
        dsimp only
        cases b.back.requests.isFull with
        | true => rfl
        | false =>
          simp only [Bool.false_eq_true, if_false]
          rw [call_after, ← sendOwedRetry_bridge]
          rfl

theorem requestRetry_bridge :
    (look.bridge b).requestRetry now = look.call id (b.requestRetry now) := by
  have htaken : (look.bridge b).back.requests.takeRetry = _ := look.takeRetry_queue b.back.requests
  rw [Bridge.requestRetry, Bridge.requestRetry, htaken]
  cases b.back.requests.takeRetry with
  | error fault => rfl
  | ok requests =>
    exact look.trySendRequest_bridge { b with back := { b.back with requests } } now

theorem responseRetry_bridge :
    (look.bridge b).responseRetry now = look.call id (b.responseRetry now) := by
  have htaken : (look.bridge b).front.responses.takeRetry = _ :=
    look.takeRetry_queue b.front.responses
  rw [Bridge.responseRetry, Bridge.responseRetry, htaken]
  cases b.front.responses.takeRetry with
  | error fault => rfl
  | ok responses =>
    exact look.trySendResponse_bridge { b with front := { b.front with responses } } now

theorem attempt_bridge (d : Direction) :
    (look.bridge b).attempt now d = look.call id (b.attempt now d) := by
  cases d with
  | request =>
    exact look.trySendRequest_bridge
      { b with back := { b.back with requests := b.back.requests.attemptDue } } now
  | response =>
    exact look.trySendResponse_bridge
      { b with front := { b.front with responses := b.front.responses.attemptDue } } now

theorem start_bridge : (look.bridge b).start = look.call id b.start := by
  have hagent : (look.bridge b).front.agent = b.front.agent.map look.initiator := rfl
  have htarget : (look.bridge b).back.agent = b.back.agent.map look.target := rfl
  rw [Bridge.start, Bridge.start, Bridge.advertise, Bridge.advertise, hagent, htarget]
  cases b.front.agent with
  | none => rfl
  | some agent =>
    cases b.back.agent with
    | none => rfl
    | some agent' =>
      simp only [Option.map_some, Option.isNone_some, Bool.false_eq_true, if_false]
      rw [look.advertise]
      rfl

/-! ### Calls -/

/-- A call in another rendering. -/
def operation : Operation υ δ → Operation υ' δ' :=
  Operation.recast look.initiator look.target look.packet

theorem answering_of_eq {α α' β β' : Type} {f : α → α'} {f' : β → β'} {into : α → β}
    {into' : α' → β'} {o : Call υ δ α} {o' : Call υ' δ' α'} (h : o' = look.call f o)
    (hinto : ∀ a, f' (into a) = into' (f a)) :
    o'.answering into' = look.call f' (o.answering into) := by
  subst h
  rw [call, call, Outcome.recounted, Outcome.recounted, Outcome.answering, Outcome.answering]
  cases o.answer with
  | error fault => rfl
  | ok a => exact (congrArg (Outcome.mk _ _ <| Except.ok ·) (hinto a)).symm

/-- Every timed call can be carried out in either rendering. -/
theorem perform_bridge {operation : Operation υ δ} (htimed : operation.isTimed = true) :
    (look.bridge b).perform now (look.operation operation) =
      look.call look.reply (b.perform now operation) := by
  cases operation with
  | bindInitiator agent => rfl
  | bindTarget agent => rfl
  | start => exact look.answering_of_eq (look.start_bridge b) fun _ => rfl
  | submit p => exact look.answering_of_eq (look.submit_bridge b now p) fun _ => rfl
  | respond p => exact look.answering_of_eq (look.respond_bridge b now p) fun _ => rfl
  | attempt d => exact look.answering_of_eq (look.attempt_bridge b now d) fun _ => rfl
  | retry d =>
    cases d with
    | request => exact look.answering_of_eq (look.requestRetry_bridge b now) fun _ => rfl
    | response => exact look.answering_of_eq (look.responseRetry_bridge b now) fun _ => rfl
  | atomic => contradiction
  | functional => contradiction

/-! ### Accesses outside the queues -/

/-- The target looks the same after an access outside the queues. -/
structure Steady : Prop where
  atomic : ∀ agent p, look.target (Target.atomic agent p).1 = look.target agent
  functional : ∀ agent p, look.target (Target.functional agent p).1 = look.target agent

variable {look}

theorem bridge_withTarget {b : Bridge υ δ} {agent agent' : δ} (hagent : b.back.agent = some agent)
    (hsame : look.target agent' = look.target agent) :
    look.bridge (b.withTarget agent') = look.bridge b := by
  have hback : look.back { b.back with agent := some agent' } = look.back b.back := by
    rw [back, back, hagent, Option.map_some, Option.map_some, hsame]
  rw [bridge, bridge, Bridge.withTarget, hback]

theorem bridge_withInitiator {b : Bridge υ δ} {agent agent' : υ} (hagent : b.front.agent = some agent)
    (hsame : look.initiator agent' = look.initiator agent) :
    look.bridge (b.withInitiator agent') = look.bridge b := by
  have hfront : look.front { b.front with agent := some agent' } = look.front b.front := by
    rw [front, front, hagent, Option.map_some, Option.map_some, hsame]
  rw [bridge, bridge, Bridge.withInitiator, hfront]

theorem Steady.bridge_atomic (hsteady : look.Steady) :
    look.bridge (b.atomic p).state.1 = look.bridge b := by
  have hend := b.atomicAccess_atomic p
  generalize b.atomic p = called at hend ⊢
  cases hend with
  | alreadyTagged => rfl
  | unbound => rfl
  | @performed agent _ _ _ htag hagent hperform =>
    have hsame := hsteady.atomic agent (b.tagged p)
    rw [hperform] at hsame
    exact bridge_withTarget hagent hsame

/-- A functional access can be seen in the queues at most. -/
theorem Steady.bridge_functional (hsteady : look.Steady) :
    look.bridge (b.functional p).state.1 =
      if p.tag.isSome then look.bridge b
      else look.bridge (b.withQueues (b.snooped p).1 (b.snooped p).2) := by
  have hend := b.functionalAccess_functional p
  generalize b.functional p = called at hend ⊢
  cases hend with
  | alreadyTagged htag => simp [htag]
  | byResponse htag hresponses => simp [htag, Bridge.snooped, hresponses]
  | byRequest htag hresponses hrequests => simp [htag, Bridge.snooped, hresponses, hrequests]
  | unbound htag hresponses hrequests => simp [htag, Bridge.snooped, hresponses, hrequests]
  | @performed responses requests _ left _ agent _ htag hresponses hrequests hagent hperform =>
    have hsame := hsteady.functional agent left
    rw [hperform] at hsame
    simp only [htag, Bridge.snooped, hresponses, hrequests]
    exact bridge_withTarget (b := b.withQueues responses requests) hagent hsame

/-- An access that the guise overlooks leaves the bridge as it looks. -/
theorem Steady.bridge_perform (hsteady : look.Steady) {operation : Operation υ δ}
    (hoverlooked : look.Overlooks operation) :
    look.bridge (b.perform now operation).state = look.bridge b := by
  cases operation with
  | atomic p => exact hsteady.bridge_atomic b p
  | functional p =>
    refine (hsteady.bridge_functional b p).trans ?_
    split
    next => rfl
    next =>
      obtain ⟨hresponses, hrequests⟩ := b.queues_snooped hoverlooked
      change (look.bridge b).withQueues (look.queue (b.snooped p).1) (look.queue (b.snooped p).2) = _
      rw [hresponses, hrequests]
      rfl
  | _ => exact hoverlooked.elim

end Portrait

end TimedBridge
