import TimedBridge.Bridge.Untimed
import TimedBridge.Proofs.Effect

/-!
Runs of a bridge: any calls in any order, each at any tick. A call that fails is part of the run, and
the next call meets the state that it leaves. `after` is the bridge at the end of a run and `record`
is what each of its calls did and answered. What one call keeps, a run keeps (`run_induction`), and
each recorded call was made on a bridge that the run had reached (`exists_of_mem_record`).
-/

namespace TimedBridge

/-- A call on a bridge. -/
inductive Operation (υ δ : Type) where
  | bindInitiator (agent : υ)
  | bindTarget (agent : δ)
  | start
  | submit (packet : Packet)
  | respond (packet : Packet)
  /-- The attempt to send in a direction comes due. -/
  | attempt (direction : Direction)
  /-- The agent that refused the head of a direction wants it again. -/
  | retry (direction : Direction)
  | atomic (packet : Packet)
  | functional (packet : Packet)

/-- What a call answers when it succeeds. -/
inductive Answer where
  | done
  | admission (admission : Admission)
  /-- The access as it comes back; an atomic one has a latency. -/
  | access (packet : Packet) (latency : Option Tick)
  deriving DecidableEq, Repr

/-- The outcome with the answer of a call that succeeded put in other terms. -/
def Outcome.answering {σ ε α β : Type} (o : Outcome σ (Except ε α)) (f : α → β) :
    Outcome σ (Except ε β) :=
  ⟨o.state, o.effects, o.answer.map f⟩

/-- A call of a run: when it was made, what it did to the world around the bridge, and its answer. -/
structure Turn (υ δ : Type) where
  now : Tick
  operation : Operation υ δ
  effects : List Effect
  answer : Except BridgeFault Answer

namespace Bridge

variable {υ δ : Type}

/-- The queue of a direction. -/
def queue (b : Bridge υ δ) : Direction → TransmitQueue
  | .request => b.back.requests
  | .response => b.front.responses

/-- The bridge with another queue in a direction. -/
def setQueue (b : Bridge υ δ) (q : TransmitQueue) : Direction → Bridge υ δ
  | .request => { b with back := { b.back with requests := q } }
  | .response => { b with front := { b.front with responses := q } }

theorem queue_setQueue (b : Bridge υ δ) (q : TransmitQueue) (d : Direction) :
    (b.setQueue q d).queue d = q := by
  cases d <;> rfl

theorem queue_setQueue_of_ne (b : Bridge υ δ) (q : TransmitQueue) {d d' : Direction} (h : d' ≠ d) :
    (b.setQueue q d).queue d' = b.queue d' := by
  cases d <;> cases d' <;> first | contradiction | rfl

/-! ### Where runs start -/

/-- The bridge of the given settings with both agents bound. -/
def connected (name : String) (c : BridgeConfig) (initiator : υ) (target : δ) :
    Except BridgeFault (Bridge υ δ) :=
  (ofConfig name c).map fun b => ((b.bindInitiator initiator).1.bindTarget target).1

/-- A bridge of the settings `c` that has done nothing yet, whatever agents are bound. -/
structure Fresh (c : BridgeConfig) (b : Bridge υ δ) : Prop where
  requests : b.back.requests = { direction := .request, capacity := c.requestCapacity.toNat }
  responses : b.front.responses = { direction := .response, capacity := c.responseCapacity.toNat }
  table : b.table = {}
  reserved : b.front.reserved = 0
  retry : b.front.retry = .idle

variable {c : BridgeConfig}

/-- Settings that are accepted make a bridge. -/
theorem exists_ofConfig (name : String) (valid : c.validate = .ok ()) :
    ∃ b : Bridge υ δ, ofConfig name c = .ok b ∧ b.Fresh c := by
  rw [ofConfig, valid]
  exact ⟨_, rfl, rfl, rfl, rfl, rfl, rfl⟩

theorem exists_connected (name : String) (valid : c.validate = .ok ()) (initiator : υ) (target : δ) :
    ∃ b, connected name c initiator target = .ok b ∧ b.Fresh c ∧ b.isConnected = true := by
  obtain ⟨b, hb, hrequests, hresponses, htable, hreserved, hretry⟩ :=
    exists_ofConfig name valid
  rw [connected, hb]
  exact ⟨_, rfl, ⟨hrequests, hresponses, htable, hreserved, hretry⟩, rfl⟩

theorem agents_of_connected {name : String} {initiator : υ} {target : δ} {b : Bridge υ δ}
    (h : connected name c initiator target = .ok b) :
    b.front.agent = some initiator ∧ b.back.agent = some target := by
  rw [connected] at h
  cases hmade : (ofConfig name c : Except BridgeFault (Bridge υ δ)) with
  | error fault =>
    rw [hmade] at h
    contradiction
  | ok made =>
    rw [hmade] at h
    cases h
    exact ⟨rfl, rfl⟩

theorem Fresh.queue_eq {b : Bridge υ δ} (h : b.Fresh c) (d : Direction) :
    ∃ capacity, b.queue d = { direction := d, capacity } := by
  cases d with
  | request => exact ⟨_, h.requests⟩
  | response => exact ⟨_, h.responses⟩

/-! ### Calls -/

variable [Initiator υ] [Target δ]

/-- Carries out a call at `now`. -/
def perform (b : Bridge υ δ) (now : Tick) : Operation υ δ → Call υ δ Answer
  | .bindInitiator agent => ⟨(b.bindInitiator agent).1, [], .ok .done⟩
  | .bindTarget agent => ⟨(b.bindTarget agent).1, [], .ok .done⟩
  | .start => b.start.answering fun () => .done
  | .submit packet => (b.submit now packet).answering .admission
  | .respond packet => (b.respond now packet).answering fun () => .done
  | .attempt direction => (b.attempt now direction).answering fun () => .done
  | .retry .request => (b.requestRetry now).answering fun () => .done
  | .retry .response => (b.responseRetry now).answering fun () => .done
  | .atomic packet =>
    let called := b.atomic packet
    (called.within Prod.fst).answering fun latency => .access called.state.2 (some latency)
  | .functional packet =>
    let called := b.functional packet
    (called.within Prod.fst).answering fun () => .access called.state.2 none

/-! ### Attempts and retries -/

/-- Sends in a direction, if there is something that may leave. -/
def trySend (b : Bridge υ δ) (now : Tick) : Direction → Call υ δ Unit
  | .request => b.trySendRequest now
  | .response => b.trySendResponse now

/-- An attempt notes that it has come due, and sends. -/
theorem perform_attempt (b : Bridge υ δ) (now : Tick) (d : Direction) :
    b.perform now (.attempt d) =
      ((b.setQueue (b.queue d).attemptDue d).trySend now d).answering fun () => .done := by
  cases d <;> rfl

/-- A retry that is owed is taken, and sends. -/
theorem perform_retry (b : Bridge υ δ) (now : Tick) (d : Direction) :
    b.perform now (.retry d) =
      if (b.queue d).awaitingRetry then
        ((b.setQueue { b.queue d with awaitingRetry := false } d).trySend now d).answering
          fun () => .done
      else ⟨b, [], .error (.spuriousRetry (b.queue d).direction)⟩ := by
  by_cases h : (b.queue d).awaitingRetry = true
  · rw [if_pos h]
    cases d with
    | request => rw [perform, requestRetry, TransmitQueue.takeRetry, if_pos (by exact h)]; rfl
    | response => rw [perform, responseRetry, TransmitQueue.takeRetry, if_pos (by exact h)]; rfl
  · rw [if_neg h]
    cases d with
    | request => rw [perform, requestRetry, TransmitQueue.takeRetry, if_neg (by exact h)]; rfl
    | response => rw [perform, responseRetry, TransmitQueue.takeRetry, if_neg (by exact h)]; rfl

/-! ### Runs and their calls -/

/-- What is recorded of a call at `now`. -/
def turn (b : Bridge υ δ) (now : Tick) (operation : Operation υ δ) : Turn υ δ :=
  ⟨now, operation, (b.perform now operation).effects, (b.perform now operation).answer⟩

/-- The bridge at the end of a run. -/
def after (b : Bridge υ δ) : List (Tick × Operation υ δ) → Bridge υ δ
  | [] => b
  | (now, operation) :: rest => (b.perform now operation).state.after rest

/-- What is recorded of a run. -/
def record (b : Bridge υ δ) : List (Tick × Operation υ δ) → List (Turn υ δ)
  | [] => []
  | (now, operation) :: rest => b.turn now operation :: (b.perform now operation).state.record rest

theorem after_append (b : Bridge υ δ) (run more : List (Tick × Operation υ δ)) :
    b.after (run ++ more) = (b.after run).after more := by
  induction run generalizing b with
  | nil => rfl
  | cons call run ih => exact ih _

/-- What holds at the start and is kept by each call, with the call added to the record, holds at the
end of each run. -/
theorem run_induction {P : List (Turn υ δ) → Bridge υ δ → Prop} {b : Bridge υ δ} (start : P [] b)
    (step : ∀ log b now operation, P log b →
      P (log ++ [b.turn now operation]) (b.perform now operation).state)
    (run : List (Tick × Operation υ δ)) : P (b.record run) (b.after run) := by
  suffices h : ∀ log (b : Bridge υ δ), P log b → P (log ++ b.record run) (b.after run) from
    h [] b start
  intro log b hP
  induction run generalizing log b with
  | nil => simpa [record, after] using hP
  | cons call run ih =>
    have h := ih _ _ (step log b call.1 call.2 hP)
    rwa [List.append_assoc] at h

/-- Each recorded call was made on a bridge that the run had reached. -/
theorem exists_of_mem_record {b : Bridge υ δ} {run : List (Tick × Operation υ δ)} {turn : Turn υ δ}
    (h : turn ∈ b.record run) :
    ∃ before now operation, turn = (b.after before).turn now operation := by
  induction run generalizing b with
  | nil => exact absurd h List.not_mem_nil
  | cons call run ih =>
    rcases List.mem_cons.1 h with rfl | h
    · exact ⟨[], call.1, call.2, rfl⟩
    · obtain ⟨before, now, operation, rfl⟩ := ih h
      exact ⟨call :: before, now, operation, rfl⟩

end Bridge

end TimedBridge
