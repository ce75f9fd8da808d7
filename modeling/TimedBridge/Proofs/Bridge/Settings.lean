import TimedBridge.Proofs.Bridge.History
import TimedBridge.Proofs.Bridge.TimedCalls
import TimedBridge.Proofs.Bridge.UntimedCalls

/-!
The settings that a bridge works by: the crossing of each direction and the tag. They are those that
the bridge was made with, whatever happens to it (`settings_perform`).
-/

namespace TimedBridge

/-- The crossing of each direction, and the tag. -/
structure Settings where
  crossing : Direction → Crossing
  tag : TrafficTag

namespace BridgeConfig

/-- How long a packet takes to cross in a direction. -/
def delay (c : BridgeConfig) : Direction → Cycles
  | .request => c.requestDelay
  | .response => c.responseDelay

/-- What a bridge is to work by. -/
def settings (c : BridgeConfig) : Settings where
  crossing d := ⟨c.clock, c.delay d, c.timingHints⟩
  tag := c.trafficTag

/-- A period that is accepted is that of the clock. -/
theorem period_clock {c : BridgeConfig} (valid : c.validate = .ok ()) :
    c.clock.period = c.clockPeriod := by
  rw [validate] at valid
  split at valid
  next => contradiction
  next =>
    split at valid
    next => contradiction
    next =>
      split at valid
      next => contradiction
      next hperiod => rw [clock, Clock.ofPeriod, dif_neg hperiod]

end BridgeConfig

namespace Bridge

variable {υ δ : Type}

/-- What a bridge works by. -/
def settings (b : Bridge υ δ) : Settings where
  crossing
    | .request => b.front.crossing
    | .response => b.back.crossing
  tag := b.front.tag

section Start

variable {c : BridgeConfig} {name : String} {b : Bridge υ δ}

theorem settings_of_ofConfig (h : ofConfig name c = .ok b) : b.settings = c.settings := by
  rw [ofConfig] at h
  split at h
  next => contradiction
  next =>
    cases h
    rw [settings, BridgeConfig.settings, Settings.mk.injEq]
    exact ⟨funext fun d => by cases d <;> rfl, rfl⟩

theorem settings_of_connected {initiator : υ} {target : δ}
    (h : connected name c initiator target = .ok b) : b.settings = c.settings := by
  rw [connected] at h
  cases hmade : (ofConfig name c : Except BridgeFault (Bridge υ δ)) with
  | error fault =>
    rw [hmade] at h
    contradiction
  | ok made =>
    rw [hmade] at h
    cases h
    have hsettings : made.settings = c.settings := settings_of_ofConfig hmade
    exact hsettings

end Start

/-! ### Calls -/

variable (b : Bridge υ δ) (now : Tick)

theorem settings_setQueue (q : TransmitQueue) (d : Direction) :
    (b.setQueue q d).settings = b.settings := by
  cases d <;> rfl

variable [Initiator υ]

theorem settings_sendOwedRetry : b.sendOwedRetry.state.settings = b.settings := by
  have hend := owedRetry_sendOwedRetry b
  generalize b.sendOwedRetry = called at hend ⊢
  cases hend <;> rfl

theorem settings_trySendResponse : (b.trySendResponse now).state.settings = b.settings := by
  have hend := responseSending_trySendResponse b now
  generalize b.trySendResponse now = called at hend ⊢
  cases hend with
  | taken => exact settings_sendOwedRetry _
  | _ => rfl

variable [Target δ]

theorem settings_trySendRequest : (b.trySendRequest now).state.settings = b.settings := by
  have hend := requestSending_trySendRequest b now
  generalize b.trySendRequest now = called at hend ⊢
  cases hend with
  | taken => exact settings_sendOwedRetry _
  | _ => rfl

theorem settings_trySend (d : Direction) : (b.trySend now d).state.settings = b.settings := by
  cases d with
  | request => exact b.settings_trySendRequest now
  | response => exact b.settings_trySendResponse now

/-- No call changes what the bridge works by. -/
theorem settings_perform (operation : Operation υ δ) :
    (b.perform now operation).state.settings = b.settings := by
  cases operation with
  | bindInitiator => rfl
  | bindTarget => rfl
  | start =>
    have hend := starting_start b
    simp only [perform]
    generalize b.start = called at hend ⊢
    cases hend <;> rfl
  | submit p =>
    have hend := submission_submit b now p
    simp only [perform]
    generalize b.submit now p = called at hend ⊢
    cases hend <;> rfl
  | respond p =>
    have hend := reception_respond b now p
    simp only [perform]
    generalize b.respond now p = called at hend ⊢
    cases hend <;> rfl
  | attempt d =>
    rw [perform_attempt]
    exact (settings_trySend _ now d).trans (b.settings_setQueue _ d)
  | retry d =>
    rw [perform_retry]
    split
    · exact (settings_trySend _ now d).trans (b.settings_setQueue _ d)
    · rfl
  | atomic p =>
    have hend := atomicAccess_atomic b p
    simp only [perform]
    generalize b.atomic p = called at hend ⊢
    cases hend <;> rfl
  | functional p =>
    have hend := functionalAccess_functional b p
    simp only [perform]
    generalize b.functional p = called at hend ⊢
    cases hend <;> rfl

end Bridge

end TimedBridge
