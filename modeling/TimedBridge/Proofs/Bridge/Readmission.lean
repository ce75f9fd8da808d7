import TimedBridge.Proofs.Bridge.Retry

/-!
Retries that departing responses send. Such a retry is never sent in vain: when it comes the bridge is
open (`Open`), so the next request is let in whether or not it will be answered, and whatever the earlier
one was refused for (`exists_readmits`). The departure frees a slot, the slots are never more than their
number, and the retry is held back while the request queue is full. A retry that a departing request
sends promises less, since the response slots may still be used up.
-/

namespace TimedBridge

namespace Bridge

variable {υ δ : Type} {b : Bridge υ δ}

/-- No retry is owed, and both resources that a request may need have room. -/
structure Open (b : Bridge υ δ) : Prop where
  retry : b.front.retry = .idle
  requests : b.back.requests.size < b.back.requests.capacity
  slots : b.front.reserved < b.front.responses.capacity

/-- The next request is let in if it has no tag and its identity does not wait for a response. -/
def Readmits (b : Bridge υ δ) : Prop :=
  ∀ now p, p.tag = none → b.table.contains p.id = false → (b.submit now p).answer = .ok .accepted

theorem Open.hasRoom (h : b.Open) (p : Packet) : b.HasRoom p := ⟨h.requests, fun _ => h.slots⟩

/-- An open bridge has no ground left on which to turn a request back or away. -/
theorem Open.readmits (h : b.Open) : b.Readmits := by
  intro now p htag hfree
  have hend := submission_submit b now p
  generalize b.submit now p = called at hend ⊢
  cases hend with
  | early hretry =>
    rw [h.retry] at hretry
    contradiction
  | refused hretry hroom => exact absurd (h.hasRoom p) hroom
  | alreadyTagged hretry hroom hexisting =>
    rw [htag] at hexisting
    contradiction
  | duplicate hretry hroom huntagged hexpects hwaiting =>
    rw [hfree] at hwaiting
    contradiction
  | accepted => rfl

/-! ### The departure of a response -/

/-- A slot has been freed among those that were reserved. -/
theorem slots_of_released {reserved : Nat} (hslots : b.front.reserved ≤ b.front.responses.capacity)
    (hreserved : b.front.reserved = reserved + 1) (rest : List Deferred) (now : Tick) :
    reserved < ({ b.front.responses with entries := rest }.armForHead now).state.capacity := by
  rw [TransmitQueue.capacity_armForHead]
  change reserved < b.front.responses.capacity
  omega

variable [Initiator υ]

/-- When an owed retry is sent, only the front changes: the retry is settled and the agent told. -/
theorem open_sendOwedRetry (hnotify : .notifyRetry ∈ b.sendOwedRetry.effects)
    (hrequests : b.back.requests.size < b.back.requests.capacity)
    (hslots : b.front.reserved < b.front.responses.capacity) : b.sendOwedRetry.state.Open := by
  have hend := owedRetry_sendOwedRetry b
  generalize b.sendOwedRetry = called at hend hnotify ⊢
  cases hend with
  | none => exact absurd hnotify List.not_mem_nil
  | lost => exact absurd hnotify List.not_mem_nil
  | sent => exact ⟨rfl, hrequests, hslots⟩

/-- A departing response that sends the owed retry leaves the bridge open. -/
theorem open_trySendResponse (hslots : b.front.reserved ≤ b.front.responses.capacity) (now : Tick)
    (hnotify : .notifyRetry ∈ (b.trySendResponse now).effects) :
    (b.trySendResponse now).state.Open := by
  have hend := responseSending_trySendResponse b now
  have hsilent {effects : List Effect} (h : Effect.notifications effects = 0) :
      .notifyRetry ∉ effects := List.count_eq_zero.1 h
  generalize b.trySendResponse now = called at hend hnotify ⊢
  cases hend with
  | unbound => exact absurd hnotify List.not_mem_nil
  | empty => exact absurd hnotify List.not_mem_nil
  | early => exact absurd hnotify (hsilent (TransmitQueue.notifications_arm ..))
  | refused => exact absurd hnotify (hsilent rfl)
  | unreserved => exact absurd hnotify (hsilent (TransmitQueue.notifications_armForHead ..))
  | takenFull => exact absurd hnotify (hsilent (TransmitQueue.notifications_armForHead ..))
  | @taken agent agent' head rest reserved hagent h hdue hoffer hreserved hfull =>
    have hrequests : b.back.requests.size < b.back.requests.capacity :=
      Nat.not_le.1 (of_decide_eq_false hfull)
    refine open_sendOwedRetry ?_ hrequests (slots_of_released hslots hreserved rest now)
    rcases List.mem_append.1 hnotify with hdeparture | hretry
    · exact absurd hdeparture (hsilent (TransmitQueue.notifications_armForHead ..))
    · exact hretry

variable [Target δ]

/-- The attempt that has come due, or the initiator's own retry, lets a response depart. -/
theorem open_perform (hslots : b.front.reserved ≤ b.front.responses.capacity) (now : Tick)
    {operation : Operation υ δ}
    (hoperation : operation = .attempt .response ∨ operation = .retry .response)
    (hnotify : .notifyRetry ∈ (b.perform now operation).effects) :
    (b.perform now operation).state.Open := by
  -- Either way the queue is told first that nothing is scheduled or awaited any more.
  rcases hoperation with rfl | rfl
  · have hbefore : (b.setQueue (b.queue .response).attemptDue .response).front.reserved ≤ _ := hslots
    rw [perform_attempt] at hnotify ⊢
    exact open_trySendResponse hbefore now hnotify
  · have hbefore :
        (b.setQueue { b.queue .response with awaitingRetry := false } .response).front.reserved ≤ _ :=
      hslots
    rw [perform_retry] at hnotify ⊢
    split at hnotify
    next howed =>
      rw [if_pos howed]
      exact open_trySendResponse hbefore now hnotify
    next => exact absurd hnotify List.not_mem_nil

/-- In every run of a bridge of accepted settings, a retry that a departing response sends finds the
bridge open, so the next request is let in. -/
theorem exists_readmits {c : BridgeConfig} (name : String) (valid : c.validate = .ok ()) :
    ∃ b : Bridge υ δ, ofConfig name c = .ok b ∧ ∀ run now operation,
      operation = .attempt .response ∨ operation = .retry .response →
      .notifyRetry ∈ ((b.after run).perform now operation).effects →
      ((b.after run).perform now operation).state.Readmits := by
  obtain ⟨b, hb, hfresh⟩ := exists_ofConfig name valid
  refine ⟨b, hb, fun run now operation hoperation hnotify => ?_⟩
  have hcredited := hfresh.credited_after valid run
  exact (open_perform hcredited.balanced.reserved_le now hoperation hnotify).readmits

/-- The repeated read is answered, and its response has yet to depart. -/
def unsentAnswer : List (Tick × Operation Generator Memory) :=
  repeatedRead ++ [(3, .respond (Packet.read 1 0 4 0).respond)]

/-- The read that found no slot is let in when the retry comes. -/
theorem readmits_unsentAnswer :
    ∃ b : Bridge Generator Memory, ofConfig "narrow" narrow = .ok b ∧
      (b.after unsentAnswer).front.retry = .pending ∧
      .notifyRetry ∈ ((b.after unsentAnswer).perform 4 (.attempt .response)).effects ∧
      (((b.after unsentAnswer).perform 4 (.attempt .response)).state.submit 4
        (.read 2 0 4 0)).answer = .ok .accepted := by
  have valid : narrow.validate = .ok () := rfl
  obtain ⟨b, hb, hreadmits⟩ : ∃ b : Bridge Generator Memory, _ := exists_readmits "narrow" valid
  have hnotify :
      .notifyRetry ∈ ((b.after unsentAnswer).perform 4 (.attempt .response)).effects := by
    obtain rfl := Except.ok.inj hb
    exact List.mem_of_getElem? (i := 1) rfl
  have hfree :
      ((b.after unsentAnswer).perform 4 (.attempt .response)).state.table.contains 2 = false := by
    obtain rfl := Except.ok.inj hb
    rfl
  refine ⟨b, hb, ?_, hnotify, hreadmits unsentAnswer 4 _ (.inl rfl) hnotify 4 _ rfl hfree⟩
  obtain rfl := Except.ok.inj hb
  rfl

/-- The retry that a departing request sends may find the only response slot used up. -/
example :
    (ofConfig "single" { requestCapacity := 2, responseCapacity := 1 }).map
        (fun b : Bridge Generator Memory =>
          let before := b.after
            [(0, .bindInitiator {}), (0, .bindTarget readyMemory), (0, .submit (.read 1 0 4 0)),
              (0, .submit (.read 2 0 4 0))]
          let departed := before.perform 1 (.attempt .request)
          (departed.effects.contains .notifyRetry,
            (departed.state.submit 1 (.read 2 0 4 0)).answer)) =
      .ok (true, .ok (.refused (.read 2 0 4 0))) := rfl

end Bridge

end TimedBridge
