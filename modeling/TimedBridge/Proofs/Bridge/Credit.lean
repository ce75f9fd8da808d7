import TimedBridge.Generator
import TimedBridge.Memory
import TimedBridge.Proofs.Bridge.Ledger

/-!
Credit. A response slot is reserved before a request is let in and freed when its response departs, so
responses never overrun their queue although nothing checks for room when they come. The invariant
(`Ledger.Balanced`) counts the slots that turned-away duplicates keep: what waits, what is queued and
what is forfeited add up to what is reserved, and the forfeited slots are never all of them.
-/

namespace TimedBridge

/-- The slots add up: each one that is reserved belongs to a waiting request, to a queued response, or
to one of the `forfeits` requests that were turned away after the reservation. -/
structure Ledger.Balanced (l : Ledger) (forfeits : Nat) : Prop where
  requests_le : l.requests ≤ l.requestSlots
  reserved_le : l.reserved ≤ l.responseSlots
  balance : l.waiting + l.responses + forfeits = l.reserved
  forfeits_lt : forfeits < l.responseSlots

namespace Ledger

variable {l l' : Ledger} {posting : Posting} {forfeits : Nat}

theorem Posts.slots_eq (h : Posts posting l l') :
    l'.requestSlots = l.requestSlots ∧ l'.responseSlots = l.responseSlots := by
  cases h <;> exact ⟨rfl, rfl⟩

/-- A posting keeps the balance. A duplicate is turned away only while its namesake waits, and that
one holds a slot that is not forfeited. -/
theorem Balanced.step (hb : l.Balanced forfeits) (h : Posts posting l l') :
    l'.Balanced (forfeits + if posting = .forfeit then 1 else 0) := by
  obtain ⟨hrequests, hreserved, hbalance, hforfeits⟩ := hb
  cases h with
  | quiet => exact ⟨hrequests, hreserved, hbalance, hforfeits⟩
  | refuse => exact ⟨hrequests, hreserved, hbalance, hforfeits⟩
  | forfeit hretry hslot hwaiting =>
    rw [if_pos rfl]
    refine ⟨hrequests, hslot, ?_, ?_⟩
    · change l.waiting + l.responses + (forfeits + 1) = l.reserved + 1
      omega
    · -- The namesake holds a slot of its own, so a slot is left that is not forfeited.
      change forfeits + 1 < l.responseSlots
      omega
  | enterSilent hretry hroom => exact ⟨hroom, hreserved, hbalance, hforfeits⟩
  | enterAnswered hretry hroom hslot =>
    refine ⟨hroom, hslot, ?_, hforfeits⟩
    change l.waiting + 1 + l.responses + forfeits = l.reserved + 1
    omega
  | @answer _ waiting hwaiting hroom =>
    refine ⟨hrequests, hreserved, ?_, hforfeits⟩
    change waiting + (l.responses + 1) + forfeits = l.reserved
    omega
  | overflow hwaiting hfull => omega
  | @requestLeaves _ requests hdeparts =>
    refine ⟨?_, hreserved, hbalance, hforfeits⟩
    change requests ≤ l.requestSlots
    omega
  | @responseLeaves _ responses reserved hresponses hslots =>
    refine ⟨hrequests, ?_, ?_, hforfeits⟩
    · change reserved ≤ l.responseSlots
      omega
    · change l.waiting + responses + forfeits = reserved
      omega
  | unreserved hresponses hslots => omega

/-- With the slots in balance a response finds room when it comes. -/
theorem Balanced.not_overflow (hb : l.Balanced forfeits) : ¬ Posts .overflow l l' := by
  intro h
  obtain ⟨-, hreserved, hbalance, -⟩ := hb
  cases h
  omega

/-- With the slots in balance a response finds its slot when it departs. -/
theorem Balanced.not_unreserved (hb : l.Balanced forfeits) : ¬ Posts .unreserved l l' := by
  intro h
  obtain ⟨-, -, hbalance, -⟩ := hb
  cases h
  omega

/-- The ledger of a bridge that has done nothing yet. -/
def initial (c : BridgeConfig) : Ledger where
  requestSlots := c.requestCapacity.toNat
  responseSlots := c.responseCapacity.toNat
  requests := 0
  responses := 0
  waiting := 0
  reserved := 0
  retry := .idle

end Ledger

namespace BridgeConfig

/-- Settings that are accepted have slots in both queues. -/
theorem capacity_pos {c : BridgeConfig} (valid : c.validate = .ok ()) :
    0 < c.requestCapacity.toNat ∧ 0 < c.responseCapacity.toNat := by
  rw [validate] at valid
  split at valid
  · contradiction
  · rename_i hrequest
    split at valid
    · contradiction
    · rename_i hresponse
      exact ⟨Nat.pos_of_ne_zero fun h => hrequest (UInt64.toNat_inj.1 h),
        Nat.pos_of_ne_zero fun h => hresponse (UInt64.toNat_inj.1 h)⟩

theorem balanced_initial {c : BridgeConfig} (valid : c.validate = .ok ()) :
    (Ledger.initial c).Balanced 0 :=
  ⟨Nat.zero_le _, Nat.zero_le _, rfl, (capacity_pos valid).2⟩

end BridgeConfig

/-- The number of requests that were turned away after a slot had been reserved for them. -/
def Turn.forfeits {υ δ : Type} (log : List (Turn υ δ)) : Nat :=
  log.countP fun turn => turn.posting = .forfeit

namespace Turn

variable {υ δ : Type} {turn : Turn υ δ}

theorem forfeits_concat (log : List (Turn υ δ)) (turn : Turn υ δ) :
    forfeits (log ++ [turn]) = forfeits log + if turn.posting = .forfeit then 1 else 0 := by
  rw [forfeits, List.countP_append, List.countP_singleton]
  simp [forfeits]

/-- Slots are forfeited to duplicates only. -/
theorem duplicate_of_forfeit (h : turn.posting = .forfeit) :
    ∃ packet id, turn.operation = .submit packet ∧ turn.answer = .error (.duplicateRequest id) := by
  rw [posting] at h
  split at h
  next => exact absurd h (Posting.ofSend_ne_forfeit _ _ _)
  next => exact absurd h (Posting.ofSend_ne_forfeit _ _ _)
  next => contradiction
  next => contradiction
  next packet id hoperation hanswer => exact ⟨packet, id, hoperation, hanswer⟩
  all_goals contradiction

theorem posting_of_overflow {direction : Direction} {capacity : Nat}
    (h : turn.answer = .error (.queueOverflow direction capacity)) : turn.posting = .overflow := by
  rw [posting, h]
  cases turn.operation <;> rfl

theorem posting_of_unreserved (h : turn.answer = .error .unreservedResponse) :
    turn.posting = .unreserved := by
  rw [posting, h]
  cases turn.operation <;> rfl

end Turn

namespace Bridge

variable {υ δ : Type} {c : BridgeConfig} {log : List (Turn υ δ)} {b : Bridge υ δ}

theorem Fresh.ledger_eq (h : b.Fresh c) : b.ledger = Ledger.initial c := by
  simp only [ledger, h.requests, h.responses, h.table, h.reserved, h.retry]
  rfl

/-- The invariant of runs of a bridge of the settings `c`: the slots are those of the settings and add
up, and no call has found its credit missing. -/
structure Credited (c : BridgeConfig) (log : List (Turn υ δ)) (b : Bridge υ δ) : Prop where
  requestSlots : b.ledger.requestSlots = c.requestCapacity.toNat
  responseSlots : b.ledger.responseSlots = c.responseCapacity.toNat
  balanced : b.ledger.Balanced (Turn.forfeits log)
  covered : ∀ turn ∈ log, turn.posting ≠ .overflow ∧ turn.posting ≠ .unreserved

theorem Fresh.credited (h : b.Fresh c) (valid : c.validate = .ok ()) : b.Credited c [] := by
  refine ⟨?_, ?_, ?_, fun _ hturn => absurd hturn List.not_mem_nil⟩
  · rw [h.ledger_eq]; rfl
  · rw [h.ledger_eq]; rfl
  · rw [h.ledger_eq]; exact c.balanced_initial valid

/-- Credit safety at the end of a run with the given record. -/
structure CreditSafe (c : BridgeConfig) (log : List (Turn υ δ)) (b : Bridge υ δ) : Prop where
  requests_le : b.back.requests.size ≤ c.requestCapacity.toNat
  reserved_le : b.front.reserved ≤ c.responseCapacity.toNat
  /-- Each waiting request and each queued response has its slot. -/
  unanswered_le : b.table.size + b.front.responses.size ≤ b.front.reserved
  /-- No other slot is reserved, unless a duplicate was turned away. -/
  unanswered_eq :
    (∀ turn ∈ log, ∀ packet id, turn.operation = .submit packet →
      turn.answer ≠ .error (.duplicateRequest id)) →
    b.table.size + b.front.responses.size = b.front.reserved
  not_overflow : ∀ turn ∈ log, ∀ direction capacity,
    turn.answer ≠ .error (.queueOverflow direction capacity)
  not_unreserved : ∀ turn ∈ log, turn.answer ≠ .error .unreservedResponse

theorem Credited.creditSafe (h : b.Credited c log) : b.CreditSafe c log := by
  obtain ⟨hrequests, hreserved, hbalance, -⟩ := h.balanced
  rw [h.requestSlots] at hrequests
  rw [h.responseSlots] at hreserved
  refine ⟨hrequests, hreserved, ?_, fun hdistinct => ?_, fun turn hturn _ _ hanswer => ?_,
    fun turn hturn hanswer => ?_⟩
  · exact Nat.le_of_add_right_le (Nat.le_of_eq hbalance)
  · have hforfeits : Turn.forfeits log = 0 := by
      refine List.countP_eq_zero.2 fun turn hturn hforfeit => ?_
      obtain ⟨packet, id, hoperation, hanswer⟩ :=
        Turn.duplicate_of_forfeit (of_decide_eq_true hforfeit)
      exact hdistinct turn hturn packet id hoperation hanswer
    rwa [hforfeits] at hbalance
  · exact (h.covered turn hturn).1 (Turn.posting_of_overflow hanswer)
  · exact (h.covered turn hturn).2 (Turn.posting_of_unreserved hanswer)

/-! ### Runs -/

variable [Initiator υ] [Target δ]

theorem Credited.step (h : b.Credited c log) (now : Tick) (operation : Operation υ δ) :
    (b.perform now operation).state.Credited c (log ++ [b.turn now operation]) := by
  have hposts := b.posts_turn now operation
  obtain ⟨hrequestSlots, hresponseSlots⟩ := hposts.slots_eq
  refine ⟨hrequestSlots.trans h.requestSlots, hresponseSlots.trans h.responseSlots, ?_, ?_⟩
  · rw [Turn.forfeits_concat]
    exact h.balanced.step hposts
  · intro turn hturn
    rcases List.mem_append.1 hturn with hturn | hturn
    · exact h.covered turn hturn
    · obtain rfl := List.mem_singleton.1 hturn
      refine ⟨fun heq => ?_, fun heq => ?_⟩
      · rw [heq] at hposts
        exact h.balanced.not_overflow hposts
      · rw [heq] at hposts
        exact h.balanced.not_unreserved hposts

theorem Fresh.credited_after (h : b.Fresh c) (valid : c.validate = .ok ())
    (run : List (Tick × Operation υ δ)) : (b.after run).Credited c (b.record run) :=
  run_induction (P := fun log b => b.Credited c log) (h.credited valid)
    (fun _ _ now operation hb => hb.step now operation) run

/-- A bridge of accepted settings is safe at the end of every run, with whatever agents and packets. -/
theorem exists_creditSafe (name : String) (valid : c.validate = .ok ()) :
    ∃ b : Bridge υ δ, ofConfig name c = .ok b ∧
      ∀ run, (b.after run).CreditSafe c (b.record run) := by
  obtain ⟨b, hb, hfresh⟩ := exists_ofConfig name valid
  exact ⟨b, hb, fun run => (hfresh.credited_after valid run).creditSafe⟩

/-- Settings with room for one request and two responses. -/
def narrow : BridgeConfig := { requestCapacity := 1, responseCapacity := 2 }

/-- A memory that takes every request and answers at once. -/
def readyMemory : Memory := { latency := 0, refuseEvery := 0 }

/-- A read departs, its identity is submitted again, and a third request finds no slot left. -/
def repeatedRead : List (Tick × Operation Generator Memory) :=
  [(0, .bindInitiator {}), (0, .bindTarget readyMemory),
    (0, .submit (.read 1 0 4 0)), (1, .attempt .request), (2, .submit (.read 1 0 4 0)),
    (2, .submit (.read 2 0 4 0))]

theorem creditSafe_repeatedRead :
    ∃ b : Bridge Generator Memory, ofConfig "narrow" narrow = .ok b ∧
      (b.after repeatedRead).CreditSafe narrow (b.record repeatedRead) ∧
      (b.after repeatedRead).ledger =
        { Ledger.initial narrow with waiting := 1, reserved := 2, retry := .pending } := by
  have valid : narrow.validate = .ok () := rfl
  obtain ⟨b, hb, hsafe⟩ : ∃ b : Bridge Generator Memory, _ := exists_creditSafe "narrow" valid
  refine ⟨b, hb, hsafe repeatedRead, ?_⟩
  obtain rfl := Except.ok.inj hb
  rfl

end Bridge

end TimedBridge
