import Mathlib.Data.List.Induction
import TimedBridge.Proofs.Simulation.Account
import TimedBridge.Proofs.Simulation.Performing

/-!
A memory under calls of any kind in any order. What it takes it performs one request at a time, in the
order in which it took them, and it answers each once (`Kept`). Which offers it refuses depends on their
numbers alone, but these wrap at 32 bits, and the offer at which they wrap is refused whatever the period
is (`refuses_ofNat`). So the period divides the refused ones among the first 2^32 - 1 offers and, if it is
a power of two, among all offers (`serves_course`); any other period falls out of step at the wrap
(`not_refuses_everyThird`).
-/

namespace TimedBridge

namespace Memory

/-! ### Calls and runs -/

/-- A call on a memory. -/
inductive Call where
  | offer (packet : Packet)
  | complete
  | atomic (packet : Packet)
  | functional (packet : Packet)
  | takeNewlyAccepted
  | takeOwedRetry

/-- What a call of a run came to. -/
inductive Turn where
  | taken (packet : Packet)
  | refused (packet handedBack : Packet)
  /-- The oldest request in service, if there was one, and what was answered. -/
  | completed (oldest : Option Packet) (answer : Option Packet)
  /-- An access outside time. -/
  | performed (packet : Packet)
  /-- What the memory has to tell was looked at. -/
  | looked
  deriving DecidableEq

/-- Carries out a call. -/
def carry (m : Memory) : Call → Turn × Memory
  | .offer packet =>
    match Target.offerRequest m packet with
    | (m, .accepted) => (.taken packet, m)
    | (m, .refused handedBack) => (.refused packet handedBack, m)
  | .complete => (.completed m.inService.head? m.completeNext.1, m.completeNext.2)
  | .atomic packet => (.performed packet, (Target.atomic m packet).1)
  | .functional packet => (.performed packet, (Target.functional m packet).1)
  | .takeNewlyAccepted => (.looked, m.takeNewlyAccepted.2)
  | .takeOwedRetry => (.looked, m.takeOwedRetry.2)

/-- Whether a call is a timed offer. -/
def Call.isOffer : Call → Bool
  | .offer _ => true
  | _ => false

/-- What the calls of a run came to, and the memory at its end. -/
def course (m : Memory) (calls : List Call) : List Turn × Memory :=
  calls.foldl (fun s call => (s.1 ++ [(s.2.carry call).1], (s.2.carry call).2)) ([], m)

/-- For each offer of a run, whether it was refused. -/
def verdicts (log : List Turn) : List Bool :=
  log.filterMap fun
    | .taken _ => some false
    | .refused .. => some true
    | _ => none

/-- The requests that a run has taken. -/
def taken (log : List Turn) : List Packet :=
  log.filterMap fun
    | .taken packet => some packet
    | _ => none

/-- The requests that a run has completed. -/
def completed (log : List Turn) : List Packet :=
  log.filterMap fun
    | .completed oldest _ => oldest
    | _ => none

/-- What a run has performed: the requests that it has completed, and the accesses outside time. -/
def performedIn (log : List Turn) : List Packet :=
  log.filterMap fun
    | .completed oldest _ => oldest
    | .performed packet => some packet
    | _ => none

/-- What is handed back is what was offered, and a completion answers the oldest request if that expects
an answer. -/
def Turn.Honest : Turn → Prop
  | .refused packet handedBack => handedBack = packet
  | .completed oldest answer =>
    answer.map Packet.id = (oldest.filter Packet.expectsResponse).map Packet.id
  | _ => True

/-! ### Numbers of offers -/

variable {every : UInt32}

/-- The period divides the number of a refused offer, which is counted to 2^32 and then from zero. -/
theorem refuses_ofNat (hevery : every ≠ 0) (n : Nat) :
    Refuses every (UInt32.ofNat n) ↔ every.toNat ∣ n % UInt32.size := by
  rw [Refuses, ← UInt32.toNat_inj, UInt32.toNat_mod, Nat.dvd_iff_mod_eq_zero]
  exact and_iff_right hevery

/-- How many of the first offers are refused: in each round of 2^32 those before the wrap that the period
divides, and the one at which the number wraps. -/
theorem refusalsAmong_eq (hevery : every ≠ 0) (n : Nat) :
    refusalsAmong every n =
      n / UInt32.size * ((UInt32.size - 1) / every.toNat + 1) + n % UInt32.size / every.toNat := by
  induction n with
  | zero => simp [refusalsAmong]
  | succ n ih =>
    rw [refusalsAmong, ih, if_congr (refuses_ofNat hevery (n + 1)) rfl rfl]
    by_cases hwraps : (n + 1) % UInt32.size = 0
    · have hlast : n % UInt32.size = UInt32.size - 1 := by simp only [UInt32.size] at *; omega
      have hround : (n + 1) / UInt32.size = n / UInt32.size + 1 := by
        simp only [UInt32.size] at *; omega
      rw [hwraps, hlast, hround, if_pos (Nat.dvd_zero _), Nat.zero_div, Nat.succ_mul]
      omega
    · have hnext : (n + 1) % UInt32.size = n % UInt32.size + 1 := by
        simp only [UInt32.size] at *; omega
      have hround : (n + 1) / UInt32.size = n / UInt32.size := by simp only [UInt32.size] at *; omega
      rw [hnext, hround, Nat.succ_div, Nat.add_assoc]

/-- A period that divides 2^32 stays in step for ever. -/
theorem refusalsAmong_eq_div_of_dvd (hevery : every ≠ 0) (hround : every.toNat ∣ UInt32.size) (n : Nat) :
    refusalsAmong every n = n / every.toNat := by
  induction n with
  | zero => rw [refusalsAmong, Nat.zero_div]
  | succ n ih =>
    have hdvd : Refuses every (UInt32.ofNat (n + 1)) ↔ every.toNat ∣ n + 1 :=
      (refuses_ofNat hevery (n + 1)).trans (Nat.dvd_mod_iff hround)
    rw [refusalsAmong, ih, Nat.succ_div, if_congr hdvd rfl rfl]

/-! ### What a call does -/

variable {start m m' : Memory} {log : List Turn}

/-- What a call makes of a memory: whether an offer is counted and refused, what passes through the
service, and what is performed. -/
structure Advances (m : Memory) (t : Turn) (m' : Memory) : Prop where
  every : m'.refuseEvery = m.refuseEvery
  offered : m'.offered = m.offered + UInt32.ofNat (verdicts [t]).length
  verdicts : ∀ refused ∈ verdicts [t], refused = decide (Refuses m.refuseEvery (m.offered + 1))
  refusals : m'.refusals = m.refusals + (Memory.verdicts [t]).count true
  order : completed [t] ++ m'.inService = m.inService ++ taken [t]
  bytes : m.Performs (performedIn [t]) m'
  honest : t.Honest

theorem advances_offer (m : Memory) (packet : Packet) :
    m.Advances (m.carry (.offer packet)).1 (m.carry (.offer packet)).2 := by
  by_cases hrefuses : Refuses m.refuseEvery (m.offered + 1)
  · have hcarry : m.carry (.offer packet) =
        (.refused packet packet,
          { m with offered := m.offered + 1, refusals := m.refusals + 1, owesRetry := true }) := by
      rw [carry, show Target.offerRequest m packet = _ from offer_of_refuses hrefuses]
    rw [hcarry]
    refine ⟨rfl, rfl, fun refused hrefused => ?_, rfl, (List.append_nil _).symm, rfl, rfl⟩
    rw [List.mem_singleton.1 hrefused, decide_eq_true hrefuses]
  · have hcarry : m.carry (.offer packet) =
        (.taken packet, { m with
          offered := m.offered + 1
          inService := m.inService ++ [packet]
          newlyAccepted := m.newlyAccepted + 1 }) := by
      rw [carry, show Target.offerRequest m packet = _ from offer_of_takes hrefuses]
    rw [hcarry]
    refine ⟨rfl, rfl, fun refused hrefused => ?_, rfl, rfl, rfl, trivial⟩
    rw [List.mem_singleton.1 hrefused, decide_eq_false hrefuses]

/-- An access outside time changes bytes only. -/
theorem advances_performed (m : Memory) (packet : Packet) :
    m.Advances (.performed packet) (m.perform packet).1 := by
  have hrest := m.perform_eq packet
  refine ⟨by rw [hrest], ?_, List.forall_mem_nil _, by rw [hrest]; rfl, ?_, rfl, trivial⟩
  · rw [hrest]
    exact (UInt32.add_zero _).symm
  · rw [hrest]
    exact (List.append_nil _).symm

theorem advances_complete (m : Memory) :
    m.Advances (m.carry .complete).1 (m.carry .complete).2 := by
  rw [carry]
  cases hservice : m.inService with
  | nil =>
    have hidle : m.completeNext = (none, m) := by rw [completeNext, hservice]
    rw [hidle]
    exact ⟨rfl, (UInt32.add_zero _).symm, List.forall_mem_nil _, rfl, (List.append_nil _).symm, rfl, rfl⟩
  | cons packet rest =>
    have hperformed := advances_performed { m with inService := rest } packet
    have hbytes : ({ m with inService := rest }.perform packet).1.bytes = (m.perform packet).1.bytes :=
      bytes_perform_congr (show { m with inService := rest }.bytes = m.bytes from rfl) packet
    have hid := id_perform { m with inService := rest } packet
    rw [Simulation.completeNext_cons hservice]
    refine ⟨hperformed.every, hperformed.offered, List.forall_mem_nil _, hperformed.refusals, ?_, hbytes,
      ?_⟩
    · rw [hservice, inService_perform]
      exact (List.append_nil _).symm
    · rw [List.head?_cons, Turn.Honest, Option.filter_some]
      split
      · exact congrArg some hid
      · rfl

theorem advances_carry (m : Memory) (call : Call) :
    m.Advances (m.carry call).1 (m.carry call).2 := by
  cases call with
  | offer packet => exact advances_offer m packet
  | complete => exact advances_complete m
  | atomic packet => exact advances_performed m packet
  | functional packet => exact advances_performed m packet
  | takeNewlyAccepted | takeOwedRetry =>
    exact ⟨rfl, (UInt32.add_zero _).symm, List.forall_mem_nil _, rfl, (List.append_nil _).symm, rfl,
      trivial⟩

/-! ### What a run does -/

/-- A fresh memory after the calls in `log`. -/
structure Kept (start : Memory) (log : List Turn) (m : Memory) : Prop where
  every : m.refuseEvery = start.refuseEvery
  offered : m.offered = UInt32.ofNat (verdicts log).length
  verdicts : ∀ (i : Nat) refused, (verdicts log)[i]? = some refused →
    refused = decide (Refuses start.refuseEvery (UInt32.ofNat (i + 1)))
  refusals : m.refusals = (Memory.verdicts log).count true
  /-- What has been completed and what is in service is what was taken, in this order. -/
  order : completed log ++ m.inService = taken log
  bytes : start.Performs (performedIn log) m
  honest : ∀ t ∈ log, t.Honest

theorem verdicts_append (log log' : List Turn) :
    verdicts (log ++ log') = verdicts log ++ verdicts log' :=
  List.filterMap_append

theorem course_concat (m : Memory) (calls : List Call) (call : Call) :
    course m (calls ++ [call]) =
      ((course m calls).1 ++ [((course m calls).2.carry call).1], ((course m calls).2.carry call).2) := by
  rw [course, List.foldl_append]
  rfl

/-- A call has a verdict if it is an offer. -/
theorem length_verdicts_carry (m : Memory) (call : Call) :
    (verdicts [(m.carry call).1]).length = if call.isOffer then 1 else 0 := by
  cases call with
  | offer packet =>
    rw [carry]
    rcases Target.offerRequest m packet with ⟨m', _ | back⟩
    · rfl
    · rfl
  | _ => rfl

/-- In a run, each offer has a verdict. -/
theorem length_verdicts_course (m : Memory) (calls : List Call) :
    (verdicts (course m calls).1).length = calls.countP Call.isOffer := by
  induction calls using List.reverseRecOn with
  | nil => rfl
  | append_singleton calls call ih =>
    rw [course_concat, verdicts_append, List.length_append, ih, length_verdicts_carry,
      List.countP_append, List.countP_singleton]

/-- A call keeps the memory's books. -/
theorem Kept.carry (h : Kept start log m) (call : Call) :
    Kept start (log ++ [(m.carry call).1]) (m.carry call).2 := by
  have hadvances := m.advances_carry call
  have hone : (Memory.verdicts [(m.carry call).1]).length ≤ 1 := by
    rw [length_verdicts_carry]
    split <;> decide
  generalize (m.carry call).1 = t, (m.carry call).2 = m' at hadvances hone
  have hverdicts := verdicts_append log [t]
  have hcompleted : completed (log ++ [t]) = completed log ++ completed [t] := List.filterMap_append
  have htaken : taken (log ++ [t]) = taken log ++ taken [t] := List.filterMap_append
  have hperformed : performedIn (log ++ [t]) = performedIn log ++ performedIn [t] :=
    List.filterMap_append
  refine ⟨hadvances.every.trans h.every, ?_, ?_, ?_, ?_, ?_, ?_⟩
  · rw [hadvances.offered, h.offered, hverdicts, List.length_append, UInt32.ofNat_add]
  · intro i refused hi
    rw [hverdicts, List.getElem?_append] at hi
    split at hi
    next => exact h.verdicts i refused hi
    next hlater =>
      have hlt := (List.getElem?_eq_some_iff.1 hi).1
      have hlast : i = (Memory.verdicts log).length := by omega
      rw [hadvances.verdicts refused (List.mem_of_getElem? hi), h.every, h.offered, hlast,
        UInt32.ofNat_add]
      rfl
  · rw [hadvances.refusals, h.refusals, hverdicts, List.count_append]
  · rw [hcompleted, htaken, List.append_assoc, hadvances.order, ← List.append_assoc, h.order]
  · rw [hperformed]
    exact h.bytes.append hadvances.bytes
  · exact List.forall_mem_append.2 ⟨h.honest, List.forall_mem_singleton.2 hadvances.honest⟩

theorem kept_course (latency : Tick) (every : UInt32) (calls : List Call) :
    Kept { latency, refuseEvery := every } (course { latency, refuseEvery := every } calls).1
      (course { latency, refuseEvery := every } calls).2 := by
  induction calls using List.reverseRecOn with
  | nil => exact ⟨rfl, rfl, nofun, rfl, rfl, rfl, List.forall_mem_nil _⟩
  | append_singleton calls call ih =>
    rw [course_concat]
    exact ih.carry call

/-- The verdicts on the first offers hold as many refusals as the period makes among them. -/
theorem count_eq_refusalsAmong {refusals : List Bool}
    (h : ∀ (i : Nat) refused, refusals[i]? = some refused →
      refused = decide (Refuses every (UInt32.ofNat (i + 1)))) :
    refusals.count true = refusalsAmong every refusals.length := by
  induction refusals using List.reverseRecOn with
  | nil => rfl
  | append_singleton refusals last ih =>
    have hlast := h refusals.length last List.getElem?_concat_length
    have hearlier : ∀ (i : Nat) refused, refusals[i]? = some refused →
        refused = decide (Refuses every (UInt32.ofNat (i + 1))) := fun i refused hi =>
      h i refused ((List.getElem?_append_left (List.getElem?_eq_some_iff.1 hi).1).trans hi)
    rw [List.count_append, ih hearlier, List.length_append, List.length_singleton, refusalsAmong, hlast]
    by_cases hrefuses : Refuses every (UInt32.ofNat (refusals.length + 1))
    · rw [decide_eq_true hrefuses, if_pos hrefuses]
      rfl
    · rw [decide_eq_false hrefuses, if_neg hrefuses]
      rfl

/-- Until the numbers wrap, and for ever with a period that divides 2^32, a memory is in step with its
period. -/
def InStep (every : UInt32) (count : Nat) : Prop := count < UInt32.size ∨ every.toNat ∣ UInt32.size

/-- What a memory of a period has done after the calls in `log`. -/
structure Serves (start : Memory) (every : UInt32) (log : List Turn) (m : Memory) : Prop where
  /-- The offers are numbered to 2^32 and then from zero. Those whose numbers the period divides are
  refused. -/
  refused_iff : ∀ (i : Nat) refused, (verdicts log)[i]? = some refused →
    (refused = true ↔ every.toNat ∣ (i + 1) % UInt32.size)
  refused_inStep : ∀ (i : Nat) refused, (verdicts log)[i]? = some refused → InStep every (i + 1) →
    (refused = true ↔ every.toNat ∣ i + 1)
  refusals : m.refusals = (verdicts log).count true
  count : (verdicts log).count true =
    (verdicts log).length / UInt32.size * ((UInt32.size - 1) / every.toNat + 1) +
      (verdicts log).length % UInt32.size / every.toNat
  count_inStep : InStep every (verdicts log).length →
    (verdicts log).count true = (verdicts log).length / every.toNat
  /-- Two offers in a row are refused only if the second one wraps, or if all are. -/
  apart : every ≠ 1 → ∀ i : Nat, (verdicts log)[i]? = some true → (verdicts log)[i + 1]? = some true →
    UInt32.size ∣ i + 2
  /-- What has been completed and what is in service is what was taken, in this order. -/
  order : completed log ++ m.inService = taken log
  /-- Each request is performed as it completes. -/
  bytes : start.Performs (performedIn log) m
  honest : ∀ t ∈ log, t.Honest

theorem Kept.serves (h : Kept start log m) (hevery : start.refuseEvery ≠ 0) :
    Serves start start.refuseEvery log m := by
  have hrefused : ∀ (i : Nat) refused, (Memory.verdicts log)[i]? = some refused →
      (refused = true ↔ start.refuseEvery.toNat ∣ (i + 1) % UInt32.size) := fun i refused hi => by
    rw [h.verdicts i refused hi, decide_eq_true_iff, refuses_ofNat hevery]
  have hcount := count_eq_refusalsAmong h.verdicts
  refine ⟨hrefused, ?_, h.refusals, hcount.trans (refusalsAmong_eq hevery _), ?_, ?_, h.order, h.bytes,
    h.honest⟩
  · rintro i refused hi (hsmall | hround)
    · rw [hrefused i refused hi, Nat.mod_eq_of_lt hsmall]
    · rw [hrefused i refused hi, Nat.dvd_mod_iff hround]
  · rintro (hsmall | hround)
    · exact hcount.trans (refusalsAmong_eq_div _ hsmall)
    · exact hcount.trans (refusalsAmong_eq_div_of_dvd hevery hround _)
  · intro hone i hfirst hsecond
    have hdvd := (hrefused i true hfirst).1 rfl
    have hdvd' := (hrefused (i + 1) true hsecond).1 rfl
    by_contra hwraps
    have hnext : (i + 2) % UInt32.size = (i + 1) % UInt32.size + 1 := by
      rw [Nat.dvd_iff_mod_eq_zero] at hwraps
      simp only [UInt32.size] at *
      omega
    rw [show i + 1 + 1 = i + 2 from rfl, hnext] at hdvd'
    have hunit := Nat.eq_one_of_dvd_one ((Nat.dvd_add_right hdvd).1 hdvd')
    exact hone (UInt32.toNat_inj.1 hunit)

/-- A fresh memory refuses offers by their numbers, and completes what it takes in order. -/
theorem serves_course (latency : Tick) {every : UInt32} (hevery : every ≠ 0) (calls : List Call) :
    (verdicts (course { latency, refuseEvery := every } calls).1).length = calls.countP Call.isOffer ∧
      Serves { latency, refuseEvery := every } every
        (course { latency, refuseEvery := every } calls).1
        (course { latency, refuseEvery := every } calls).2 :=
  ⟨length_verdicts_course _ calls, (kept_course latency every calls).serves hevery⟩

/-- Four requests for a memory that refuses every third one, with a completion and a write between. -/
def fourOffers : List Call := [.offer (.read 1 0 4 0), .offer (.write 2 0 [1] 0), .complete,
  .functional (.write 3 0 [2] 0), .offer (.read 4 0 4 0), .offer (.read 5 0 4 0), .complete]

theorem serves_fourOffers :
    (3 : UInt32) ≠ 0 ∧
      verdicts (course { latency := 0, refuseEvery := 3 } fourOffers).1 = [false, false, true, false] ∧
      (completed (course { latency := 0, refuseEvery := 3 } fourOffers).1).map Packet.id = [1, 2] ∧
      Serves { latency := 0, refuseEvery := 3 } 3 (course { latency := 0, refuseEvery := 3 } fourOffers).1
        (course { latency := 0, refuseEvery := 3 } fourOffers).2 := by
  have hevery : (3 : UInt32) ≠ 0 := by decide
  exact ⟨hevery, rfl, rfl, (serves_course 0 hevery fourOffers).2⟩

/-! ### The wrap -/

/-- Requests that are offered one by one, each time with a completion behind the offer. -/
def turnover (count : Nat) : List Call :=
  (List.replicate count [Call.offer (.read 1 0 4 0), .complete]).flatten

theorem countP_turnover (count : Nat) : (turnover count).countP Call.isOffer = count := by
  simp [turnover, List.countP_flatten, List.countP_cons, Call.isOffer]

/-- The offers that are refused are not always those whose numbers the period divides. A memory that
refuses every third offer also refuses number 2^32, at which the count wraps. -/
theorem not_refuses_everyThird :
    ¬ ∀ (latency : Tick) (every : UInt32) (calls : List Call), every ≠ 0 →
      ∀ (i : Nat) refused,
        (verdicts (course { latency, refuseEvery := every } calls).1)[i]? = some refused →
          (refused = true ↔ every.toNat ∣ i + 1) := by
  intro hall
  have hkept := kept_course 0 3 (turnover UInt32.size)
  have hthird := hall 0 3 (turnover UInt32.size) (by decide) (UInt32.size - 1)
  have hlength := (length_verdicts_course { latency := 0, refuseEvery := 3 } _).trans
    (countP_turnover UInt32.size)
  generalize course { latency := 0, refuseEvery := 3 } (turnover UInt32.size) = run at *
  have hlast : UInt32.size - 1 < (verdicts run.1).length := by
    rw [hlength]
    decide
  have hwrap := hkept.verdicts _ _ (List.getElem?_eq_getElem hlast)
  have hrefused : Refuses 3 (UInt32.ofNat (UInt32.size - 1 + 1)) := by decide
  have hdivides := (hthird _ (List.getElem?_eq_getElem hlast)).1 (hwrap.trans (decide_eq_true hrefused))
  exact absurd hdivides (by decide)

end Memory

end TimedBridge
