import TimedBridge.Proofs.Bridge.Retry
import TimedBridge.Proofs.Simulation.Flow

/-!
The books of a simulation. Each access ends in one of four bins: it goes through the queues, it is made
at once in one of two ways, or it is dropped. The account keeps what a report counts beside what is
still to be counted. A simulation changes it in nine ways (`Account.Moves`), and each of them leaves the
two sides adding up (`Account.Moves.reckoned`).
-/

namespace TimedBridge

/-! ### Bins -/

/-- What becomes of an access. -/
inductive Bin where
  /-- It goes through the queues. -/
  | timed
  | atomic
  | functional
  | unroutable
  deriving DecidableEq, Repr

/-- The bin of an access that is `covered` by the ranges that the bridge serves, or is not. -/
def Bin.of (covered : Bool) (mode : AccessMode) : Bin :=
  if covered then
    match mode with
    | .timing => .timed
    | .atomic => .atomic
    | .functional => .functional
  else .unroutable

theorem Bin.of_eq (covered : Bool) (mode other : AccessMode) :
    decide (Bin.of covered mode = Bin.of true other) = (covered && decide (mode = other)) := by
  cases covered <;> cases mode <;> cases other <;> rfl

theorem Bin.of_eq_unroutable (covered : Bool) (mode : AccessMode) :
    decide (Bin.of covered mode = .unroutable) = !covered := by
  cases covered <;> cases mode <;> rfl

namespace Report

/-- What a report has counted in a bin. -/
def tally (r : Report) : Bin → Nat
  | .timed => r.issued
  | .atomic => r.atomic
  | .functional => r.functional
  | .unroutable => r.unroutable

/-- The report with one more access in a bin. -/
def tallied (r : Report) : Bin → Report
  | .timed => { r with issued := r.issued + 1 }
  | .atomic => { r with atomic := r.atomic + 1 }
  | .functional => { r with functional := r.functional + 1 }
  | .unroutable => { r with unroutable := r.unroutable + 1 }

/-- The report with one more response, which took `latency` to come. -/
def completing (r : Report) (latency : Tick) : Report :=
  { r with
    completed := r.completed + 1
    totalLatency := cappedAdd r.totalLatency latency
    maxLatency := max r.maxLatency latency }

variable (r : Report) (bin : Bin)

theorem tally_tallied (other : Bin) :
    (r.tallied bin).tally other = r.tally other + if bin = other then 1 else 0 := by
  cases bin <;> cases other <;> rfl

/-- The total of the latencies stays within the bound that the largest one gives. -/
theorem totalLatency_completing {r : Report} (latency : Tick)
    (h : r.totalLatency.toNat ≤ r.completed * r.maxLatency.toNat) :
    (r.completing latency).totalLatency.toNat ≤
      (r.completing latency).completed * (r.completing latency).maxLatency.toNat := by
  have hmax : (max r.maxLatency latency).toNat = max r.maxLatency.toNat latency.toNat := toNat_max ..
  have hold := Nat.mul_le_mul_left r.completed (Nat.le_max_left r.maxLatency.toNat latency.toNat)
  have hnew := Nat.le_max_right r.maxLatency.toNat latency.toNat
  simp only [completing, hmax, toNat_cappedAdd, Nat.add_mul, Nat.one_mul]
  omega

end Report

/-! ### Offers to the memory -/

namespace Memory

/-- How many of the first `count` offers a memory refuses. -/
def refusalsAmong (refuseEvery : UInt32) : Nat → Nat
  | 0 => 0
  | count + 1 =>
    refusalsAmong refuseEvery count + if Refuses refuseEvery (UInt32.ofNat (count + 1)) then 1 else 0

variable {refuseEvery : UInt32} {n : Nat}

/-- Until the numbers wrap, the period divides those of the offers that are refused. -/
theorem refuses_ofNat_iff (hpos : 0 < n) (hn : n < UInt32.size) :
    Refuses refuseEvery (UInt32.ofNat n) ↔ refuseEvery.toNat ∣ n := by
  have htoNat : (UInt32.ofNat n).toNat = n := by
    rw [UInt32.toNat_ofNat']
    exact Nat.mod_eq_of_lt hn
  rw [Refuses, ← UInt32.toNat_inj, UInt32.toNat_mod, htoNat, Nat.dvd_iff_mod_eq_zero]
  refine and_iff_right_of_imp fun hzero heq => ?_
  rw [heq, show (0 : UInt32).toNat = 0 from rfl, Nat.mod_zero] at hzero
  omega

theorem refusalsAmong_never (n : Nat) : refusalsAmong 0 n = 0 := by
  induction n with
  | zero => rfl
  | succ n ih => rw [refusalsAmong, ih, if_neg fun hrefuses => hrefuses.1 rfl]

theorem refusalsAmong_eq_div (refuseEvery : UInt32) (hn : n < UInt32.size) :
    refusalsAmong refuseEvery n = n / refuseEvery.toNat := by
  induction n with
  | zero => rw [refusalsAmong, Nat.zero_div]
  | succ n ih =>
    rw [refusalsAmong, ih (by omega), Nat.succ_div]
    exact congrArg _ (if_congr (refuses_ofNat_iff (Nat.succ_pos n) hn) rfl rfl)

end Memory

/-! ### The account -/

/-- What a simulation has counted, and what it has still to count. -/
structure Account where
  ranges : List AddressRange
  refuseEvery : UInt32
  /-- The bins of the accesses not yet issued, with their tickets. -/
  pending : List (Bin × Ticket)
  /-- The number of requests that wait for the memory. -/
  queued : Nat
  /-- The identities that wait for a response. -/
  waiting : List RequestId
  /-- The identities of the responses that are on their way back or have arrived. -/
  returning : List RequestId
  /-- The identities of the timed accesses whose latency is being taken. -/
  expected : List RequestId
  /-- Whether the generator is owed a retry. -/
  retry : RetryState
  /-- The number of retries that the generator has got. -/
  retries : Nat
  /-- The number of the last offer to the memory. -/
  offered : UInt32
  /-- The number of requests that the memory has refused. -/
  refusals : Nat
  report : Report

namespace Account

/-- What can happen to the account. -/
inductive Moves (v : Account) : Account → Prop
  /-- The next access is dropped or made at once. -/
  | made {bin : Bin} {k : Ticket} {rest : List (Bin × Ticket)} (latency : Tick)
      (hpending : v.pending = (bin, k) :: rest) (hbin : bin ≠ .timed) :
      Moves v
        { v with
          pending := rest
          report := { v.report.tallied bin with maxAtomicLatency := latency } }
  /-- The next access is let in. -/
  | admitted {k : Ticket} {rest : List (Bin × Ticket)} (hpending : v.pending = (.timed, k) :: rest) :
      Moves v
        { v with
          pending := rest
          queued := v.queued + 1
          waiting := if k.answered then v.waiting ++ [k.id] else v.waiting
          expected := if k.answered then v.expected ++ [k.id] else v.expected
          report := v.report.tallied .timed }
  /-- The next access is handed back. -/
  | refused (hretry : v.retry = .idle) :
      Moves v
        { v with retry := .pending, report := { v.report with refused := v.report.refused + 1 } }
  /-- The generator gets the retry that it is owed. -/
  | retried (hretry : v.retry = .pending) :
      Moves v { v with retry := .idle, retries := v.retries + 1 }
  | taken {queued : Nat} (hqueued : v.queued = queued + 1)
      (htakes : ¬ Memory.Refuses v.refuseEvery (v.offered + 1)) :
      Moves v { v with offered := v.offered + 1, queued }
  /-- The memory refuses a request, which stays queued. -/
  | balked (hqueued : 0 < v.queued) (hrefuses : Memory.Refuses v.refuseEvery (v.offered + 1)) :
      Moves v { v with offered := v.offered + 1, refusals := v.refusals + 1 }
  | answered {id : RequestId} (hid : id ∈ v.waiting) :
      Moves v { v with waiting := v.waiting.filter (· != id), returning := v.returning ++ [id] }
  /-- A response is counted. -/
  | counted {id : RequestId} {rest : List RequestId} (latency : Tick)
      (hreturning : v.returning = id :: rest) (hid : id ∈ v.expected) :
      Moves v
        { v with
          returning := rest
          expected := v.expected.filter (· != id)
          report := v.report.completing latency }
  /-- A response comes whose access is not known. -/
  | ignored {id : RequestId} {rest : List RequestId} (hreturning : v.returning = id :: rest)
      (hid : id ∉ v.expected) : Moves v { v with returning := rest }

/-! ### Accesses -/

/-- The access goes through the queues and will be answered. -/
def completes (e : Bin × Ticket) : Bool := e.1 = .timed && e.2.answered

/-- What has been counted and what is still to be counted are the accesses that there were in the
beginning. -/
structure Tallied (first : List (Bin × Ticket)) (v : Account) : Prop where
  tally : ∀ bin, v.report.tally bin + v.pending.countP (·.1 = bin) = first.countP (·.1 = bin)
  completed : v.report.completed + v.expected.length + v.pending.countP completes =
    first.countP completes

/-- No two accesses that are not completed have one identity, and a response is on its way or will be
made exactly for those whose latency is being taken. -/
structure Paired (v : Account) : Prop where
  distinct : (v.expected ++ v.pending.map fun e => e.2.id).Nodup
  known : v.expected.Perm (v.waiting ++ v.returning)

variable {first : List (Bin × Ticket)} {v v' : Account}

theorem perm_cons_filter {id : RequestId} {ids : List RequestId} (hdistinct : ids.Nodup)
    (hid : id ∈ ids) : ids.Perm (id :: ids.filter (· != id)) := by
  rw [← hdistinct.erase_eq_filter]
  exact List.perm_cons_erase hid

theorem Paired.nodup_expected (h : v.Paired) : v.expected.Nodup :=
  (List.nodup_append.1 h.distinct).1

theorem Paired.nodup_waiting (h : v.Paired) : v.waiting.Nodup :=
  (List.nodup_append.1 (h.known.nodup_iff.1 h.nodup_expected)).1

/-- A response that is on its way is expected. -/
theorem Paired.mem_expected (h : v.Paired) {id : RequestId} {rest : List RequestId}
    (hreturning : v.returning = id :: rest) : id ∈ v.expected := by
  rw [h.known.mem_iff, hreturning]
  simp

theorem Moves.paired (hmoves : v.Moves v') (h : v.Paired) : v'.Paired := by
  have hdistinct := h.distinct
  have hknown := h.known
  cases hmoves with
  | made latency hpending hbin =>
    rw [hpending] at hdistinct
    exact ⟨hdistinct.sublist ((List.sublist_cons_self ..).append_left _), hknown⟩
  | @admitted k rest hpending =>
    rw [hpending] at hdistinct
    cases hanswered : k.answered with
    | false =>
      refine ⟨?_, by simpa using hknown⟩
      simpa using hdistinct.sublist ((List.sublist_cons_self ..).append_left _)
    | true =>
      refine ⟨by simpa using hdistinct, ?_⟩
      have hlast : (v.waiting ++ v.returning ++ [k.id]).Perm (v.waiting ++ [k.id] ++ v.returning) := by
        rw [List.append_assoc, List.append_assoc]
        exact List.perm_append_comm.append_left v.waiting
      simpa using (hknown.append_right [k.id]).trans hlast
  | refused => exact ⟨hdistinct, hknown⟩
  | retried => exact ⟨hdistinct, hknown⟩
  | taken => exact ⟨hdistinct, hknown⟩
  | balked => exact ⟨hdistinct, hknown⟩
  | @answered id hid =>
    have hmoved := (perm_cons_filter h.nodup_waiting hid).append_right v.returning
    have hlast : (id :: (v.waiting.filter (· != id) ++ v.returning)).Perm
        (v.waiting.filter (· != id) ++ (v.returning ++ [id])) := by
      rw [← List.append_assoc]
      exact (List.perm_append_singleton _ _).symm
    exact ⟨hdistinct, hknown.trans (hmoved.trans hlast)⟩
  | @counted id rest latency hreturning hid =>
    refine ⟨hdistinct.sublist (List.filter_sublist.append_right _), ?_⟩
    rw [hreturning] at hknown
    have hcounted := (perm_cons_filter h.nodup_expected hid).symm.trans (hknown.trans List.perm_middle)
    exact hcounted.cons_inv
  | ignored hreturning hid => exact absurd (h.mem_expected hreturning) hid

theorem Moves.tallied (hmoves : v.Moves v') (hpaired : v.Paired) (h : v.Tallied first) :
    v'.Tallied first := by
  obtain ⟨htally, hcompleted⟩ := h
  cases hmoves with
  | @made bin k rest latency hpending hbin =>
    rw [hpending] at htally hcompleted
    have hsame : completes (bin, k) = false := by simp [completes, hbin]
    rw [List.countP_cons_of_neg (by simp [hsame])] at hcompleted
    refine ⟨fun other => ?_, by cases bin <;> exact hcompleted⟩
    have htallied : { v.report.tallied bin with maxAtomicLatency := latency }.tally other =
        v.report.tally other + if bin = other then 1 else 0 := by
      rw [← v.report.tally_tallied bin other]
      cases other <;> rfl
    rw [← htally other, List.countP_cons, htallied]
    simp only [decide_eq_true_eq]
    omega
  | @admitted k rest hpending =>
    rw [hpending] at htally hcompleted
    refine ⟨fun other => ?_, ?_⟩
    · rw [← htally other, List.countP_cons, v.report.tally_tallied .timed other]
      simp only [decide_eq_true_eq]
      omega
    · rw [← hcompleted, List.countP_cons]
      cases hanswered : k.answered with
      | false => simp [completes, hanswered, Report.tallied]
      | true =>
        simp only [completes, hanswered, Report.tallied, if_true, List.length_append,
          List.length_singleton, decide_true, Bool.and_self]
        omega
  | refused => exact ⟨htally, hcompleted⟩
  | retried => exact ⟨htally, hcompleted⟩
  | taken => exact ⟨htally, hcompleted⟩
  | balked => exact ⟨htally, hcompleted⟩
  | answered => exact ⟨htally, hcompleted⟩
  | @counted id rest latency hreturning hid =>
    have hlength := (perm_cons_filter hpaired.nodup_expected hid).length_eq
    rw [List.length_cons] at hlength
    refine ⟨htally, ?_⟩
    simp only [Report.completing]
    omega
  | ignored => exact ⟨htally, hcompleted⟩

/-! ### Retries and latencies -/

/-- Each refusal has been followed by a retry, but for one whose retry is owed. -/
theorem Moves.refused_eq (hmoves : v.Moves v') (h : v.report.refused = v.retries + v.retry.owed) :
    v'.report.refused = v'.retries + v'.retry.owed := by
  cases hmoves with
  | @made bin => cases bin <;> exact h
  | refused hretry => simp [h, hretry, RetryState.owed]
  | retried hretry => simp [h, hretry, RetryState.owed]
  | _ => exact h

theorem Moves.latency_le (hmoves : v.Moves v')
    (h : v.report.totalLatency.toNat ≤ v.report.completed * v.report.maxLatency.toNat) :
    v'.report.totalLatency.toNat ≤ v'.report.completed * v'.report.maxLatency.toNat := by
  cases hmoves with
  | @made bin => cases bin <;> exact h
  | counted latency => exact Report.totalLatency_completing latency h
  | _ => exact h

/-! ### Offers -/

/-- The memory has got `n` offers. The requests that it has taken and those that wait are the ones that
have been let in, and a request that it refused last is still waiting. -/
structure Offered (v : Account) (n : Nat) : Prop where
  number : v.offered = UInt32.ofNat n
  refusals : v.refusals = Memory.refusalsAmong v.refuseEvery n
  taken : v.report.issued + v.refusals = n + v.queued
  started : 0 < n → 0 < v.report.issued
  waits : 0 < n → Memory.Refuses v.refuseEvery (UInt32.ofNat n) → 0 < v.queued

theorem Offered.issued_pos {n : Nat} (h : v.Offered n) (hqueued : 0 < v.queued) :
    0 < v.report.issued := by
  rcases Nat.eq_zero_or_pos n with rfl | hpos
  · have hrefusals : v.refusals = 0 := h.refusals
    have htaken := h.taken
    omega
  · exact h.started hpos

theorem Moves.offered (hmoves : v.Moves v') (h : ∃ n, v.Offered n) : ∃ n, v'.Offered n := by
  obtain ⟨n, hoffered⟩ := h
  have hissued := hoffered.issued_pos
  obtain ⟨hnumber, hrefusals, htaken, hstarted, hwaits⟩ := hoffered
  cases hmoves with
  | @made bin k rest latency hpending hbin =>
    have hsame : (v.report.tallied bin).issued = v.report.issued := by
      cases bin with
      | timed => contradiction
      | _ => rfl
    refine ⟨n, hnumber, hrefusals, ?_, ?_, hwaits⟩
    · simpa only [hsame] using htaken
    · simpa only [hsame] using hstarted
  | admitted =>
    refine ⟨n, hnumber, hrefusals, ?_, fun _ => Nat.succ_pos _, fun _ _ => Nat.succ_pos _⟩
    simp only [Report.tallied]
    omega
  | taken hqueued htakes =>
    have hnext : v.offered + 1 = UInt32.ofNat (n + 1) := by
      rw [hnumber, UInt32.ofNat_add]
      rfl
    rw [hnext] at htakes
    refine ⟨n + 1, hnext, ?_, ?_, fun _ => hissued (by omega), fun _ hrefuses => absurd hrefuses htakes⟩
    · rw [Memory.refusalsAmong, if_neg htakes]
      exact hrefusals
    · simp only
      omega
  | balked hqueued hrefuses =>
    have hnext : v.offered + 1 = UInt32.ofNat (n + 1) := by
      rw [hnumber, UInt32.ofNat_add]
      rfl
    rw [hnext] at hrefuses
    refine ⟨n + 1, hnext, ?_, ?_, fun _ => hissued hqueued, fun _ _ => hqueued⟩
    · rw [Memory.refusalsAmong, if_pos hrefuses]
      exact congrArg (· + 1) hrefusals
    · simp only
      omega
  | _ => exact ⟨n, hnumber, hrefusals, htaken, hstarted, hwaits⟩

/-- A memory that refuses nothing, or that is offered nothing, has refused nothing. -/
theorem Offered.refusals_eq_zero {n : Nat} (h : v.Offered n)
    (hnone : v.refuseEvery = 0 ∨ v.report.issued = 0) : v.refusals = 0 := by
  rw [h.refusals]
  rcases hnone with hnever | hnothing
  · rw [hnever, Memory.refusalsAmong_never]
  · have hzero : n = 0 := by
      by_contra hne
      exact absurd (h.started (Nat.pos_of_ne_zero hne)) (by omega)
    rw [hzero]
    rfl

/-- With nothing queued, the number of refusals follows from the number of requests let in. -/
theorem Offered.refusals_eq_div {n : Nat} (h : v.Offered n) (hqueued : v.queued = 0)
    (hevery : 2 ≤ v.refuseEvery.toNat) (hissued : 1 ≤ v.report.issued)
    (hcount : v.report.issued + v.refusals < UInt32.size) :
    v.refusals = (v.report.issued - 1) / (v.refuseEvery.toNat - 1) := by
  obtain ⟨-, hrefusals, htaken, -, hwaits⟩ := h
  have hn : n < UInt32.size := by omega
  rw [Memory.refusalsAmong_eq_div _ hn] at hrefusals
  have hrest : n % v.refuseEvery.toNat ≠ 0 := fun hzero => by
    have hrefuses := (Memory.refuses_ofNat_iff (by omega) hn).2 (Nat.dvd_of_mod_eq_zero hzero)
    exact absurd (hwaits (by omega) hrefuses) (by omega)
  have hdiv := Nat.div_add_mod n v.refuseEvery.toNat
  obtain ⟨d, hd⟩ : ∃ d, v.refuseEvery.toNat = d + 1 := ⟨v.refuseEvery.toNat - 1, by omega⟩
  have hlt := Nat.mod_lt n (show 0 < v.refuseEvery.toNat by omega)
  rw [← hrefusals] at hdiv
  rw [hd] at hdiv hrest hlt ⊢
  rw [Nat.add_mul, Nat.one_mul] at hdiv
  -- The requests let in are one for each offer that was not refused: `d` of them between two refusals.
  refine (Nat.div_eq_of_lt_le ?_ ?_).symm
  · rw [Nat.add_sub_cancel, Nat.mul_comm]
    omega
  · rw [Nat.add_sub_cancel, Nat.add_mul, Nat.one_mul, Nat.mul_comm]
    omega

/-! ### Everything together -/

/-- The account adds up. -/
structure Reckoned (first : List (Bin × Ticket)) (v : Account) : Prop where
  tallied : v.Tallied first
  paired : v.Paired
  refused : v.report.refused = v.retries + v.retry.owed
  latency : v.report.totalLatency.toNat ≤ v.report.completed * v.report.maxLatency.toNat
  offered : ∃ n, v.Offered n

theorem Moves.reckoned (hmoves : v.Moves v') (h : v.Reckoned first) : v'.Reckoned first :=
  ⟨hmoves.tallied h.paired h.tallied, hmoves.paired h.paired, hmoves.refused_eq h.refused,
    hmoves.latency_le h.latency, hmoves.offered h.offered⟩

/-- However the account moves, it adds up. -/
theorem Reckoned.after (h : v.Reckoned first) (hmoves : Relation.ReflTransGen Moves v v') :
    v'.Reckoned first ∧ v'.refuseEvery = v.refuseEvery := by
  induction hmoves with
  | refl => exact ⟨h, rfl⟩
  | tail _ hmove ih =>
    refine ⟨hmove.reckoned ih.1, ?_⟩
    rw [← ih.2]
    cases hmove <;> rfl

end Account

end TimedBridge
