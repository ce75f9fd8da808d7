import Mathlib.Data.Rat.Floor
import TimedBridge.Proofs.Clock

/-!
The edges of a clock as numbers. An edge is the exact multiple of the period, capped at the last tick,
for every period, tick and number of cycles (`toNat_edgeAfter_eq_ceil`). So an edge that is not capped
lies on the clock, no edge is a period too late, and waiting twice is waiting once for as many cycles
(`edgeAfter_edgeAfter`), even where the first wait ends at the last tick, which need not be an edge.
-/

namespace TimedBridge

namespace Clock

/-- A period of zero counts as one tick. -/
theorem toNat_period_ofPeriod (period : Tick) :
    (ofPeriod period).period.toNat = max 1 period.toNat := by
  rw [ofPeriod]
  split
  next hzero => rw [hzero]; rfl
  next hzero =>
    have hpos : period.toNat ≠ 0 := fun h => hzero (UInt64.toNat_inj.1 h)
    change period.toNat = _
    omega

variable (c : Clock)

/-! ### Exact edges -/

/-- The first edge at or after a tick is the number of periods up to the tick, rounded up. -/
theorem exactEdge_eq_ceil (now : Nat) :
    c.exactEdge now = ⌈(now : ℚ) / c.period.toNat⌉₊ * c.period.toNat := by
  have hpos := c.period_toNat_pos
  rw [exactEdge]
  congr 1
  refine eq_of_forall_ge_iff fun m => ?_
  rw [Nat.ceil_le, div_le_iff₀ (Nat.cast_pos.2 hpos), ← Nat.cast_mul, Nat.cast_le,
    ← Nat.lt_succ_iff, Nat.div_lt_iff_lt_mul hpos, Nat.succ_mul]
  omega

theorem exactEdgeAfter_eq_ceil (now cycles : Nat) :
    c.exactEdgeAfter now cycles = (⌈(now : ℚ) / c.period.toNat⌉₊ + cycles) * c.period.toNat := by
  rw [exactEdgeAfter, exactEdge_eq_ceil, Nat.add_mul]

theorem dvd_exactEdgeAfter (now cycles : Nat) : c.period.toNat ∣ c.exactEdgeAfter now cycles := by
  rw [exactEdgeAfter_eq_ceil]
  exact Nat.dvd_mul_left ..

/-- An edge is less than a period late. -/
theorem exactEdge_lt (now : Nat) : c.exactEdge now < now + c.period.toNat := by
  have hpos := c.period_toNat_pos
  have hle := Nat.div_mul_le_self (now + c.period.toNat - 1) c.period.toNat
  rw [exactEdge]
  omega

/-- On an edge there is nothing to round. -/
theorem exactEdge_of_dvd {now : Nat} (h : c.period.toNat ∣ now) : c.exactEdge now = now := by
  have hpos := c.period_toNat_pos
  obtain ⟨k, rfl⟩ := h
  rw [exactEdge, Nat.add_sub_assoc hpos, Nat.mul_add_div hpos, Nat.div_eq_of_lt (by omega),
    Nat.add_zero, Nat.mul_comm]

theorem exactEdgeAfter_exactEdgeAfter (now a b : Nat) :
    c.exactEdgeAfter (c.exactEdgeAfter now a) b = c.exactEdgeAfter now (a + b) := by
  calc
    c.exactEdgeAfter (c.exactEdgeAfter now a) b
        = c.exactEdgeAfter now a + b * c.period.toNat := by
      rw [exactEdgeAfter, c.exactEdge_of_dvd (c.dvd_exactEdgeAfter now a)]
    _ = c.exactEdgeAfter now (a + b) := by
      rw [exactEdgeAfter, exactEdgeAfter, Nat.add_mul, Nat.add_assoc]

/-! ### Capped edges -/

variable (now : Tick) (cycles : Cycles)

theorem toNat_edgeAfter_eq_ceil :
    (c.edgeAfter now cycles).toNat =
      min 0xffffffffffffffff
        ((⌈(now.toNat : ℚ) / c.period.toNat⌉₊ + cycles.toNat) * c.period.toNat) := by
  rw [toNat_edgeAfter, exactEdgeAfter_eq_ceil, Nat.min_comm]

/-- Of two packets, the one that arrives no later and is delayed no longer leaves no later. -/
theorem edgeAfter_le_edgeAfter {now later : Tick} {cycles more : Cycles} (hnow : now ≤ later)
    (hcycles : cycles ≤ more) : c.edgeAfter now cycles ≤ c.edgeAfter later more := by
  refine UInt64.le_trans (c.edgeAfter_mono hnow cycles) ?_
  have hmul := Nat.mul_le_mul_right c.period.toNat (UInt64.le_iff_toNat_le.1 hcycles)
  rw [UInt64.le_iff_toNat_le, toNat_edgeAfter, toNat_edgeAfter, exactEdgeAfter, exactEdgeAfter]
  omega

/-- An edge below the last tick lies on the clock. -/
theorem dvd_edgeAfter_of_lt (h : (c.edgeAfter now cycles).toNat < 0xffffffffffffffff) :
    c.period.toNat ∣ (c.edgeAfter now cycles).toNat := by
  rw [c.toNat_edgeAfter_of_lt now cycles h]
  exact c.dvd_exactEdgeAfter ..

/-- A delayed departure is less than a period late. -/
theorem edgeAfter_lt :
    (c.edgeAfter now cycles).toNat <
      now.toNat + c.period.toNat + cycles.toNat * c.period.toNat := by
  have hlt := c.exactEdge_lt now.toNat
  rw [toNat_edgeAfter, exactEdgeAfter]
  omega

/-- To wait for `a` cycles and then for `b` is to wait for `a + b`, also at the last tick. -/
theorem edgeAfter_edgeAfter {a b : Cycles} (h : a.toNat + b.toNat < UInt64.size) :
    c.edgeAfter (c.edgeAfter now a) b = c.edgeAfter now (a + b) := by
  have htwice := c.exactEdgeAfter_exactEdgeAfter now.toNat a.toNat b.toNat
  rw [← UInt64.toNat_inj, toNat_edgeAfter, toNat_edgeAfter, toNat_edgeAfter,
    toNat_add_of_lt h]
  by_cases hcapped : c.exactEdgeAfter now.toNat a.toNat ≤ 0xffffffffffffffff
  · rw [Nat.min_eq_left hcapped, htwice]
  · -- The first wait is cut short at the last tick, and from there no edge is earlier.
    have hlast := c.le_exactEdge 0xffffffffffffffff
    have hmore : c.exactEdgeAfter now.toNat a.toNat ≤
        c.exactEdgeAfter now.toNat (a.toNat + b.toNat) := by
      rw [exactEdgeAfter, exactEdgeAfter, Nat.add_mul]
      omega
    have hagain : 0xffffffffffffffff ≤ c.exactEdgeAfter 0xffffffffffffffff b.toNat :=
      Nat.le_trans hlast (Nat.le_add_right ..)
    rw [Nat.min_eq_right (by omega : 0xffffffffffffffff ≤ c.exactEdgeAfter now.toNat a.toNat),
      Nat.min_eq_right hagain, Nat.min_eq_right (by omega)]

/-- What the edges of a clock of period `p` are, as far as ticks go. -/
structure CappedEdges (p : Nat) (edge : Tick → Cycles → Tick) : Prop where
  exact_or_last : ∀ now cycles, (edge now cycles).toNat =
    min 0xffffffffffffffff ((⌈(now.toNat : ℚ) / p⌉₊ + cycles.toNat) * p)
  mono : ∀ now later cycles more, now ≤ later → cycles ≤ more → edge now cycles ≤ edge later more
  not_before : ∀ now cycles, now ≤ edge now cycles
  on_clock : ∀ now cycles, (edge now cycles).toNat < 0xffffffffffffffff →
    p ∣ (edge now cycles).toNat
  not_late : ∀ now cycles, (edge now cycles).toNat < now.toNat + p + cycles.toNat * p
  /-- To wait twice is to wait once, also when the first wait ends at the last tick. -/
  twice : ∀ now a b, a.toNat + b.toNat < UInt64.size → edge (edge now a) b = edge now (a + b)

/-- Whatever its period, a clock has the exact edges, up to the last tick. -/
theorem cappedEdges_ofPeriod (period : Tick) :
    CappedEdges (max 1 period.toNat) (ofPeriod period).edgeAfter := by
  rw [← toNat_period_ofPeriod]
  exact {
    exact_or_last := toNat_edgeAfter_eq_ceil _
    mono := fun _ _ _ _ => edgeAfter_le_edgeAfter _
    not_before := le_edgeAfter _
    on_clock := dvd_edgeAfter_of_lt _
    not_late := edgeAfter_lt _
    twice := fun now _ _ => edgeAfter_edgeAfter _ now }

/-- With a period of half of all ticks, one cycle from tick 1 on ends at the last tick, which is no edge,
and so do three cycles more. -/
theorem cappedEdges_half :
    let edge := (ofPeriod 0x8000000000000000).edgeAfter
    (1 : Cycles).toNat + (3 : Cycles).toNat < UInt64.size ∧
      edge 1 0 = 0x8000000000000000 ∧ edge 1 1 = 0xffffffffffffffff ∧
      ¬ 0x8000000000000000 ∣ (edge 1 1).toNat ∧ edge (edge 1 1) 3 = edge 1 4 ∧
      0x8000000000000000 ∣ (edge 1 0).toNat ∧ edge 1 0 ≤ edge 2 1 := by
  have hedges := cappedEdges_ofPeriod 0x8000000000000000
  have hfirst : (ofPeriod 0x8000000000000000).edgeAfter 1 0 = 0x8000000000000000 := by decide
  have hsecond : (ofPeriod 0x8000000000000000).edgeAfter 1 1 = 0xffffffffffffffff := by decide
  refine ⟨by decide, hfirst, hsecond, by rw [hsecond]; decide, hedges.twice 1 1 3 (by decide), ?_,
    hedges.mono 1 2 0 1 (by decide) (by decide)⟩
  exact hedges.on_clock 1 0 (by rw [hfirst]; decide)

end Clock

end TimedBridge
