/-!
Machine words with arithmetic that stops at the largest word and at zero instead of wrapping. Ticks,
addresses, sizes and identities are 64-bit words. Each operation is defined by its exact value over
the natural numbers, so lemmas such as `toNat_cappedAdd` read it back unchanged.
-/

namespace TimedBridge

/-- Virtual time. -/
abbrev Tick := UInt64

/-- A duration in cycles of a clock. -/
abbrev Cycles := UInt64

/-- A byte address. -/
abbrev Address := UInt64

/-- The identity that a request shares with its response. -/
abbrev RequestId := UInt64

/-- The routing identity of an agent. -/
abbrev Route := UInt32

/-- A traffic class. -/
abbrev TrafficTag := UInt32

/-- The word for `n`, or the largest word when `n` is above it. -/
def capped (n : Nat) : UInt64 := UInt64.ofNat (min n 0xffffffffffffffff)

theorem toNat_capped (n : Nat) : (capped n).toNat = min n 0xffffffffffffffff := by
  simp only [capped, UInt64.toNat_ofNat']
  omega

/-- The sum, or the largest word when the sum is above it. -/
def cappedAdd (a b : UInt64) : UInt64 := capped (a.toNat + b.toNat)

/-- The product, or the largest word when the product is above it. -/
def cappedMul (a b : UInt64) : UInt64 := capped (a.toNat * b.toNat)

/-- The difference, or zero when the difference is below it. -/
def flooredSub (a b : UInt64) : UInt64 := capped (a.toNat - b.toNat)

theorem toNat_cappedAdd (a b : UInt64) :
    (cappedAdd a b).toNat = min (a.toNat + b.toNat) 0xffffffffffffffff :=
  toNat_capped _

theorem toNat_cappedMul (a b : UInt64) :
    (cappedMul a b).toNat = min (a.toNat * b.toNat) 0xffffffffffffffff :=
  toNat_capped _

/-- A sum that is a word does not wrap. -/
theorem toNat_add_of_lt {a b : UInt64} (h : a.toNat + b.toNat < UInt64.size) :
    (a + b).toNat = a.toNat + b.toNat := by
  rw [UInt64.toNat_add]
  exact Nat.mod_eq_of_lt h

theorem toNat_max (a b : UInt64) : (max a b).toNat = max a.toNat b.toNat := by
  change (if a ≤ b then b else a).toNat = _
  split <;> rename_i h <;> rw [UInt64.le_iff_toNat_le] at h <;> omega

theorem toNat_min (a b : UInt64) : (min a b).toNat = min a.toNat b.toNat := by
  change (if a ≤ b then a else b).toNat = _
  split <;> rename_i h <;> rw [UInt64.le_iff_toNat_le] at h <;> omega

theorem max_eq_of_le {a b : UInt64} (h : b ≤ a) : max a b = a := by
  rw [← UInt64.toNat_inj, toNat_max]
  exact Nat.max_eq_left (UInt64.le_iff_toNat_le.1 h)

theorem max_eq_of_ge {a b : UInt64} (h : a ≤ b) : max a b = b := by
  rw [← UInt64.toNat_inj, toNat_max]
  exact Nat.max_eq_right (UInt64.le_iff_toNat_le.1 h)

theorem toNat_flooredSub (a b : UInt64) : (flooredSub a b).toNat = a.toNat - b.toNat := by
  have := a.toNat_lt
  rw [flooredSub, toNat_capped]
  omega

end TimedBridge
