import TimedBridge.Clock

/-!
The edges of a clock. The first edge at or after a tick is not before it, and later ticks have no
earlier edges (`le_edgeAfter`, `edgeAfter_mono`). Below the last tick nothing is capped: an edge is then
the exact one (`toNat_edgeAfter_of_lt`).
-/

namespace TimedBridge

/-- A sum that stops at the largest word is no less than its first summand. -/
theorem le_cappedAdd (a b : UInt64) : a ≤ cappedAdd a b := by
  have hmax := a.toNat_lt
  rw [UInt64.le_iff_toNat_le, toNat_cappedAdd]
  omega

namespace Clock

variable (c : Clock)

/-- The first edge at or after `now`, however late. -/
def exactEdge (now : Nat) : Nat := (now + c.period.toNat - 1) / c.period.toNat * c.period.toNat

/-- The edge `cycles` cycles after the first edge at or after `now`, however late. -/
def exactEdgeAfter (now cycles : Nat) : Nat := c.exactEdge now + cycles * c.period.toNat

theorem period_toNat_pos : 0 < c.period.toNat := UInt64.lt_iff_toNat_lt.1 c.period_pos

theorem le_exactEdge (now : Nat) : now ≤ c.exactEdge now := by
  have hpos := c.period_toNat_pos
  have hlt := Nat.lt_div_mul_add hpos (a := now + c.period.toNat - 1)
  rw [exactEdge]
  omega

theorem exactEdge_mono {now later : Nat} (h : now ≤ later) : c.exactEdge now ≤ c.exactEdge later :=
  Nat.mul_le_mul_right _ (Nat.div_le_div_right (by omega))

variable (now : Tick) (cycles : Cycles)

theorem toNat_edgeAfter :
    (c.edgeAfter now cycles).toNat =
      min (c.exactEdgeAfter now.toNat cycles.toNat) 0xffffffffffffffff := by
  rw [edgeAfter, toNat_cappedAdd, edge, toNat_capped, ticks, toNat_cappedMul, exactEdgeAfter, exactEdge]
  omega

/-- An edge below the last tick is the exact one. -/
theorem toNat_edgeAfter_of_lt (h : (c.edgeAfter now cycles).toNat < 0xffffffffffffffff) :
    (c.edgeAfter now cycles).toNat = c.exactEdgeAfter now.toNat cycles.toNat := by
  have hedge := c.toNat_edgeAfter now cycles
  omega

/-- Nothing leaves before it has arrived. -/
theorem le_edgeAfter : now ≤ c.edgeAfter now cycles := by
  have hedge := c.le_exactEdge now.toNat
  have hnow := now.toNat_lt
  rw [UInt64.le_iff_toNat_le, toNat_edgeAfter, exactEdgeAfter]
  omega

/-- What arrives later does not leave earlier. -/
theorem edgeAfter_mono {now later : Tick} (h : now ≤ later) (cycles : Cycles) :
    c.edgeAfter now cycles ≤ c.edgeAfter later cycles := by
  have hedge := c.exactEdge_mono (UInt64.le_iff_toNat_le.1 h)
  rw [UInt64.le_iff_toNat_le, toNat_edgeAfter, toNat_edgeAfter, exactEdgeAfter, exactEdgeAfter]
  omega

end Clock

end TimedBridge
