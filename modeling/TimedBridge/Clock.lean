import TimedBridge.Word

/-!
A clock domain: a positive period in ticks. Traffic leaves a bridge on a clock edge, a whole number
of cycles after the first edge that is not before its arrival. All results are capped at the last
tick.
-/

namespace TimedBridge

/-- A clock with a positive period in ticks. -/
structure Clock where
  period : Tick
  period_pos : 0 < period

namespace Clock

/-- The clock of the given period; a period of zero counts as one tick. -/
def ofPeriod (period : Tick) : Clock :=
  if h : period = 0 then ⟨1, by decide⟩
  else ⟨period, by
    rw [UInt64.lt_iff_toNat_lt]
    exact Nat.pos_of_ne_zero fun h0 => h (UInt64.toNat_inj.1 h0)⟩

/-- The length of `cycles` cycles in ticks. -/
def ticks (c : Clock) (cycles : Cycles) : Tick := cappedMul cycles c.period

/-- The first edge at or after `now`. -/
def edge (c : Clock) (now : Tick) : Tick :=
  capped ((now.toNat + c.period.toNat - 1) / c.period.toNat * c.period.toNat)

/-- The edge `cycles` cycles after the first edge at or after `now`. -/
def edgeAfter (c : Clock) (now : Tick) (cycles : Cycles) : Tick :=
  cappedAdd (c.edge now) (c.ticks cycles)

end Clock

end TimedBridge
