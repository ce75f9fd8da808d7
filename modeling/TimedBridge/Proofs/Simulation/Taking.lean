import TimedBridge.Proofs.Simulation.Flow

/-!
What the generator goes through. An access that is due is taken from it, and the access is then done with
or it is handed back; a generator that has got one back waits for its retry. `Flow.Takes` is the issue of
all accesses that are due with these occasions in order, and `Simulation.takenDue` reads them off a
simulation.
-/

namespace TimedBridge

/-- What the generator goes through. -/
inductive Occasion where
  /-- An access is taken that is let in, made at once or dropped. -/
  | settled (id : RequestId) (tick : Tick)
  /-- An access is taken that is handed back. -/
  | refused (id : RequestId) (tick : Tick)
  /-- The retry comes that the generator is owed. -/
  | notified (tick : Tick)
  deriving DecidableEq, Repr

/-- An access is taken. When it is handed back, a retry is owed afterwards. -/
def Occasion.taken (id : RequestId) (tick : Tick) : RetryState → Occasion
  | .idle => settled id tick
  | .pending => refused id tick

namespace Flow

/-- The accesses that are due are issued, with what the generator goes through. -/
inductive Takes : Flow → List Occasion → Flow → Prop
  | done {v : Flow} (h : v.retry = .pending ∨ ∀ i ∈ v.pending.head?, v.now < i.tick) : Takes v [] v
  | next {v v' v'' : Flow} {i : Issue} {rest : List Issue} {log : List Occasion}
      (hpending : v.pending = i :: rest) (h : v.Issues v') (hrest : Takes v' log v'') :
      Takes v (.taken i.packet.id v.now v'.retry :: log) v''

variable {v v' : Flow} {log : List Occasion}

theorem Takes.issuesDue (h : v.Takes log v') : IssuesDue v v' := by
  induction h with
  | done h => exact .done h
  | next _ h _ ih => exact .next h ih

/-- While a retry is owed, or when nothing is due, nothing is taken. -/
theorem Takes.eq_of_done (h : v.Takes log v')
    (hdone : v.retry = .pending ∨ ∀ i ∈ v.pending.head?, v.now < i.tick) : log = [] ∧ v' = v := by
  cases h with
  | done => exact ⟨rfl, rfl⟩
  | next hpending h =>
    rcases hdone with hretry | hearly
    · exact nomatch hretry.symm.trans h.retry_eq
    · exact (h.not_early hearly).elim

/-- When no retry is owed in the end, no access was handed back. -/
theorem Takes.refused_notMem (h : v.Takes log v') (hretry : v'.retry = .idle) (id : RequestId)
    (tick : Tick) : .refused id tick ∉ log := by
  induction h with
  | done => exact List.not_mem_nil
  | @next _ v₁ _ i rest log hpending h hrest ih =>
    have hidle : v₁.retry = .idle := by
      cases howed : v₁.retry with
      | idle => rfl
      | pending =>
        obtain ⟨-, rfl⟩ := hrest.eq_of_done (.inl howed)
        exact howed.symm.trans hretry
    rw [hidle]
    exact List.not_mem_cons_of_ne_of_not_mem nofun (ih hretry)

/-- A step of the flow, with what the generator goes through. -/
inductive Tells (v : Flow) : List Occasion → Flow → Prop
  | tends {v' : Flow} (h : v.Tends v') :
      Tells v (if v'.retry = v.retry then [] else [.notified v'.now]) v'
  | issued (t : Tick) {rest : Multiset Tick} {log : List Occasion} {v' : Flow}
      (hissues : v.issues = t ::ₘ rest) (hcurrent : ∀ u ∈ rest, t ≤ u)
      (htakes : ({ v with now := t, issues := rest }.disarm t).Takes log v') : Tells v log v'.arm

theorem Tells.refused_notMem (h : v.Tells log v') (hretry : v'.retry = .idle) (id : RequestId)
    (tick : Tick) : .refused id tick ∉ log := by
  cases h with
  | tends => split <;> simp
  | issued t hissues hcurrent htakes =>
    rw [retry_arm] at hretry
    exact htakes.refused_notMem hretry id tick

end Flow

/-- What the generator goes through when the accesses that are due are issued, at most `n`. -/
def Simulation.takenDue : Nat → Simulation → List Occasion
  | 0, _ => []
  | n + 1, s =>
    match s.bridge.front.retry, s.generator with
    | .idle, .ok g =>
      match g.nextDue? s.now with
      | none => []
      | some (issue, g) =>
        match (s.withGenerator g).issueOne issue with
        | (_, .error _) => []
        | (t, .ok ()) => .taken issue.packet.id s.now t.bridge.front.retry :: takenDue n t
    | _, _ => []

end TimedBridge
