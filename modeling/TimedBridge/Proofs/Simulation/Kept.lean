import TimedBridge.Proofs.Simulation.Moves

/-!
What every call on its bridge keeps is kept by a simulation, whether its steps fail or not (`keeps_after`):
a simulation reaches its bridge by calls only, and exchanges the agents as if they were bound again.
-/

namespace TimedBridge

namespace Simulation

section Kept

variable {P : Bridge Generator Memory → Prop}
  (hP : ∀ b now operation, P b → P (b.perform now operation).state) {s : Simulation}

include hP

theorem keeps_withGenerator (h : P s.bridge) (g : Generator) : P (s.withGenerator g).bridge :=
  hP s.bridge s.now (.bindInitiator g) h

theorem keeps_withMemory (h : P s.bridge) (m : Memory) : P (s.withMemory m).bridge :=
  hP s.bridge s.now (.bindTarget m) h

theorem keeps_issueTimed (h : P s.bridge) (i : Issue) : P (s.issueTimed i).1.bridge := by
  have hadopted : P (s.adopt (s.bridge.submit s.now i.packet)).bridge := by
    rw [bridge_adopt]
    exact hP s.bridge s.now (.submit i.packet) h
  rw [issueTimed]
  dsimp only
  split
  next => exact hadopted
  next =>
    dsimp only
    split <;> exact hadopted
  next =>
    split
    next => exact hadopted
    next => exact keeps_withGenerator hP hadopted _

theorem keeps_issueOne (h : P s.bridge) (i : Issue) : P (s.issueOne i).1.bridge := by
  rw [issueOne]
  split
  next =>
    split
    next => exact keeps_issueTimed hP h i
    next =>
      have hadopted : P (s.adopt ((s.bridge.atomic i.packet).within Prod.fst)).bridge := by
        rw [bridge_adopt]
        exact hP s.bridge s.now (.atomic i.packet) h
      rw [issueAtomic]
      split <;> exact hadopted
    next =>
      have hadopted : P (s.adopt ((s.bridge.functional i.packet).within Prod.fst)).bridge := by
        rw [bridge_adopt]
        exact hP s.bridge s.now (.functional i.packet) h
      rw [issueFunctional]
      split <;> exact hadopted
  next => exact h

theorem keeps_issueDue (n : Nat) (h : P s.bridge) : P (s.issueDue n).1.bridge := by
  induction n generalizing s with
  | zero => exact h
  | succ n ih =>
    rw [issueDue]
    split
    next => exact h
    next => exact h
    next =>
      split
      next => exact h
      next issue g _ =>
        have hone := keeps_issueOne hP (keeps_withGenerator hP h g) issue
        split
        next heq =>
          rw [heq] at hone
          exact hone
        next heq =>
          rw [heq] at hone
          exact ih hone

theorem keeps_issue (h : P s.bridge) : P s.issue.1.bridge := by
  have hdisarmed : P s.disarmed.bridge := s.bridge_disarmed ▸ h
  rw [issue, ← disarmed]
  split
  next => exact hdisarmed
  next g _ =>
    have hdue := keeps_issueDue hP g.remaining hdisarmed
    split
    next heq =>
      rw [heq] at hdue
      exact hdue
    next heq =>
      rw [heq] at hdue
      rw [bridge_armIssue]
      exact hdue

theorem keeps_completeOldest (h : P s.bridge) : P s.completeOldest.1.bridge := by
  rw [completeOldest]
  split
  next => exact h
  next =>
    split
    next => exact keeps_withMemory hP h _
    next packet m _ =>
      have hleft := keeps_withMemory hP h m
      rw [finish, bridge_adopt]
      exact hP (s.withMemory m).bridge (s.withMemory m).now (.respond packet) hleft

/-- Every event keeps it. -/
theorem keeps_dispatch (h : P s.bridge) (event : SimEvent) : P (s.dispatch event).1.bridge := by
  cases event with
  | send d =>
    rw [dispatch, finish, bridge_adopt]
    exact hP s.bridge s.now (.attempt d) h
  | issue => exact keeps_issue hP h
  | complete => exact keeps_completeOldest hP h
  | memoryRetry =>
    rw [dispatch, finish, bridge_adopt]
    exact hP s.bridge s.now (.retry .request) h

theorem keeps_lookAfterMemory (h : P s.bridge) : P s.lookAfterMemory.1.bridge := by
  rw [lookAfterMemory]
  split
  next => exact h
  next m _ =>
    have hscheduled (tick : Tick) : P ((List.range m.newlyAccepted).foldl
        (fun t _ => t.schedule .complete tick) (s.withMemory m.rested)).bridge := by
      rw [bridge_schedules]
      exact keeps_withMemory hP h m.rested
    dsimp only
    split <;> exact hscheduled _

theorem keeps_lookAfterGenerator (h : P s.bridge) : P s.lookAfterGenerator.1.bridge := by
  rw [lookAfterGenerator]
  split
  next => exact h
  next g _ =>
    have hcounted : P (g.responses.foldl countResponse (s.withGenerator g.rested)).bridge := by
      rw [bridge_countResponses]
      exact keeps_withGenerator hP h g.rested
    dsimp only
    split <;> exact hcounted

/-- Every step keeps it. -/
theorem keeps_step (h : P s.bridge) : P s.step.1.bridge := by
  rw [step]
  split
  next => exact h
  next tick event agenda _ =>
    have hdispatched := keeps_dispatch hP (s := { s with agenda }) h event
    split
    next heq =>
      rw [heq] at hdispatched
      exact hdispatched
    next s₁ heq =>
      rw [heq] at hdispatched
      have hlooked : P s₁.lookAfter.1.bridge := by
        have hmemory := keeps_lookAfterMemory hP hdispatched
        rw [lookAfter]
        split
        next heq =>
          rw [heq] at hmemory
          exact hmemory
        next heq =>
          rw [heq] at hmemory
          exact keeps_lookAfterGenerator hP hmemory
      split
      next heq =>
        rw [heq] at hlooked
        exact hlooked
      next heq =>
        rw [heq] at hlooked
        exact hlooked

/-- However many steps are made, they keep it. -/
theorem keeps_after (h : P s.bridge) (n : Nat) : P (s.after n).bridge := by
  induction n generalizing s with
  | zero => exact h
  | succ n ih => exact ih (keeps_step hP h)

end Kept

end Simulation

end TimedBridge
