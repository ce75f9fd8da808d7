import TimedBridge.Proofs.Simulation.Duty
import TimedBridge.Proofs.Simulation.Moves

/-!
What the generator of a simulation goes through. When it may issue, the accesses that are due are taken
from it; any other event may bring it its retry (`Simulation.occasions`). A step of a simulation shows as
a step of its flow with these occasions (`Running.tells`), so that the generator does its duty however many
steps are made (`Running.duty_after`).
-/

namespace TimedBridge

namespace Simulation

variable {s s' s₁ : Simulation} {g g' g₁ : Generator} {m m' m₁ : Memory} {d : Duty} {tick : Tick}
  {event : SimEvent} {agenda : Agenda SimEvent}

/-- The retry that the generator has got and not looked at. -/
def notifications (s : Simulation) : List Occasion :=
  match s.generator with
  | .ok g => if g.retryReceived then [.notified s.now] else []
  | .error _ => []

/-- What the generator goes through in the next step. -/
def occasions (s : Simulation) : List Occasion :=
  match s.agenda.pop?, s.generator with
  | some (_, .issue, agenda), .ok g => { s with agenda }.disarmed.takenDue g.remaining
  | some (_, event, agenda), _ => ({ s with agenda }.dispatch event).1.notifications
  | none, _ => []

/-- What the generator goes through in a number of steps. -/
def occasionsIn (s : Simulation) : Nat → List Occasion
  | 0 => []
  | n + 1 => s.occasions ++ s.step.1.occasionsIn n

/-! ### Steps -/

/-- An event that issues nothing schedules no issue. -/
theorem ticks_issue_finish (s : Simulation) (o : Call Generator Memory Unit) :
    (s.finish o).1.agenda.ticks .issue = s.agenda.ticks .issue :=
  { s with bridge := o.state }.ticks_scheduleAsked o.effects .issue (by simp)

theorem ticks_issue_dispatch (s : Simulation) (hevent : event ≠ .issue) :
    (s.dispatch event).1.agenda.ticks .issue = s.agenda.ticks .issue := by
  cases event with
  | send d => exact s.ticks_issue_finish _
  | issue => exact absurd rfl hevent
  | complete =>
    rw [dispatch, completeOldest]
    split
    next => rfl
    next =>
      split
      next => rfl
      next => exact ticks_issue_finish _ _
  | memoryRetry => exact s.ticks_issue_finish _

/-- Looking after the agents ends a step and leaves the flow as the event has left it. -/
theorem flow_of_dispatch (hpop : s.agenda.pop? = some (tick, event, agenda))
    (hdispatch : { s with agenda }.dispatch event = (s₁, .ok ())) (hdriven : s₁.Driven)
    (hjoins : s₁.bridge.Joins g₁ m₁) (hstep : s.step = (s', .ok true)) (hjoins' : s'.bridge.Joins g' m') :
    s'.flow g' m' = s₁.flow g₁ m₁ := by
  obtain ⟨s₂, hlooked, -, hjoins₂, hflow⟩ := shows_lookAfter ⟨hdriven, hjoins, rfl⟩
  have hsame : s.step = (s₂, .ok true) := by
    rw [step, hpop]
    simp only [hdispatch, hlooked]
  obtain rfl := (Prod.mk.inj (hsame.symm.trans hstep)).1
  obtain rfl := Option.some.inj (hjoins₂.initiator.symm.trans hjoins'.initiator)
  obtain rfl := Option.some.inj (hjoins₂.target.symm.trans hjoins'.target)
  exact hflow

/-- What is scheduled is still to come. -/
theorem Running.le_of_mem_issues (h : s.Running g m) : ∀ u ∈ (s.flow g m).issues, (s.flow g m).now ≤ u := by
  intro u hu
  simp only [flow, h.quiet.retryReceived] at hu
  exact Agenda.le_of_mem_ticks hu

/-- The generator has got a retry exactly if the flow shows it. -/
theorem notifications_eq (hinitiator : s₁.bridge.front.agent = some g₁) {v : Flow}
    (htends : v.Tends (s₁.flow g₁ m₁)) (hissues : v.issues = s₁.agenda.ticks .issue) :
    s₁.notifications = if (s₁.flow g₁ m₁).retry = v.retry then [] else [.notified s₁.now] := by
  obtain ⟨-, -, htold⟩ := htends
  have hshown : (s₁.flow g₁ m₁).issues =
      if g₁.retryReceived then s₁.now ::ₘ v.issues else v.issues := by rw [hissues]; rfl
  rw [notifications, generator_of_bound hinitiator]
  dsimp only
  rcases htold with ⟨hretry, hsame⟩ | ⟨howed, hretry, hmore⟩
  · rw [if_pos hretry]
    refine if_neg fun hreceived => ?_
    rw [hsame, if_pos hreceived] at hshown
    exact (Multiset.lt_cons_self _ _).ne hshown
  · refine (if_pos ?_).trans (if_neg (by rw [howed, hretry]; nofun)).symm
    by_contra hreceived
    rw [hmore, if_neg hreceived] at hshown
    exact (Multiset.lt_cons_self _ _).ne hshown.symm

/-- A step shows as one of the flow, with what the generator goes through. -/
theorem Running.tells (h : s.Running g m) (hstep : s.step = (s', .ok true))
    (hjoins' : s'.bridge.Joins g' m') : (s.flow g m).Tells s.occasions (s'.flow g' m') := by
  obtain ⟨tick, event, agenda, -, hpop, -, -⟩ := exists_of_step hstep
  rw [occasions, hpop, generator_of_bound h.joins.initiator]
  by_cases hevent : event = .issue
  · subst hevent
    obtain ⟨rest, hissues, hcurrent, hflow⟩ := flow_pop_issue hpop h.quiet
    obtain ⟨-, -, hnow, -⟩ := Agenda.pending_of_pop hpop
    obtain ⟨s₁, g₁, m₁, hdispatch, hdriven, hjoins, v', htakes, harm⟩ :=
      takes_issue (h.driven.popped hpop (by simp)) h.joins (consistent_popped h.consistent agenda)
    rw [flow_of_dispatch hpop hdispatch hdriven hjoins hstep hjoins', harm]
    rw [hflow, now, hnow] at htakes
    exact .issued tick hissues hcurrent htakes
  · obtain ⟨s₁, g₁, m₁, hdispatch, hdriven, hjoins, -, htends⟩ := h.carried_rest hpop hevent
    have hticks : (s.flow g m).issues = s₁.agenda.ticks .issue := by
      have hsame := { s with agenda }.ticks_issue_dispatch hevent
      rw [hdispatch] at hsame
      have hpopped := Agenda.ticks_of_pop hpop .issue
      rw [if_neg hevent] at hpopped
      simp only [flow, h.quiet.retryReceived]
      exact hpopped.trans hsame.symm
    rw [flow_of_dispatch hpop hdispatch hdriven hjoins hstep hjoins']
    have htells := Flow.Tells.tends htends
    rw [show (s₁.flow g₁ m₁).now = s₁.now from rfl, ← notifications_eq hjoins.initiator htends hticks]
      at htells
    cases event with
    | issue => exact absurd rfl hevent
    | _ => simpa only [hdispatch] using htells

/-! ### Runs -/

/-- However many steps are made, the generator does its duty. -/
theorem Running.duty_after (h : s.Running g m) (hfollows : (s.flow g m).Follows d)
    (hscheduled : (s.flow g m).Scheduled) (n : Nat) :
    ∃ g' m' d', (s.after n).Running g' m' ∧ d.Met (s.occasionsIn n) d' ∧
      ((s.after n).flow g' m').Follows d' ∧ ((s.after n).flow g' m').Scheduled := by
  induction n generalizing s g m d with
  | zero => exact ⟨g, m, d, h, .nil d, hfollows, hscheduled⟩
  | succ n ih =>
    rw [Simulation.after, occasionsIn]
    rcases h.step with ⟨hpop, hstep⟩ | ⟨s', g', m', hstep, hrunning, -⟩
    · have hnone : s.occasions = [] := by rw [occasions, hpop]
      rw [hstep, hnone]
      exact ih h hfollows hscheduled
    · have hnow : s.now ≤ s'.now := by
        have hlater := h.now_le_step
        rwa [hstep] at hlater
      obtain ⟨d₁, hmet, hfollows₁, hscheduled₁⟩ := (h.tells hstep hrunning.joins).duty hnow
        h.le_of_mem_issues hrunning.le_of_mem_issues h.settled.prompt hfollows hscheduled
      rw [hstep]
      obtain ⟨g'', m'', d', hrunning', hmet', hrest⟩ := ih hrunning hfollows₁ hscheduled₁
      exact ⟨g'', m'', d', hrunning', hmet.append hmet', hrest⟩

end Simulation

end TimedBridge
