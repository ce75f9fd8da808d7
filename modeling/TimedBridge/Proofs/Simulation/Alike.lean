import TimedBridge.Proofs.Simulation.Accompanied
import TimedBridge.Proofs.Simulation.Ends
import TimedBridge.Proofs.Simulation.Sight
import TimedBridge.Proofs.Simulation.Start

/-!
Two simulations, each in a sight of its own, that look alike (`Simulation.Alike`). As long as the accesses
that one of the sights leaves out do not put off another one, the simulations carry out the same events at
the same ticks (`Alike.step`, `Alike.dispatched_eq`), and their reports look alike (`Alike.run?`).
-/

namespace TimedBridge

namespace Sight

/-- The first sight may leave out functional accesses, if it does not count them; the second one leaves out
none. -/
structure Comparable (v v' : Sight) : Prop where
  counts : v.counts = v'.counts
  all : ∀ mode, v'.shows mode = true
  hidden : ∀ mode, v.shows mode = false → mode = .functional ∧ v.counts = false

/-- Either no access to come is left out, or each of those that are comes at the tick of another one. -/
def Keeps (v : Sight) (w : Flow) : Prop := (∀ mode, v.shows mode = true) ∨ w.Accompanied

variable {v v' : Sight} {w w' : Flow} {g g' : Generator}

theorem filter_of_all (hall : ∀ mode, v.shows mode = true) (pending : List Issue) :
    pending.filter (v.shows ·.mode) = pending :=
  List.filter_eq_self.2 fun i _ => hall i.mode

/-! ### Accesses to come -/

/-- The first access to come that is in sight is early if the first one is. -/
theorem Keeps.early (h : v.Keeps w) (hearly : ∀ i ∈ w.pending.head?, w.now < i.tick) :
    ∀ i ∈ (w.pending.filter (v.shows ·.mode)).head?, w.now < i.tick := by
  rcases h with hall | haccompanied
  · rw [filter_of_all hall]
    exact hearly
  · intro i hi
    have hmem := (List.mem_filter.1 (List.mem_of_mem_head? hi)).1
    exact Flow.early_of_head haccompanied.ordered hearly i hmem

/-- The first access to come that is in sight is due when the first one is. -/
theorem Keeps.due_head (h : v.Keeps w) (hv : v.Comparable v')
    (hearly : ∀ i ∈ w.pending.head?, w.now < i.tick) :
    (w.pending.filter (v.shows ·.mode)).head?.map (fun i => max i.tick w.now) =
      w.pending.head?.map fun i => max i.tick w.now := by
  rcases h with hall | ⟨hordered, hcompany⟩
  · rw [filter_of_all hall]
  · refine Flow.due_head hordered fun i hi hmode => ?_
    obtain ⟨j, hj, hcounts, htick⟩ :=
      (hcompany i (List.mem_of_mem_head? hi) (hv.hidden i.mode hmode).1).resolve_left
        (UInt64.not_le.2 (hearly i hi))
    have hshown : v.shows j.mode = true := by
      by_contra hne
      exact hcounts (hv.hidden j.mode (Bool.not_eq_true _ ▸ hne)).1
    exact ⟨j, hj, hshown, htick⟩

/-- The accesses to come look alike, one by one. -/
theorem Comparable.pending_eq (hv : v.Comparable v') (h : v'.generator g' = v.generator g) :
    g'.pending.map v'.rendering.issue =
      (g.pending.filter (v.shows ·.mode)).map v.rendering.issue := by
  have hpending := congrArg Generator.pending h
  dsimp only [generator] at hpending
  rwa [filter_of_all hv.all] at hpending

/-- With the next access taken from both, generators still look alike. -/
theorem Comparable.exists_next (hv : v.Comparable v') (h : v'.generator g' = v.generator g) {i : Issue}
    {rest : List Issue} (hpending : g.pending = i :: rest) (hshown : v.shows i.mode = true) :
    ∃ i' rest', g'.pending = i' :: rest' ∧ v.rendering.issue i = v'.rendering.issue i' ∧
      v.generator { g with pending := rest } = v'.generator { g' with pending := rest' } := by
  have hall := hv.pending_eq h
  rw [hpending, List.filter_cons_of_pos (by simp [hshown]), List.map_cons] at hall
  obtain ⟨i', rest', hpending', hi, hrest⟩ := List.map_eq_cons_iff.1 hall
  refine ⟨i', rest', hpending', hi.symm, ?_⟩
  have hsame := congrArg (fun g : Generator => { g with pending := rest'.map v'.rendering.issue }) h.symm
  dsimp only [generator] at hsame ⊢
  rw [filter_of_all hv.all, ← hsame, hrest]

end Sight

namespace Simulation

/-- Two simulations look alike, each in its own sight. -/
def Alike (v v' : Sight) (s s' : Simulation) : Prop := v.simulation s = v'.simulation s'

/-- The events that are carried out in a number of steps, with their ticks. -/
def dispatched (s : Simulation) : Nat → List (Tick × SimEvent)
  | 0 => []
  | n + 1 =>
    match s.agenda.pop? with
    | none => []
    | some (tick, event, _) => (tick, event) :: s.step.1.dispatched n

namespace Alike

variable {v v' : Sight} {s s' : Simulation} {g : Generator} {m : Memory}

/-- What looks like a step without a fault is one. -/
theorem exists_of_step {α : Type} {result : Step α} {a : α} (h : v.step (s, .ok a) = v'.step result) :
    ∃ s', result = (s', .ok a) ∧ Alike v v' s s' := by
  obtain ⟨s', answer⟩ := result
  obtain ⟨hstate, hanswer⟩ := Prod.mk.inj h
  cases answer with
  | error fault => cases hanswer
  | ok b =>
    cases hanswer
    exact ⟨s', rfl, hstate⟩

theorem agenda_eq (h : Alike v v' s s') : s'.agenda = s.agenda :=
  (congrArg Simulation.agenda h.symm).trans rfl

theorem now_eq (h : Alike v v' s s') : s'.now = s.now := congrArg Agenda.now h.agenda_eq

theorem retry_eq (h : Alike v v' s s') : s'.bridge.front.retry = s.bridge.front.retry :=
  congrArg (·.bridge.front.retry) h.symm

theorem popped (h : Alike v v' s s') (agenda : Agenda SimEvent) :
    Alike v v' { s with agenda } { s' with agenda } := by
  have hpopped := congrArg (fun seen : Simulation => { seen with agenda := agenda }) h
  exact hpopped

theorem disarmed (h : Alike v v' s s') : Alike v v' s.disarmed s'.disarmed := by
  have harmed : s'.armed = s.armed := (congrArg Simulation.armed h.symm).trans rfl
  rw [Simulation.disarmed, Simulation.disarmed, harmed, h.now_eq]
  split
  next => exact congrArg (fun s : Simulation => { s with armed := none }) h
  next => exact h

/-! ### Issuing -/

theorem issueDue_of_done (h : Alike v v' s s') (hv : v.Comparable v') (hkeeps : v.Keeps (s.flow g m))
    (hinitiator : s.bridge.front.agent = some g)
    (hdone : s.bridge.front.retry = .pending ∨ ∀ i ∈ g.pending.head?, s.now < i.tick) (n n' : Nat) :
    v.step (s.issueDue n) = v'.step (s'.issueDue n') := by
  obtain ⟨g', hinitiator', hg⟩ := Sight.exists_generator h hinitiator
  have hdone' : s'.bridge.front.retry = .pending ∨ ∀ i ∈ g'.pending.head?, s'.now < i.tick := by
    rw [h.retry_eq, h.now_eq]
    refine hdone.imp_right fun hearly i' hi' => ?_
    have hheads := congrArg List.head? (hv.pending_eq hg)
    rw [List.head?_map, List.head?_map, Option.mem_def.1 hi', Option.map_some] at hheads
    obtain ⟨i, hi, hsame⟩ := Option.map_eq_some_iff.1 hheads.symm
    have htick : i.tick = i'.tick := (congrArg Issue.tick hsame).trans rfl
    exact htick ▸ hkeeps.early hearly i hi
  rw [Simulation.issueDue_of_done hinitiator hdone, Simulation.issueDue_of_done hinitiator' hdone']
  exact congrArg (·, Except.ok ()) h

/-- An access out of sight is issued without a trace. -/
theorem issueOne_hidden (h : Alike v v' s s') (hv : v.Comparable v') (hjoins : s.bridge.Joins g m)
    {i : Issue} {rest : List Issue} (hpending : g.pending = i :: rest)
    (hhidden : v.shows i.mode = false) (htag : i.packet.tag = none) {t : Simulation}
    (hissued : (s.withGenerator { g with pending := rest }).issueOne i = (t, .ok ())) :
    Alike v v' t s' := by
  obtain ⟨hmode, hcounts⟩ := hv.hidden i.mode hhidden
  have hgone : v.generator { g with pending := rest } = v.generator g := by
    rw [Sight.generator, Sight.generator, hpending, List.filter_cons_of_neg]
    simp [hhidden]
  have hskipped : v.simulation (s.withGenerator { g with pending := rest }) = v.simulation s :=
    v.simulation_of_bridge (Portrait.bridge_withInitiator hjoins.initiator hgone)
  have hseen := Sight.step_issueOne_hidden (v := v) (s := s.withGenerator { g with pending := rest })
    hjoins.target htag hmode hcounts
  rw [hissued] at hseen
  exact (congrArg Prod.fst hseen).trans (hskipped.trans h)

/-- An access in sight is issued in both. -/
theorem issueOne (h : Alike v v' s s') (hv : v.Comparable v') (hjoins : s.bridge.Joins g m)
    (hstalled : g.stalled = false) (hretry : s.bridge.front.retry = .idle) {i : Issue}
    {rest : List Issue} (hpending : g.pending = i :: rest) (hdue : i.tick ≤ s.now)
    (hshown : v.shows i.mode = true) (htag : i.packet.tag = none) {t : Simulation}
    (hissued : (s.withGenerator { g with pending := rest }).issueOne i = (t, .ok ())) :
    ∃ t', Alike v v' t t' ∧ ∀ n, s'.issueDue (n + 1) = t'.issueDue n := by
  obtain ⟨g', hinitiator', hg⟩ := Sight.exists_generator h hjoins.initiator
  obtain ⟨i', rest', hpending', hi, hrest⟩ := hv.exists_next hg hpending hshown
  have htaken := Sight.withGenerator_eq h hrest
  have hseen := Sight.step_issueOne htaken hv.counts hi hjoins.target htag hshown (hv.all i.mode)
  rw [hissued] at hseen
  obtain ⟨t', hissued', halike⟩ := exists_of_step hseen
  have hstalled' : g'.stalled = false := (congrArg Generator.stalled hg).trans hstalled
  have hretry' : s'.bridge.front.retry = .idle := h.retry_eq.trans hretry
  have htick : i.tick = i'.tick := (congrArg Issue.tick hi).trans rfl
  have hdue' : i'.tick ≤ s'.now := by
    rwa [← htick, h.now_eq]
  exact ⟨t', halike, issueDue_cons hinitiator' hstalled' hretry' hpending' hdue' hissued'⟩

/-- When an access is issued, so is the one that looks like it, if it is in sight. -/
theorem issueNext (h : Alike v v' s s') (hv : v.Comparable v') (hjoins : s.bridge.Joins g m)
    (hstalled : g.stalled = false) (hretry : s.bridge.front.retry = .idle) {i : Issue}
    {rest : List Issue} (hpending : g.pending = i :: rest) (hdue : i.tick ≤ s.now)
    (htag : i.packet.tag = none) {t : Simulation}
    (hissued : (s.withGenerator { g with pending := rest }).issueOne i = (t, .ok ())) {n' : Nat}
    (henough' : (g.pending.filter (v.shows ·.mode)).length ≤ n') :
    ∃ t' k, Alike v v' t t' ∧ s'.issueDue n' = t'.issueDue k ∧
      (rest.filter (v.shows ·.mode)).length ≤ k := by
  rw [hpending] at henough'
  cases hshown : v.shows i.mode with
  | false =>
    rw [List.filter_cons_of_neg (by simp [hshown])] at henough'
    exact ⟨s', n', h.issueOne_hidden hv hjoins hpending hshown htag hissued, rfl, henough'⟩
  | true =>
    obtain ⟨t', halike, hstep⟩ :=
      h.issueOne hv hjoins hstalled hretry hpending hdue hshown htag hissued
    rw [List.filter_cons_of_pos (by simp [hshown]), List.length_cons] at henough'
    obtain ⟨k, rfl⟩ : ∃ k, n' = k + 1 :=
      Nat.exists_eq_add_one.2 (Nat.lt_of_lt_of_le (Nat.succ_pos _) henough')
    exact ⟨t', k, halike, hstep k, Nat.le_of_succ_le_succ henough'⟩

/-- The accesses that are due are issued alike. -/
theorem issueDue (h : Alike v v' s s') (hv : v.Comparable v') (hkeeps : v.Keeps (s.flow g m))
    (hdriven : s.Driven) (hjoins : s.bridge.Joins g m) (hconsistent : (s.flow g m).Consistent)
    {n n' : Nat} (henough : g.pending.length ≤ n ∨ s.bridge.front.retry = .pending)
    (henough' : (g.pending.filter (v.shows ·.mode)).length ≤ n' ∨ s.bridge.front.retry = .pending) :
    v.step (s.issueDue n) = v'.step (s'.issueDue n') := by
  induction n generalizing s s' g m n' with
  | zero =>
    refine h.issueDue_of_done hv hkeeps hjoins.initiator ?_ 0 n'
    rcases henough with hnone | hretry
    · rw [List.length_eq_zero_iff.1 (Nat.le_zero.1 hnone)]
      exact .inr (by simp)
    · exact .inl hretry
  | succ n ih =>
    cases hretry : s.bridge.front.retry with
    | pending => exact h.issueDue_of_done hv hkeeps hjoins.initiator (.inl hretry) (n + 1) n'
    | idle =>
      have hstalled : g.stalled = false := by
        simpa [hretry] using hjoins.stalled
      rcases nextDue_of_running hstalled s.now with ⟨i, rest, hpending, hdue, -⟩ | ⟨hearly, -⟩
      swap
      · exact h.issueDue_of_done hv hkeeps hjoins.initiator (.inr hearly) (n + 1) n'
      have htag : i.packet.tag = none :=
        hconsistent.untagged i (show i ∈ g.pending from hpending ▸ List.mem_cons_self)
      obtain ⟨t, g₁, m₁, hissued, hdriven₁, hjoins₁, hissues⟩ :=
        carried_issueOne hdriven hjoins hconsistent hretry hpending hdue
      -- An access out of sight is a step of this simulation only, so the other one may need fewer.
      obtain ⟨t', k, halike, hstep, hk⟩ := h.issueNext hv hjoins hstalled hretry hpending hdue htag
        hissued (henough'.resolve_right (by simp [hretry]))
      have hn : rest.length ≤ n := by
        have hlength := henough.resolve_right (by simp [hretry])
        rw [hpending] at hlength
        exact Nat.le_of_succ_le_succ hlength
      have hleft : g₁.pending = rest ∨ t.bridge.front.retry = .pending :=
        hissues.next_or_pending hpending
      rw [issueDue_cons hjoins.initiator hstalled hretry hpending hdue hissued, hstep]
      exact ih halike (hkeeps.imp_right hissues.accompanied) hdriven₁ hjoins₁
        (hissues.consistent hconsistent) (hleft.imp_left fun heq => by rwa [heq])
        (hleft.imp_left fun heq => by rwa [heq])

/-- The next issue is scheduled alike, if leaving accesses out does not put it off. -/
theorem armIssue (h : Alike v v' s s') (hv : v.Comparable v')
    (hinitiator : s.bridge.front.agent = some g)
    (hhead : g.stalled = true ∨
      (g.pending.filter (v.shows ·.mode)).head?.map (fun i => max i.tick s.now) =
        g.pending.head?.map fun i => max i.tick s.now) :
    v.step s.armIssue = v'.step s'.armIssue := by
  obtain ⟨g', hinitiator', hg⟩ := Sight.exists_generator h hinitiator
  have hleft := Sight.armIssue_simulation hinitiator hhead
  have hright := Sight.armIssue_simulation (v := v') hinitiator'
    (.inr (by rw [Sight.filter_of_all hv.all]))
  rw [← hleft, ← hright, h]

/-- The accesses that are due are issued alike, and the next issue is scheduled alike. -/
theorem issue (h : Alike v v' s s') (hv : v.Comparable v') (hkeeps : v.Keeps (s.flow g m))
    (hdriven : s.Driven) (hjoins : s.bridge.Joins g m) (hconsistent : (s.flow g m).Consistent) :
    v.step s.issue = v'.step s'.issue := by
  obtain ⟨g', hinitiator', hg⟩ := Sight.exists_generator h hjoins.initiator
  have hjoins' : s.disarmed.bridge.Joins g m := s.bridge_disarmed ▸ hjoins
  have hconsistent' := consistent_disarmed hconsistent
  have hkeeps' : v.Keeps (s.disarmed.flow g m) := by
    rw [flow_disarmed]
    exact hkeeps.imp_right fun haccompanied => ⟨haccompanied.ordered, haccompanied.company⟩
  obtain ⟨t, g₁, m₁, hresult, hdriven₁, hjoins₁, hdue⟩ :=
    carried_issueDue g.remaining hdriven.disarmed hjoins' hconsistent' (.inl (Nat.le_refl _))
  have hlength : (g.pending.filter (v.shows ·.mode)).length = g'.remaining := by
    have hlengths := congrArg List.length (hv.pending_eq hg)
    rw [List.length_map, List.length_map] at hlengths
    exact hlengths.symm
  have hseen := h.disarmed.issueDue hv hkeeps' hdriven.disarmed hjoins' hconsistent'
    (.inl (Nat.le_refl g.remaining)) (.inl (Nat.le_of_eq hlength))
  rw [hresult] at hseen
  obtain ⟨t', hresult', halike⟩ := exists_of_step hseen
  rw [issue_of_due hjoins.initiator hresult, issue_of_due hinitiator' hresult']
  have hkeeps₁ : v.Keeps (t.flow g₁ m₁) := hkeeps'.imp_right hdue.accompanied
  exact halike.armIssue hv hjoins₁.initiator (hdue.ends.imp hjoins₁.stalled.2 (hkeeps₁.due_head hv))

/-! ### Steps -/

section Steps

variable {tick : Tick} {event : SimEvent} {agenda : Agenda SimEvent}

/-- The same event does the same to simulations that look alike. -/
theorem dispatch (h : Alike v v' s s') (hv : v.Comparable v') (hkeeps : v.Keeps (s.flow g m))
    (hrunning : s.Running g m) (hpop : s.agenda.pop? = some (tick, event, agenda)) :
    v.step ({ s with agenda }.dispatch event) = v'.step ({ s' with agenda }.dispatch event) := by
  have hpopped := h.popped agenda
  cases event with
  | send d => rw [← Sight.send_simulation, ← Sight.send_simulation, hpopped]
  | memoryRetry => rw [← Sight.memoryRetry_simulation, ← Sight.memoryRetry_simulation, hpopped]
  | complete => exact Sight.step_completeOldest hpopped hrunning.joins.target
  | issue =>
    have hdriven := hrunning.driven.popped hpop (by simp)
    have hconsistent := consistent_popped hrunning.consistent agenda
    have hlater : v.Keeps ({ s with agenda }.flow g m) :=
      hkeeps.imp_right fun haccompanied => haccompanied.later (le_of_pop hpop) rfl
    exact hpopped.issue hv hlater hdriven hrunning.joins hconsistent

/-- Simulations that look alike make steps alike. -/
theorem step (h : Alike v v' s s') (hv : v.Comparable v') (hkeeps : v.Keeps (s.flow g m))
    (hrunning : s.Running g m) : v.step s.step = v'.step s'.step := by
  rw [Simulation.step, Simulation.step, h.agenda_eq]
  cases hpop : s.agenda.pop? with
  | none => exact congrArg (·, Except.ok false) h
  | some popped =>
    obtain ⟨tick, event, agenda⟩ := popped
    obtain ⟨s₁, g₁, m₁, hresult, hdriven, hjoins, -⟩ := hrunning.carried hpop
    have hseen₁ := h.dispatch hv hkeeps hrunning hpop
    rw [hresult] at hseen₁
    obtain ⟨s₁', hresult', halike₁⟩ := exists_of_step hseen₁
    obtain ⟨s₂, hlook, -⟩ := shows_lookAfter ⟨hdriven, hjoins, rfl⟩
    have hseen₂ : v.step s₁.lookAfter = v'.step s₁'.lookAfter := by
      rw [← Sight.lookAfter_simulation, ← Sight.lookAfter_simulation, halike₁]
    rw [hlook] at hseen₂
    obtain ⟨s₂', hlook', halike₂⟩ := exists_of_step hseen₂
    simp only [hresult, hresult', hlook, hlook']
    exact congrArg (·, Except.ok true) halike₂

end Steps

/-! ### Runs -/

/-- Simulations that look alike both end, or both make a step and look alike again. -/
theorem next (h : Alike v v' s s') (hv : v.Comparable v') (hkeeps : v.Keeps (s.flow g m))
    (hrunning : s.Running g m) :
    (s.agenda.pop? = none ∧ s.step = (s, .ok false) ∧ s'.step = (s', .ok false)) ∨
      ∃ t t' g' m', s.step = (t, .ok true) ∧ s'.step = (t', .ok true) ∧ Alike v v' t t' ∧
        v.Keeps (t.flow g' m') ∧ t.Running g' m' := by
  rcases hrunning.step with ⟨hpop, hstep⟩ | ⟨t, g', m', hstep, hrunning', hflow⟩
  · refine .inl ⟨hpop, hstep, ?_⟩
    rw [Simulation.step, h.agenda_eq, hpop]
  · have hseen := h.step hv hkeeps hrunning
    have hnow := hrunning.now_le_step
    rw [hstep] at hseen hnow
    obtain ⟨t', hstep', halike⟩ := exists_of_step hseen
    have hkeeps' := hkeeps.imp_right (hflow.accompanied hnow)
    exact .inr ⟨t, t', g', m', hstep, hstep', halike, hkeeps', hrunning'⟩

/-- Simulations that look alike carry out the same events at the same ticks. -/
theorem dispatched_eq (h : Alike v v' s s') (hv : v.Comparable v') (hkeeps : v.Keeps (s.flow g m))
    (hrunning : s.Running g m) (n : Nat) : s'.dispatched n = s.dispatched n := by
  induction n generalizing s s' g m with
  | zero => rfl
  | succ n ih =>
    rw [dispatched, dispatched, h.agenda_eq]
    rcases h.next hv hkeeps hrunning with
      ⟨hpop, -⟩ | ⟨t, t', g', m', hstep, hstep', halike, hkeeps', hrunning'⟩
    · rw [hpop]
    · rw [hstep, hstep', ih halike hkeeps' hrunning']

theorem conclude (h : Alike v v' s s') (hv : v.Comparable v') (hrunning : s.Running g m)
    {report : Report} (hconclude : s.conclude = .ok report) :
    ∃ report', s'.conclude = .ok report' ∧ v'.report report' = v.report report := by
  obtain ⟨g', hinitiator', hg⟩ := Sight.exists_generator h hrunning.joins.initiator
  obtain ⟨m', htarget', hm⟩ := Sight.exists_memory h hrunning.joins.target
  obtain ⟨hpending, hreserved, rfl⟩ :=
    (conclude_eq_ok_iff hrunning.joins.initiator hrunning.joins.target).1 hconclude
  have hpending' : g'.pending = [] := by
    have hnone := hv.pending_eq hg
    rw [hpending] at hnone
    exact List.map_eq_nil_iff.1 hnone
  have hreserved' : s'.bridge.front.reserved = 0 :=
    (congrArg (·.bridge.front.reserved) h.symm).trans hreserved
  refine ⟨_, (conclude_eq_ok_iff hinitiator' htarget').2 ⟨hpending', hreserved', rfl⟩, ?_⟩
  have hreport : v'.report s'.report = v.report s.report := congrArg Simulation.report h.symm
  have hretries : g'.retries = g.retries := (congrArg Generator.retries hg).trans rfl
  have hrefusals : m'.refusals = m.refusals := (congrArg Memory.refusals hm).trans rfl
  rw [hretries, hrefusals, h.now_eq]
  exact congrArg (fun r : Report =>
    { r with retries := g.retries, memoryRefusals := m.refusals, finalTick := s.now }) hreport

/-- Runs of simulations that look alike return reports that look alike. -/
theorem run? (h : Alike v v' s s') (hv : v.Comparable v') (hkeeps : v.Keeps (s.flow g m))
    (hrunning : s.Running g m) {n : Nat} {report : Report} (hrun : s.run? n = some (.ok report)) :
    ∃ report', s'.run? n = some (.ok report') ∧ v'.report report' = v.report report := by
  induction n generalizing s s' g m with
  | zero => cases hrun
  | succ n ih =>
    rw [Simulation.run?] at hrun ⊢
    rcases h.next hv hkeeps hrunning with
      ⟨-, hstep, hstep'⟩ | ⟨t, t', g', m', hstep, hstep', halike, hkeeps', hrunning'⟩
    · rw [hstep] at hrun
      obtain ⟨report', hconclude', hsame⟩ := h.conclude hv hrunning (Option.some.inj hrun)
      rw [hstep']
      exact ⟨report', congrArg some hconclude', hsame⟩
    · rw [hstep] at hrun
      rw [hstep']
      exact ih halike hkeeps' hrunning' hrun

end Alike

/-! ### The first state -/

section First

variable {v v' : Sight} {sc sc' : Scenario} {b b' : Bridge Generator Memory} {s : Simulation}

theorem simulation_unarmed (v : Sight) (sc : Scenario) (b : Bridge Generator Memory)
    (agenda : Agenda SimEvent) :
    v.simulation (unarmed sc b agenda) =
      { bridge := ((v.portrait.bridge b).withInitiator
          (v.generator { Generator.ofTraffic sc.traffic with ranges := b.front.ranges })).withTarget
            (firstMemory sc)
        agenda
        report := { trafficTag := (v.portrait.bridge b).front.tag } } := by
  obtain ⟨rename, shows, labelled, counts⟩ := v
  cases counts <;> rfl

/-- Scenarios make simulations that look alike, if their bridges and their accesses look alike, the
memories are the same, and the accesses that are left out do not put off the first one that is not. -/
theorem exists_alike (hv : v.Comparable v') (hb : Bridge.ofConfig "bridge" sc.bridge = .ok b)
    (hb' : Bridge.ofConfig "bridge" sc'.bridge = .ok b')
    (hbridge : v.portrait.bridge b = v'.portrait.bridge b')
    (hissues : ((numberedIssues 1 sc.traffic).filter (v.shows ·.mode)).map v.rendering.issue =
      (numberedIssues 1 sc'.traffic).map v'.rendering.issue)
    (hmemory : firstMemory sc = firstMemory sc')
    (hhead : ∀ now, ((numberedIssues 1 sc.traffic).filter (v.shows ·.mode)).head?.map
        (fun i => max i.tick now) =
      (numberedIssues 1 sc.traffic).head?.map fun i => max i.tick now)
    (hs : ofScenario sc = .ok s) : ∃ s', ofScenario sc' = .ok s' ∧ Alike v v' s s' := by
  obtain ⟨agenda, hstart⟩ := exists_unarmed
  have hranges : b.front.ranges = b'.front.ranges := congrArg (·.front.ranges) hbridge
  have hgenerator : v.generator { Generator.ofTraffic sc.traffic with ranges := b.front.ranges } =
      v'.generator { Generator.ofTraffic sc'.traffic with ranges := b'.front.ranges } := by
    rw [Sight.generator, Sight.generator, Sight.filter_of_all hv.all, hranges]
    exact congrArg (fun pending => { Generator.ofTraffic [] with pending, ranges := b'.front.ranges })
      hissues
  have hunarmed : Alike v v' (unarmed sc b agenda) (unarmed sc' b' agenda) := by
    rw [Alike, simulation_unarmed, simulation_unarmed, hbridge, hgenerator, hmemory]
  have harmed : (unarmed sc b agenda).armIssue = (s, .ok ()) := by
    rw [hstart sc b hb] at hs
    split at hs
    next => cases hs
    next harm =>
      cases hs
      exact harm
  have hseen := hunarmed.armIssue hv
    (g := { Generator.ofTraffic sc.traffic with ranges := b.front.ranges }) rfl (.inr (hhead agenda.now))
  rw [harmed] at hseen
  obtain ⟨s', harmed', halike⟩ := Alike.exists_of_step hseen
  refine ⟨s', ?_, halike⟩
  rw [hstart sc' b' hb', harmed']

end First

end Simulation

end TimedBridge
