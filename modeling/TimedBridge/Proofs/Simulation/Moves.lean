import TimedBridge.Proofs.Simulation.Cargo
import TimedBridge.Proofs.Simulation.Ends

/-!
How the cargo of a simulation moves. An event that is carried out without a fault moves it
(`holds_dispatch`), and looking after the agents only takes the responses that have arrived
(`bridge_lookAfter`). So what every move keeps holds after any number of steps (`Running.run_induction`).
-/

namespace TimedBridge

namespace Simulation

variable {s s' : Simulation} {v : Cargo}

theorem holds_adopt {α : Type} (s : Simulation) {o : Outcome (Bridge Generator Memory) α}
    (h : o.state.Holds v) : (s.adopt o).bridge.Holds v := by
  rw [bridge_adopt]
  exact h

theorem eq_of_finish {o : Call Generator Memory Unit} (h : s.finish o = (s', .ok ())) :
    o.answer = .ok () ∧ s'.bridge = o.state := by
  obtain ⟨rfl, hanswer⟩ := Prod.mk.inj h
  refine ⟨?_, s.bridge_adopt o⟩
  cases heq : o.answer with
  | error fault => rw [heq] at hanswer; cases hanswer
  | ok => rfl

/-- A timed access is let in, or it goes back to the generator. -/
theorem holds_issueTimed {i : Issue} (h : s.bridge.Holds v) (hok : s.issueTimed i = (s', .ok ())) :
    (∃ q, i.packet.Relabelled .request q ∧ s'.bridge.Holds { v with queued := v.queued ++ [q] }) ∨
      s'.bridge.Holds { v with pending := (i.packet, i.mode) :: v.pending } := by
  rw [issueTimed] at hok
  dsimp only at hok
  split at hok
  next => cases hok
  next haccepted =>
    left
    obtain ⟨q, hlabels, hholds⟩ := Bridge.holds_submit_accepted h haccepted
    refine ⟨q, hlabels, ?_⟩
    obtain rfl := congrArg Prod.fst hok
    dsimp only
    split
    next => exact s.holds_adopt hholds
    next => exact s.holds_adopt hholds
  next packet hrefused =>
    right
    obtain ⟨rfl, hholds⟩ := Bridge.holds_submit_refused h hrefused
    obtain ⟨g, m, hinitiator, htarget, rfl⟩ := s.holds_adopt hholds
    have hgenerator : ((s.adopt (s.bridge.submit s.now i.packet)).count fun r =>
        { r with refused := r.refused + 1 }).generator = .ok g := generator_of_bound hinitiator
    rw [hgenerator] at hok
    obtain rfl := congrArg Prod.fst hok
    exact ⟨_, m, rfl, htarget, rfl⟩

theorem holds_issueAtomic {p : Packet} (h : s.bridge.Holds v) (hok : s.issueAtomic p = (s', .ok ())) :
    ∃ m : Memory, m.byteAt = v.contents ∧
      s'.bridge.Holds { v with contents := (m.perform p).1.byteAt } := by
  rw [issueAtomic] at hok
  split at hok
  next => cases hok
  next latency hanswer =>
    obtain ⟨m, hcontents, hholds⟩ := Bridge.holds_atomic h hanswer
    obtain rfl := congrArg Prod.fst hok
    exact ⟨m, hcontents, s.holds_adopt hholds⟩

theorem functional_of_issueFunctional {p : Packet} (hok : s.issueFunctional p = (s', .ok ())) :
    (s.bridge.functional p).answer = .ok () ∧ s'.bridge = (s.bridge.functional p).state.1 := by
  rw [issueFunctional] at hok
  split at hok
  next => cases hok
  next hanswer =>
    obtain rfl := congrArg Prod.fst hok
    exact ⟨hanswer, s.bridge_adopt _⟩

/-- An access is issued, or it stays the next one. -/
theorem holds_issueOne {i : Issue} (h : s.bridge.Holds v) (hok : s.issueOne i = (s', .ok ())) :
    ∃ v', s'.bridge.Holds v' ∧
      (v' = { v with pending := (i.packet, i.mode) :: v.pending } ∨
        { v with pending := (i.packet, i.mode) :: v.pending }.Issues v') := by
  have hranges : s.bridge.front.ranges = v.ranges := by
    obtain ⟨g, m, -, -, rfl⟩ := h
    rfl
  rw [issueOne, routable, hranges] at hok
  by_cases hcovers : v.Covers i.packet
  · rw [if_pos (by exact hcovers)] at hok
    cases hmode : i.mode with
    | timing =>
      simp only [hmode] at hok
      rcases holds_issueTimed h hok with ⟨q, hlabels, hholds⟩ | hholds
      · exact ⟨_, hholds, .inr (.queued (hmode ▸ rfl) hcovers hlabels)⟩
      · exact ⟨_, hholds, .inl (hmode ▸ rfl)⟩
    | atomic =>
      simp only [hmode] at hok
      obtain ⟨m, hcontents, hholds⟩ := holds_issueAtomic h hok
      exact ⟨_, hholds, .inr (.atomic (hmode ▸ rfl) hcovers hcontents)⟩
    | functional =>
      simp only [hmode] at hok
      obtain ⟨hanswer, hbridge⟩ := functional_of_issueFunctional hok
      rw [hbridge]
      cases hwrite : i.packet.isWrite with
      | false =>
        exact ⟨_, Bridge.holds_functional_read h hwrite hanswer,
          .inr (.functionalRead (hmode ▸ rfl) hcovers hwrite)⟩
      | true =>
        obtain ⟨m, returning, hcontents, hholds⟩ := Bridge.holds_functional_write h hwrite hanswer
        exact ⟨_, hholds, .inr (.functionalWrite (hmode ▸ rfl) hcovers hwrite hcontents)⟩
  · rw [if_neg (by exact hcovers)] at hok
    obtain rfl := congrArg Prod.fst hok
    exact ⟨v, h, .inr (.dropped rfl hcovers)⟩

theorem eq_of_nextDue? {g g' : Generator} {now : Tick} {i : Issue}
    (h : g.nextDue? now = some (i, g')) :
    ∃ rest, g.pending = i :: rest ∧ g' = { g with pending := rest } := by
  rw [Generator.nextDue?] at h
  split at h
  next issue rest _ hpending =>
    split at h
    next =>
      cases h
      exact ⟨rest, hpending, rfl⟩
    next => cases h
  next => cases h

/-- The next access that is due is issued, or it stays the next one. -/
theorem holds_issueNext {g g' : Generator} {m : Memory} {i : Issue}
    (htarget : s.bridge.back.agent = some m) (hnext : g.nextDue? s.now = some (i, g'))
    (hone : (s.withGenerator g').issueOne i = (s', .ok ())) :
    ∃ v', s'.bridge.Holds v' ∧ (v' = s.bridge.cargo g m ∨ (s.bridge.cargo g m).Issues v') := by
  obtain ⟨rest, hpending, rfl⟩ := eq_of_nextDue? hnext
  have htaken : (s.withGenerator { g with pending := rest }).bridge.Holds
      { s.bridge.cargo g m with pending := rest.map fun i => (i.packet, i.mode) } :=
    ⟨_, m, rfl, htarget, rfl⟩
  obtain ⟨v', hholds, hissues⟩ := holds_issueOne htaken hone
  have hwhole : { s.bridge.cargo g m with
      pending := (i.packet, i.mode) :: rest.map fun i => (i.packet, i.mode) } = s.bridge.cargo g m := by
    rw [Bridge.cargo, hpending, List.map_cons]
  dsimp only at hissues
  rw [hwhole] at hissues
  exact ⟨v', hholds, hissues⟩

/-- The accesses that are due are issued one after another. -/
theorem holds_issueDue (n : Nat) (h : s.bridge.Holds v) (hok : s.issueDue n = (s', .ok ())) :
    ∃ v', s'.bridge.Holds v' ∧ Relation.ReflTransGen Cargo.Issues v v' := by
  induction n generalizing s v with
  | zero =>
    obtain rfl := congrArg Prod.fst hok
    exact ⟨v, h, .refl⟩
  | succ n ih =>
    obtain ⟨g, m, hinitiator, htarget, rfl⟩ := h
    have hsame : s.bridge.Holds (s.bridge.cargo g m) := ⟨g, m, hinitiator, htarget, rfl⟩
    rw [issueDue, generator_of_bound hinitiator] at hok
    split at hok
    next =>
      obtain rfl := congrArg Prod.fst hok
      exact ⟨_, hsame, .refl⟩
    next heq => cases heq
    next heq =>
      cases heq
      split at hok
      next =>
        obtain rfl := congrArg Prod.fst hok
        exact ⟨_, hsame, .refl⟩
      next i g' hnext =>
        split at hok
        next => cases hok
        next s₁ hone =>
          obtain ⟨v₁, hholds, hissues⟩ := holds_issueNext htarget hnext hone
          obtain ⟨v', hholds', hrest⟩ := ih hholds hok
          refine ⟨v', hholds', ?_⟩
          rcases hissues with rfl | hissues
          · exact hrest
          · exact .head hissues hrest

theorem holds_issue (h : s.bridge.Holds v) (hok : s.issue = (s', .ok ())) :
    ∃ v', s'.bridge.Holds v' ∧ v.Moves v' := by
  obtain ⟨g, m, hinitiator, -⟩ := id h
  obtain ⟨t, hdue, harm⟩ := exists_due_of_issue hinitiator hok
  obtain ⟨v', hholds, hissues⟩ := holds_issueDue _ (s.bridge_disarmed.symm ▸ h) hdue
  have hbridge := t.bridge_armIssue
  rw [harm] at hbridge
  exact ⟨v', hbridge ▸ hholds, .issues hissues⟩

/-- The memory completes its oldest request, if it has one. -/
theorem holds_completeOldest (h : s.bridge.Holds v) (hok : s.completeOldest = (s', .ok ())) :
    ∃ v', s'.bridge.Holds v' ∧ v.Moves v' := by
  obtain ⟨g, m, hinitiator, htarget, rfl⟩ := h
  have hmemory := memory_of_bound htarget
  rw [completeOldest, hmemory] at hok
  cases hservice : m.inService with
  | nil =>
    simp only [Memory.completeNext, hservice] at hok
    obtain rfl := congrArg Prod.fst hok
    exact ⟨_, ⟨g, m, hinitiator, rfl, rfl⟩, .stays⟩
  | cons p rest =>
    have hperformed : (s.withMemory ({ m with inService := rest }.perform p).1).bridge.Holds
        { s.bridge.cargo g m with
          inService := rest
          contents := ({ m with inService := rest }.perform p).1.byteAt } := by
      refine ⟨g, _, hinitiator, rfl, ?_⟩
      rw [Bridge.cargo, Memory.inService_perform]
      rfl
    have holdest : (s.bridge.cargo g m).inService = p :: rest := hservice
    have hcontents : { m with inService := rest }.byteAt = (s.bridge.cargo g m).contents :=
      Memory.byteAt_congr rfl
    simp only [completeNext_cons hservice] at hok
    cases hexpects : p.expectsResponse with
    | false =>
      simp only [hexpects] at hok
      obtain rfl := congrArg Prod.fst hok
      have hanswers : List.Forall₂ (Packet.Relabelled .response)
          (if p.expectsResponse then [({ m with inService := rest }.perform p).2] else []) [] := by
        rw [hexpects]
        exact .nil
      have hcarries := Cargo.Carries.performed holdest hcontents hanswers
      rw [List.append_nil] at hcarries
      exact ⟨_, hperformed, .carries hcarries⟩
    | true =>
      simp only [hexpects, if_true] at hok
      obtain ⟨hanswer, hbridge⟩ := eq_of_finish hok
      obtain ⟨q, hlabels, hholds⟩ := Bridge.holds_respond hperformed hanswer
      rw [hbridge]
      refine ⟨_, hholds, .carries (.performed holdest hcontents ?_)⟩
      rw [hexpects]
      exact .cons hlabels .nil

/-- Every event that is carried out without a fault moves the cargo. -/
theorem holds_dispatch {event : SimEvent} (h : s.bridge.Holds v)
    (hok : s.dispatch event = (s', .ok ())) : ∃ v', s'.bridge.Holds v' ∧ v.Moves v' := by
  cases event with
  | send d =>
    rw [(eq_of_finish hok).2]
    exact h.attempt s.now d
  | issue => exact holds_issue h hok
  | complete => exact holds_completeOldest h hok
  | memoryRetry =>
    rw [(eq_of_finish hok).2]
    exact h.requestRetry s.now

/-! ### Looking after the agents -/

theorem bridge_schedules (s : Simulation) (l : List Nat) (event : SimEvent) (tick : Tick) :
    (l.foldl (fun s _ => s.schedule event tick) s).bridge = s.bridge := by
  induction l generalizing s with
  | nil => rfl
  | cons _ rest ih => exact ih _

theorem bridge_countResponses (s : Simulation) (responses : List Packet) :
    (responses.foldl countResponse s).bridge = s.bridge := by
  induction responses generalizing s with
  | nil => rfl
  | cons p rest ih =>
    rw [List.foldl_cons, ih, countResponse_eq]

/-- What looking after a memory schedules. -/
theorem lookAfterMemory_of_bound {m : Memory} (hmemory : s.memory = .ok m) {tended : Simulation}
    (htended : (List.range m.newlyAccepted).foldl
      (fun t _ => t.schedule .complete (cappedAdd s.now m.latency)) (s.withMemory m.rested) = tended) :
    s.lookAfterMemory =
      (if m.owesRetry then tended.schedule .memoryRetry (cappedAdd tended.now 1) else tended,
        .ok ()) := by
  rw [lookAfterMemory, hmemory, ← htended]
  rfl

/-- What looking after a generator counts and schedules. -/
theorem lookAfterGenerator_of_bound {g : Generator} (hgenerator : s.generator = .ok g)
    {tended : Simulation}
    (htended : g.responses.foldl countResponse (s.withGenerator g.rested) = tended) :
    s.lookAfterGenerator =
      (if g.retryReceived then tended.schedule .issue tended.now else tended, .ok ()) := by
  rw [lookAfterGenerator, hgenerator, ← htended]
  rfl

/-- Looking after the agents notes what they ask for and what the generator has got, and changes nothing
else. -/
theorem bridge_lookAfter {g : Generator} {m : Memory} (hinitiator : s.bridge.front.agent = some g)
    (htarget : s.bridge.back.agent = some m) (hok : s.lookAfter = (s', .ok ())) :
    s'.bridge = (s.bridge.withTarget m.rested).withInitiator g.rested := by
  have hmemory := memory_of_bound htarget
  obtain ⟨s₁, hlooked, hbridge⟩ : ∃ s₁, s.lookAfterMemory = (s₁, .ok ()) ∧
      s₁.bridge = s.bridge.withTarget m.rested := by
    rw [lookAfterMemory, hmemory]
    refine ⟨_, rfl, ?_⟩
    dsimp only
    split
    next => exact bridge_schedules _ _ _ _
    next => exact bridge_schedules _ _ _ _
  have hgenerator : s₁.generator = .ok g := by
    refine generator_of_bound ?_
    rw [hbridge]
    exact hinitiator
  rw [lookAfter, hlooked] at hok
  dsimp only at hok
  rw [lookAfterGenerator, hgenerator] at hok
  obtain rfl := congrArg Prod.fst hok
  dsimp only
  rw [← hbridge]
  split
  next => exact bridge_countResponses _ _
  next => exact bridge_countResponses _ _

/-! ### Steps and runs -/

/-- The responses that the next event brings to the generator. -/
def brought (s : Simulation) : List Packet :=
  match s.agenda.pop? with
  | none => []
  | some (_, event, agenda) =>
    match ({ s with agenda }.dispatch event).1.bridge.front.agent with
    | some g => g.responses
    | none => []

/-- The responses that a number of steps bring to the generator. -/
def broughtIn (s : Simulation) : Nat → List Packet
  | 0 => []
  | n + 1 => s.brought ++ s.step.1.broughtIn n

theorem after_add (s : Simulation) (k n : Nat) : s.after (k + n) = (s.after k).after n := by
  induction k generalizing s with
  | zero => rw [Nat.zero_add]; rfl
  | succ k ih =>
    rw [Nat.succ_add]
    exact ih s.step.1

theorem exists_of_step (h : s.step = (s', .ok true)) :
    ∃ tick event agenda s₁, s.agenda.pop? = some (tick, event, agenda) ∧
      { s with agenda }.dispatch event = (s₁, .ok ()) ∧ s₁.lookAfter = (s', .ok ()) := by
  rw [step] at h
  split at h
  next => cases h
  next tick event agenda hpop =>
    split at h
    next => cases h
    next s₁ hdispatch =>
      split at h
      next => cases h
      next s₂ hlooked =>
        cases h
        exact ⟨tick, event, agenda, s₁, hpop, hdispatch, hlooked⟩

/-- A step moves the cargo, and takes the responses that have arrived. -/
theorem moves_of_step {g g' : Generator} {m m' : Memory} (hinitiator : s.bridge.front.agent = some g)
    (htarget : s.bridge.back.agent = some m) (hstep : s.step = (s', .ok true))
    (hinitiator' : s'.bridge.front.agent = some g') (htarget' : s'.bridge.back.agent = some m') :
    g'.responses = [] ∧ (s.bridge.cargo g m).Moves
      { s'.bridge.cargo g' m' with returning := s.brought ++ (s'.bridge.cargo g' m').returning } := by
  obtain ⟨tick, event, agenda, s₁, hpop, hdispatch, hlooked⟩ := exists_of_step hstep
  have hholds : { s with agenda }.bridge.Holds (s.bridge.cargo g m) := ⟨g, m, hinitiator, htarget, rfl⟩
  obtain ⟨v', ⟨g₁, m₁, hinitiator₁, htarget₁, rfl⟩, hmoves⟩ := holds_dispatch hholds hdispatch
  have hbridge := bridge_lookAfter hinitiator₁ htarget₁ hlooked
  have hbrought : s.brought = g₁.responses := by
    rw [brought, hpop]
    dsimp only
    rw [hdispatch]
    dsimp only
    rw [hinitiator₁]
  rw [hbridge] at hinitiator' htarget'
  obtain rfl := Option.some.inj hinitiator'
  obtain rfl := Option.some.inj htarget'
  refine ⟨rfl, ?_⟩
  rw [hbrought, hbridge]
  exact hmoves

/-- What every move keeps holds after any number of steps, when the generator has been looked after. -/
theorem Running.run_induction {P : List Packet → Cargo → Prop} {g : Generator} {m : Memory}
    (h : s.Running g m) (hrested : g.responses = [])
    (hmove : ∀ arrived v v', v.Moves v' → P arrived v → P arrived v')
    (harrive : ∀ arrived brought v,
      P arrived { v with returning := brought ++ v.returning } → P (arrived ++ brought) v)
    (n : Nat) (arrived : List Packet) (hP : P arrived (s.bridge.cargo g m)) :
    ∃ g' m', (s.after n).Running g' m' ∧ g'.responses = [] ∧
      P (arrived ++ s.broughtIn n) ((s.after n).bridge.cargo g' m') := by
  induction n generalizing s g m arrived with
  | zero => exact ⟨g, m, h, hrested, by rwa [broughtIn, List.append_nil]⟩
  | succ n ih =>
    rw [Simulation.after, broughtIn]
    rcases h.step with ⟨hpop, hstep⟩ | ⟨s', g', m', hstep, hrunning, -⟩
    · have hbrought : s.brought = [] := by rw [brought, hpop]
      rw [hstep, hbrought]
      exact ih h hrested _ hP
    · obtain ⟨hrested', hmoves⟩ := moves_of_step h.joins.initiator h.joins.target hstep
        hrunning.joins.initiator hrunning.joins.target
      rw [hstep, ← List.append_assoc]
      exact ih hrunning hrested' _ (harrive _ _ _ (hmove _ _ _ hmoves hP))

/-! ### How a run ends -/

theorem after_of_pop_none (h : s.agenda.pop? = none) (n : Nat) : s.after n = s := by
  induction n with
  | zero => rfl
  | succ n ih =>
    have hstep : s.step = (s, .ok false) := by rw [step, h]
    rw [Simulation.after, hstep]
    exact ih

/-- When no event is left, it does not matter how many steps were made. -/
theorem after_eq_of_pop_none {k n : Nat} (hk : (s.after k).agenda.pop? = none)
    (hn : (s.after n).agenda.pop? = none) : s.after n = s.after k := by
  rcases Nat.le_total k n with hle | hle
  · obtain ⟨r, rfl⟩ := Nat.exists_eq_add_of_le hle
    rw [after_add, after_of_pop_none hk]
  · obtain ⟨r, rfl⟩ := Nat.exists_eq_add_of_le hle
    rw [after_add, after_of_pop_none hn]

theorem Running.returns {g : Generator} {m : Memory} (h : s.Running g m)
    (hending : (s.flow g m).Ending) : ∃ n report, s.run? n = some (.ok report) := by
  obtain ⟨n, hn⟩ := h.ends hending
  obtain ⟨result, hresult⟩ := Option.isSome_iff_exists.1 hn
  cases result with
  | error fault => exact absurd hresult (h.run?_ne_error n fault)
  | ok report => exact ⟨n, report, hresult⟩

/-- When a run returns, no event is left. -/
theorem Running.pop_of_run? {g : Generator} {m : Memory} (h : s.Running g m) {n : Nat}
    {result : Except SimFault Report} (hrun : s.run? n = some result) :
    (s.after n).agenda.pop? = none := by
  induction n generalizing s g m with
  | zero => cases hrun
  | succ n ih =>
    rw [run?] at hrun
    rw [Simulation.after]
    rcases h.step with ⟨hpop, hstep⟩ | ⟨s', g', m', hstep, hrunning, -⟩
    · rw [hstep, after_of_pop_none hpop]
      exact hpop
    · rw [hstep] at hrun ⊢
      exact ih hrunning hrun

/-- What a run returns is read off the last state. -/
theorem Running.conclude_of_run? {g : Generator} {m : Memory} (h : s.Running g m) {n : Nat}
    {result : Except SimFault Report} (hrun : s.run? n = some result) :
    (s.after n).conclude = result := by
  induction n generalizing s g m with
  | zero => cases hrun
  | succ n ih =>
    rw [run?] at hrun
    rw [Simulation.after]
    rcases h.step with ⟨hpop, hstep⟩ | ⟨s', g', m', hstep, hrunning, -⟩
    · rw [hstep] at hrun ⊢
      rw [after_of_pop_none hpop]
      exact Option.some.inj hrun
    · rw [hstep] at hrun ⊢
      exact ih hrunning hrun

/-- When a run returns, nothing is left to do. -/
theorem Running.drained_of_run? {g : Generator} {m : Memory} (h : s.Running g m) {n : Nat}
    {report : Report} (hrun : s.run? n = some (.ok report)) : (s.after n).Drained := by
  obtain ⟨g', m', hrunning⟩ := h.after n
  exact hrunning.drained (h.pop_of_run? hrun)

/-- With nothing left to do, all that is left of the cargo is in the memory. -/
theorem Running.cargo_of_drained {g : Generator} {m : Memory} (h : s.Running g m) (hdrained : s.Drained)
    (hrested : g.responses = []) :
    s.bridge.cargo g m = {
      ranges := s.bridge.front.ranges
      pending := []
      queued := []
      inService := []
      contents := m.byteAt
      returning := [] } := by
  obtain ⟨⟨g', hinitiator, hpending⟩, -, hqueues, -, m', htarget, hservice⟩ := hdrained
  obtain rfl := Option.some.inj (h.joins.initiator.symm.trans hinitiator)
  obtain rfl := Option.some.inj (h.joins.target.symm.trans htarget)
  have hrequests : s.bridge.back.requests.entries = [] := hqueues .request
  have hresponses : s.bridge.front.responses.entries = [] := hqueues .response
  simp only [Bridge.cargo, TransmitQueue.packets, hpending, hrequests, hresponses, hservice, hrested,
    List.map_nil, List.append_nil]

/-! ### The first cargo -/

/-- The cargo of a scenario before its first event. -/
def firstCargo (sc : Scenario) : Cargo where
  ranges := sc.bridge.ranges
  pending := (numberedIssues 1 sc.traffic).map fun i => (i.packet, i.mode)
  queued := []
  inService := []
  contents := fun _ => 0
  returning := []

theorem cargo_of_ofScenario {sc : Scenario} (hs : ofScenario sc = .ok s) {g : Generator} {m : Memory}
    (hinitiator : s.bridge.front.agent = some g) (htarget : s.bridge.back.agent = some m)
    (valid : sc.bridge.validate = .ok ()) :
    g.responses = [] ∧ s.bridge.cargo g m = firstCargo sc := by
  obtain ⟨b, hb, hfresh⟩ := Bridge.exists_ofConfig (υ := Generator) (δ := Memory) "bridge" valid
  have hbridge := bridge_of_ofScenario hs hb
  rw [hbridge] at hinitiator htarget
  obtain rfl := Option.some.inj hinitiator
  obtain rfl := Option.some.inj htarget
  refine ⟨rfl, ?_⟩
  have hqueued : b.back.requests.packets = [] := hfresh.packets_eq .request
  have hreturning : b.front.responses.packets = [] := hfresh.packets_eq .response
  have hcontents : (firstMemory sc).byteAt = fun _ => 0 := by
    funext a
    exact Std.HashMap.getD_empty
  rw [hbridge]
  change { firstCargo sc with
    ranges := b.front.ranges
    queued := b.back.requests.packets
    contents := (firstMemory sc).byteAt
    returning := b.front.responses.packets } = firstCargo sc
  rw [ranges_ofConfig hb, hqueued, hreturning, hcontents]
  rfl

end Simulation

end TimedBridge
