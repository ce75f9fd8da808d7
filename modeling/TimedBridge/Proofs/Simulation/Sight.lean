import Mathlib.Logic.Equiv.Defs
import TimedBridge.Proofs.Bridge.Rendering
import TimedBridge.Proofs.Simulation.Bookkeeping

/-!
Simulations from the outside: under other identities, without the bytes, with or without labels, and with
only some of the accesses that are still to come (`Sight`). What a simulation does can be told from what is
to be seen of it, so two simulations that look alike go on looking alike.
-/

namespace TimedBridge

/-- What of a simulation is looked at, and under which identities. -/
structure Sight where
  rename : Equiv.Perm RequestId
  /-- The modes of the accesses to come that can be seen. -/
  shows : AccessMode → Bool
  labelled : Bool
  /-- The numbers of functional and of unroutable accesses can be seen. -/
  counts : Bool

namespace Rendering

variable (r : Rendering)

def issue (i : Issue) : Issue := { i with packet := r.packet i.packet }

def simFault : SimFault → SimFault
  | .bridge fault => .bridge (r.fault fault)
  | .stalled tick unissued outstanding => .stalled tick unissued outstanding

end Rendering

namespace Sight

variable (v : Sight)

/-- Bytes cannot be seen, only how many there are: a functional write may lay its own over a packet. -/
def rendering : Rendering where
  rename := v.rename
  injective := v.rename.injective
  recast bytes := List.replicate bytes.length 0
  labelled := v.labelled

def generator (g : Generator) : Generator :=
  { g with
    pending := (g.pending.filter (v.shows ·.mode)).map v.rendering.issue
    responses := g.responses.map v.rendering.packet }

def memory (m : Memory) : Memory :=
  { m with bytes := {}, inService := m.inService.map v.rendering.packet }

def report (r : Report) : Report :=
  { r with
    functional := bif v.counts then r.functional else 0
    unroutable := bif v.counts then r.unroutable else 0
    trafficTag := v.rendering.tag r.trafficTag }

/-- Seen in this way, a generator and a memory are a generator and a memory. -/
def portrait : Portrait Generator Generator Memory Memory where
  toRendering := v.rendering
  initiator := v.generator
  target := v.memory
  offerResponse g p := by
    refine Prod.ext ?_ rfl
    simp [Initiator.offerResponse, generator]
  retryRequest _ := rfl
  advertise _ _ := rfl
  offerRequest m p := by
    by_cases hrefuses : Memory.Refuses m.refuseEvery (m.offered + 1)
    · have hrefuses' : Memory.Refuses (v.memory m).refuseEvery ((v.memory m).offered + 1) := hrefuses
      rw [show Target.offerRequest m p = _ from Memory.offer_of_refuses hrefuses]
      exact Memory.offer_of_refuses hrefuses'
    · have htakes : ¬ Memory.Refuses (v.memory m).refuseEvery ((v.memory m).offered + 1) := hrefuses
      rw [show Target.offerRequest m p = _ from Memory.offer_of_takes hrefuses]
      refine (Memory.offer_of_takes htakes).trans ?_
      simp [memory, Rendering.admission]

theorem memory_perform (m : Memory) (p : Packet) : v.memory (m.perform p).1 = v.memory m := by
  rw [m.perform_eq p]
  rfl

theorem steady_portrait : v.portrait.Steady where
  atomic := v.memory_perform
  functional := v.memory_perform

theorem hidesBytes_rendering : v.rendering.HidesBytes := by
  intro bytes bytes' hlength
  change List.replicate bytes.length 0 = List.replicate bytes'.length 0
  rw [hlength]

def simulation (s : Simulation) : Simulation :=
  { s with
    bridge := v.portrait.bridge s.bridge
    issuedAt := s.issuedAt.map v.rendering.keyed
    report := v.report s.report }

def step {α : Type} (result : Simulation.Step α) : Simulation.Step α :=
  (v.simulation result.1, result.2.mapError v.rendering.simFault)

/-! ### Calls on the bridge -/

theorem asked_effects (r : Rendering) (effects : List Effect) :
    Effect.asked (effects.map r.effect) = Effect.asked effects := by
  rw [Effect.asked, Effect.asked, List.filterMap_map]
  congr 1
  funext effect
  cases effect <;> rfl

variable (s : Simulation)

theorem scheduleAsked_simulation (effects : List Effect) :
    (v.simulation s).scheduleAsked effects = v.simulation (s.scheduleAsked effects) := by
  rw [Simulation.scheduleAsked, Simulation.scheduleAsked]
  induction Effect.asked effects generalizing s with
  | nil => rfl
  | cons ask rest ih => exact ih (s.schedule (.send ask.2) ask.1)

theorem adopt_simulation {α β : Type} (f : α → β) (o : Call Generator Memory α) :
    (v.simulation s).adopt (v.portrait.call f o) = v.simulation (s.adopt o) := by
  have hscheduled := v.scheduleAsked_simulation { s with bridge := o.state } o.effects
  rw [Simulation.adopt, Simulation.adopt, ← hscheduled, Simulation.scheduleAsked,
    Simulation.scheduleAsked]
  exact congrArg _ (asked_effects v.rendering o.effects)

theorem finish_simulation (o : Call Generator Memory Unit) :
    (v.simulation s).finish (v.portrait.call id o) = v.step (s.finish o) := by
  refine Prod.ext (v.adopt_simulation s id o) ?_
  change (v.rendering.answer id o.answer).mapError SimFault.bridge =
    (o.answer.mapError SimFault.bridge).mapError v.rendering.simFault
  cases o.answer <;> rfl

theorem send_simulation (d : Direction) :
    (v.simulation s).dispatch (.send d) = v.step (s.dispatch (.send d)) := by
  have hsent : (v.simulation s).bridge.attempt (v.simulation s).now d = _ :=
    v.portrait.attempt_bridge s.bridge s.now d
  rw [Simulation.dispatch, Simulation.dispatch, hsent]
  exact v.finish_simulation s (s.bridge.attempt s.now d)

theorem memoryRetry_simulation :
    (v.simulation s).dispatch .memoryRetry = v.step (s.dispatch .memoryRetry) := by
  have hretried : (v.simulation s).bridge.requestRetry (v.simulation s).now = _ :=
    v.portrait.requestRetry_bridge s.bridge s.now
  rw [Simulation.dispatch, Simulation.dispatch, hretried]
  exact v.finish_simulation s (s.bridge.requestRetry s.now)

theorem schedules_simulation (l : List Nat) (event : SimEvent) (tick : Tick) :
    l.foldl (fun s _ => s.schedule event tick) (v.simulation s) =
      v.simulation (l.foldl (fun s _ => s.schedule event tick) s) := by
  induction l generalizing s with
  | nil => rfl
  | cons _ rest ih => exact ih (s.schedule event tick)

theorem generator_simulation : (v.simulation s).generator =
    (s.generator.map v.generator).mapError v.rendering.simFault := by
  have hagent : (v.simulation s).bridge.front.agent = s.bridge.front.agent.map v.generator := rfl
  rw [Simulation.generator, Simulation.generator, hagent]
  cases s.bridge.front.agent <;> rfl

theorem memory_simulation : (v.simulation s).memory =
    (s.memory.map v.memory).mapError v.rendering.simFault := by
  have hagent : (v.simulation s).bridge.back.agent = s.bridge.back.agent.map v.memory := rfl
  rw [Simulation.memory, Simulation.memory, hagent]
  cases s.bridge.back.agent <;> rfl

/-! ### Looking after the agents -/

theorem countResponse_simulation (p : Packet) :
    (v.simulation s).countResponse (v.rendering.packet p) = v.simulation (s.countResponse p) := by
  have hlookup : (v.simulation s).issuedAt.lookup (v.rendering.packet p).id = s.issuedAt.lookup p.id :=
    v.rendering.lookup_keyed s.issuedAt p.id
  have hleft : (v.simulation s).issuedAt.filter (fun e => e.1 != (v.rendering.packet p).id) = _ :=
    v.rendering.filter_keyed s.issuedAt p.id
  rw [Simulation.countResponse, Simulation.countResponse, hlookup]
  cases s.issuedAt.lookup p.id with
  | none => rfl
  | some issued =>
    dsimp only
    rw [hleft]
    rfl

theorem countResponses_simulation (responses : List Packet) :
    (responses.map v.rendering.packet).foldl Simulation.countResponse (v.simulation s) =
      v.simulation (responses.foldl Simulation.countResponse s) := by
  induction responses generalizing s with
  | nil => rfl
  | cons p rest ih =>
    rw [List.map_cons, List.foldl_cons, List.foldl_cons, v.countResponse_simulation, ih]

theorem lookAfterMemory_simulation :
    (v.simulation s).lookAfterMemory = v.step s.lookAfterMemory := by
  cases hmemory : s.memory with
  | error fault =>
    rw [Simulation.lookAfterMemory, Simulation.lookAfterMemory, v.memory_simulation, hmemory]
    rfl
  | ok m =>
    have hmemory' : (v.simulation s).memory = .ok (v.memory m) := by
      rw [v.memory_simulation, hmemory]
      rfl
    have htended := v.schedules_simulation (s.withMemory m.rested) (List.range m.newlyAccepted)
      .complete (cappedAdd s.now m.latency)
    rw [Simulation.lookAfterMemory_of_bound hmemory' htended,
      Simulation.lookAfterMemory_of_bound hmemory rfl]
    refine Prod.ext ?_ rfl
    change (if m.owesRetry then _ else _) = v.simulation (if m.owesRetry then _ else _)
    cases m.owesRetry <;> rfl

theorem lookAfterGenerator_simulation :
    (v.simulation s).lookAfterGenerator = v.step s.lookAfterGenerator := by
  cases hgenerator : s.generator with
  | error fault =>
    rw [Simulation.lookAfterGenerator, Simulation.lookAfterGenerator, v.generator_simulation,
      hgenerator]
    rfl
  | ok g =>
    have hgenerator' : (v.simulation s).generator = .ok (v.generator g) := by
      rw [v.generator_simulation, hgenerator]
      rfl
    have htended := v.countResponses_simulation (s.withGenerator g.rested) g.responses
    rw [Simulation.lookAfterGenerator_of_bound hgenerator' htended,
      Simulation.lookAfterGenerator_of_bound hgenerator rfl]
    refine Prod.ext ?_ rfl
    change (if g.retryReceived then _ else _) = v.simulation (if g.retryReceived then _ else _)
    cases g.retryReceived <;> rfl

theorem lookAfter_simulation : (v.simulation s).lookAfter = v.step s.lookAfter := by
  rw [Simulation.lookAfter, Simulation.lookAfter, v.lookAfterMemory_simulation]
  rcases s.lookAfterMemory with ⟨s', _ | _⟩
  · rfl
  · exact v.lookAfterGenerator_simulation s'

/-! ### Accesses -/

theorem routable_simulation (p : Packet) :
    (v.simulation s).routable (v.rendering.packet p) = s.routable p := rfl

theorem generator_stall {g : Generator} {i : Issue} (hshown : v.shows i.mode = true) :
    (v.generator g).stall (v.rendering.issue i) = v.generator (g.stall i) := by
  simp [generator, Generator.stall, hshown]

theorem issueTimed_simulation {i : Issue} (hshown : v.shows i.mode = true) :
    (v.simulation s).issueTimed (v.rendering.issue i) = v.step (s.issueTimed i) := by
  have hsubmitted : (v.simulation s).bridge.submit (v.simulation s).now (v.rendering.issue i).packet = _ :=
    v.portrait.submit_bridge s.bridge s.now i.packet
  have hadopted := v.adopt_simulation s v.portrait.admission (s.bridge.submit s.now i.packet)
  have hanswer : (v.portrait.call v.portrait.admission (s.bridge.submit s.now i.packet)).answer =
      v.rendering.answer v.rendering.admission (s.bridge.submit s.now i.packet).answer := rfl
  rw [Simulation.issueTimed, Simulation.issueTimed, hsubmitted]
  dsimp only
  rw [hadopted, hanswer]
  generalize s.adopt (s.bridge.submit s.now i.packet) = t
  cases (s.bridge.submit s.now i.packet).answer with
  | error fault => rfl
  | ok admission =>
    cases admission with
    | accepted =>
      refine Prod.ext ?_ rfl
      change (if i.packet.expectsResponse then _ else _) =
        v.simulation (if i.packet.expectsResponse then _ else _)
      cases i.packet.expectsResponse with
      | true =>
        have hnoted : (t.issuedAt ++ [(i.packet.id, s.now)]).map v.rendering.keyed =
            t.issuedAt.map v.rendering.keyed ++ [(v.rename i.packet.id, s.now)] := List.map_append
        simp only [if_true, simulation, Simulation.count, hnoted]
        rfl
      | false => rfl
    | refused p =>
      have hcounted : v.simulation (t.count fun r => { r with refused := r.refused + 1 }) =
          (v.simulation t).count fun r => { r with refused := r.refused + 1 } := rfl
      simp only [Rendering.answer, Rendering.admission]
      rw [← hcounted, v.generator_simulation]
      generalize t.count _ = t
      cases hgenerator : t.generator with
      | error fault => rfl
      | ok g =>
        have hstalled := v.generator_stall (g := g) (i := { i with packet := p, tick := s.now }) hshown
        exact congrArg (fun g => ((v.simulation t).withGenerator g, Except.ok ())) hstalled

variable {s} in
theorem simulation_of_bridge {b : Bridge Generator Memory}
    (h : v.portrait.bridge b = v.portrait.bridge s.bridge) :
    v.simulation { s with bridge := b } = v.simulation s := by
  rw [simulation, h]
  rfl

/-- What an atomic access leaves in sight is its latency. -/
theorem step_issueAtomic {m : Memory} {p : Packet} (htarget : s.bridge.back.agent = some m)
    (htag : p.tag = none) :
    v.step (s.issueAtomic p) =
      ((v.simulation s).count fun r =>
        { r with
          atomic := r.atomic + 1
          maxAtomicLatency :=
            max r.maxAtomicLatency (cappedAdd s.bridge.front.crossing.delayTicks m.latency) },
        .ok ()) := by
  have hend := s.bridge.atomicAccess_atomic p
  have hseen := v.steady_portrait.bridge_atomic (b := s.bridge) p
  rw [Simulation.issueAtomic]
  generalize s.bridge.atomic p = called at hend hseen ⊢
  cases hend with
  | alreadyTagged htagged => simp [htag] at htagged
  | unbound htagged hagent => simp [htarget] at hagent
  | @performed agent agent' answered latency htagged hagent hperform =>
    obtain rfl := Option.some.inj (htarget.symm.trans hagent)
    have hlatency : (m.perform (s.bridge.tagged p)).1.latency = latency := congrArg (·.2.2) hperform
    rw [m.perform_eq] at hlatency
    change m.latency = latency at hlatency
    rw [hlatency, ← v.simulation_of_bridge hseen]
    rfl

theorem simulation_functional :
    v.simulation (s.count fun r => { r with functional := r.functional + 1 }) =
      (v.simulation s).count fun r =>
        { r with functional := bif v.counts then r.functional + 1 else 0 } := by
  obtain ⟨rename, shows, labelled, counts⟩ := v
  cases counts <;> rfl

theorem simulation_unroutable :
    v.simulation (s.count fun r => { r with unroutable := r.unroutable + 1 }) =
      (v.simulation s).count fun r =>
        { r with unroutable := bif v.counts then r.unroutable + 1 else 0 } := by
  obtain ⟨rename, shows, labelled, counts⟩ := v
  cases counts <;> rfl

/-- Of a functional access, only that it was made can be in sight. -/
theorem step_issueFunctional {m : Memory} {p : Packet} (htarget : s.bridge.back.agent = some m)
    (htag : p.tag = none) :
    v.step (s.issueFunctional p) =
      (v.simulation (s.count fun r => { r with functional := r.functional + 1 }), .ok ()) := by
  have hend := s.bridge.functionalAccess_functional p
  have hseen : v.portrait.bridge (s.bridge.functional p).state.1 = v.portrait.bridge s.bridge :=
    v.steady_portrait.bridge_perform s.bridge s.now
      (show v.portrait.Overlooks (.functional p) from .inr v.hidesBytes_rendering)
  rw [Simulation.issueFunctional]
  generalize s.bridge.functional p = called at hend hseen ⊢
  have hcounted := v.simulation_of_bridge
    (s := s.count fun r => { r with functional := r.functional + 1 }) hseen
  cases hend with
  | alreadyTagged htagged => simp [htag] at htagged
  | unbound htagged hresponses hrequests hagent => simp [htarget] at hagent
  | byResponse =>
    rw [← hcounted]
    rfl
  | byRequest =>
    rw [← hcounted]
    rfl
  | performed =>
    rw [← hcounted]
    rfl

/-! ### Simulations that look alike -/

variable {v} {v' : Sight} {s} {s' : Simulation}

theorem exists_generator {g : Generator} (h : v.simulation s = v'.simulation s')
    (hinitiator : s.bridge.front.agent = some g) :
    ∃ g', s'.bridge.front.agent = some g' ∧ v'.generator g' = v.generator g := by
  have hagent : s.bridge.front.agent.map v.generator = s'.bridge.front.agent.map v'.generator :=
    congrArg (·.bridge.front.agent) h
  rw [hinitiator, Option.map_some] at hagent
  exact Option.map_eq_some_iff.1 hagent.symm

theorem exists_memory {m : Memory} (h : v.simulation s = v'.simulation s')
    (htarget : s.bridge.back.agent = some m) :
    ∃ m', s'.bridge.back.agent = some m' ∧ v'.memory m' = v.memory m := by
  have hagent : s.bridge.back.agent.map v.memory = s'.bridge.back.agent.map v'.memory :=
    congrArg (·.bridge.back.agent) h
  rw [htarget, Option.map_some] at hagent
  exact Option.map_eq_some_iff.1 hagent.symm

theorem withGenerator_eq {g g' : Generator} (h : v.simulation s = v'.simulation s')
    (hg : v.generator g = v'.generator g') :
    v.simulation (s.withGenerator g) = v'.simulation (s'.withGenerator g') := by
  change (v.simulation s).withGenerator (v.generator g) =
    (v'.simulation s').withGenerator (v'.generator g')
  rw [h, hg]

theorem withMemory_eq {m m' : Memory} (h : v.simulation s = v'.simulation s')
    (hm : v.memory m = v'.memory m') :
    v.simulation (s.withMemory m) = v'.simulation (s'.withMemory m') := by
  change (v.simulation s).withMemory (v.memory m) = (v'.simulation s').withMemory (v'.memory m')
  rw [h, hm]

/-! ### Completions -/

/-- The packet as a memory gives it back that holds `bytes` where it reads. -/
def answered (p : Packet) (bytes : List UInt8) : Packet :=
  match p.command with
  | .readRequest => { p.respond with data := some bytes }
  | .writeRequest | .writeback => p.respond
  | .readResponse | .writeResponse => p

theorem perform_eq_answered (m : Memory) (p : Packet) :
    (m.perform p).2 = answered p (m.read p.address p.size) := by
  rw [Memory.perform, answered]
  cases p.command with
  | readRequest => rfl
  | writeRequest => cases p.data <;> rfl
  | writeback => cases p.data <;> rfl
  | readResponse => rfl
  | writeResponse => rfl

theorem packet_answered (r : Rendering) (p : Packet) (bytes : List UInt8) :
    r.packet (answered p bytes) = answered (r.packet p) (r.recast bytes) := by
  have hrespond : r.packet p.respond = (r.packet p).respond := by
    simp only [Rendering.packet, Guise.packet, Packet.respond, apply_ite (Option.map r.recast),
      Option.map_none]
    rfl
  have hcommand : (r.packet p).command = p.command := rfl
  rw [answered, answered, hcommand, ← hrespond]
  cases p.command <;> rfl

/-- Two requests that look alike are answered alike. -/
theorem packet_perform {p p' : Packet} (h : v.rendering.packet p = v'.rendering.packet p')
    (m m' : Memory) : v.rendering.packet (m.perform p).2 = v'.rendering.packet (m'.perform p').2 := by
  have hsize : p.size = p'.size := (congrArg Packet.size h).trans rfl
  have hbytes : v.rendering.recast (m.read p.address p.size) =
      v'.rendering.recast (m'.read p'.address p'.size) := by
    change List.replicate _ 0 = List.replicate _ 0
    rw [Memory.read, Memory.read, Memory.length_readFrom, Memory.length_readFrom, hsize]
  rw [perform_eq_answered, perform_eq_answered, packet_answered, packet_answered, h, hbytes]

/-- Memories that look alike complete requests that look alike. -/
theorem completeNext_eq {m m' : Memory} (h : v.memory m = v'.memory m') :
    v.memory m.completeNext.2 = v'.memory m'.completeNext.2 ∧
      m.completeNext.1.map v.rendering.packet = m'.completeNext.1.map v'.rendering.packet := by
  have hservice : m.inService.map v.rendering.packet = m'.inService.map v'.rendering.packet :=
    congrArg Memory.inService h
  cases hin : m.inService with
  | nil =>
    rw [hin] at hservice
    have hin' : m'.inService = [] := List.map_eq_nil_iff.1 hservice.symm
    simp [Memory.completeNext, hin, hin', h]
  | cons p rest =>
    rw [hin, List.map_cons] at hservice
    obtain ⟨p', rest', hin', hp, hrest⟩ := List.map_eq_cons_iff.1 hservice.symm
    have hexpects : p.expectsResponse = p'.expectsResponse :=
      (congrArg Packet.expectsResponse hp.symm).trans rfl
    have hleft : v.memory { m with inService := rest } = v'.memory { m' with inService := rest' } := by
      have hrested := congrArg (fun m : Memory => { m with inService := rest.map v.rendering.packet }) h
      simpa only [memory, hrest] using hrested
    rw [Simulation.completeNext_cons hin, Simulation.completeNext_cons hin', hexpects]
    refine ⟨?_, ?_⟩
    · exact (v.memory_perform _ p).trans (hleft.trans (v'.memory_perform _ p').symm)
    · cases p'.expectsResponse with
      | true => exact congrArg some (packet_perform hp.symm _ _)
      | false => rfl

theorem step_respond (v : Sight) (s : Simulation) (p : Packet) :
    v.step (s.finish (s.bridge.respond s.now p)) =
      (v.simulation s).finish
        ((v.simulation s).bridge.respond (v.simulation s).now (v.rendering.packet p)) := by
  rw [← finish_simulation]
  exact congrArg (v.simulation s).finish (v.portrait.respond_bridge s.bridge s.now p).symm

/-- Simulations that look alike complete the oldest request alike. -/
theorem step_completeOldest (h : v.simulation s = v'.simulation s') {m : Memory}
    (htarget : s.bridge.back.agent = some m) : v.step s.completeOldest = v'.step s'.completeOldest := by
  obtain ⟨m', htarget', hm⟩ := exists_memory h htarget
  obtain ⟨hleft, hanswer⟩ := completeNext_eq hm.symm
  have hstate := withMemory_eq h hleft
  rw [Simulation.completeOldest, Simulation.completeOldest, Simulation.memory_of_bound htarget,
    Simulation.memory_of_bound htarget']
  dsimp only
  generalize m.completeNext = completed at hanswer hstate ⊢
  generalize m'.completeNext = completed' at hanswer hstate ⊢
  rcases completed with ⟨_ | p, m₁⟩
  · rcases completed' with ⟨_ | p', m₁'⟩
    · exact congrArg (·, Except.ok ()) hstate
    · cases hanswer
  · rcases completed' with ⟨_ | p', m₁'⟩
    · cases hanswer
    · have hp : v.rendering.packet p = v'.rendering.packet p' := Option.some.inj hanswer
      have hfirst := step_respond v (s.withMemory m₁) p
      have hsecond := step_respond v' (s'.withMemory m₁') p'
      rw [hstate, hp] at hfirst
      exact hfirst.trans hsecond.symm

/-! ### Issuing -/

/-- A functional access that does not count is issued out of sight. -/
theorem step_issueOne_hidden {m : Memory} {i : Issue} (htarget : s.bridge.back.agent = some m)
    (htag : i.packet.tag = none) (hmode : i.mode = .functional) (hcounts : v.counts = false) :
    v.step (s.issueOne i) = (v.simulation s, .ok ()) := by
  obtain ⟨rename, shows, labelled, counts⟩ := v
  cases hcounts
  rw [Simulation.issueOne, hmode]
  split
  next => exact step_issueFunctional _ s htarget htag
  next => rfl

/-- Simulations that look alike issue accesses alike. -/
theorem step_issueOne {m : Memory} {i i' : Issue} (h : v.simulation s = v'.simulation s')
    (hcounts : v.counts = v'.counts) (hi : v.rendering.issue i = v'.rendering.issue i')
    (htarget : s.bridge.back.agent = some m) (htag : i.packet.tag = none)
    (hshown : v.shows i.mode = true) (hshown' : v'.shows i.mode = true) :
    v.step (s.issueOne i) = v'.step (s'.issueOne i') := by
  have hp : v.rendering.packet i.packet = v'.rendering.packet i'.packet := congrArg Issue.packet hi
  have htag' : i'.packet.tag = none := by
    have hsome := congrArg (fun p : Packet => p.tag.isSome) hp
    rw [Rendering.isSome_tag_packet, Rendering.isSome_tag_packet, htag] at hsome
    exact Option.not_isSome_iff_eq_none.1 (by simp [← hsome])
  have hsame : i'.mode = i.mode := (congrArg Issue.mode hi.symm).trans rfl
  have hroutable : s.routable i.packet = s'.routable i'.packet := by
    have hseen : (v.simulation s).routable (v.rendering.packet i.packet) =
        (v'.simulation s').routable (v'.rendering.packet i'.packet) := by
      rw [h, hp]
    rwa [routable_simulation, routable_simulation] at hseen
  obtain ⟨m', htarget', hm⟩ := exists_memory h htarget
  rw [Simulation.issueOne, Simulation.issueOne, hroutable, hsame]
  split
  next =>
    cases i.mode with
    | timing =>
      have hleft := v.issueTimed_simulation s hshown
      have hright := v'.issueTimed_simulation s' (i := i') (hsame ▸ hshown')
      rw [h, hi] at hleft
      exact hleft.symm.trans hright
    | atomic =>
      have hdelay : s.bridge.front.crossing.delayTicks = s'.bridge.front.crossing.delayTicks :=
        congrArg (·.bridge.front.crossing.delayTicks) h
      have hlatency : m.latency = m'.latency := (congrArg Memory.latency hm.symm).trans rfl
      rw [v.step_issueAtomic s htarget htag, v'.step_issueAtomic s' htarget' htag', h, hdelay, hlatency]
    | functional =>
      rw [v.step_issueFunctional s htarget htag, v'.step_issueFunctional s' htarget' htag',
        simulation_functional, simulation_functional, h, hcounts]
  next =>
    refine congrArg (·, Except.ok ()) ?_
    rw [simulation_unroutable, simulation_unroutable, h, hcounts]

/-- What scheduling the next issue comes to. -/
theorem armIssue_of_bound {g : Generator} (hinitiator : s.bridge.front.agent = some g) :
    s.armIssue =
      match g.nextTick?.map (max · s.now) with
      | none => (s, .ok ())
      | some tick =>
        if s.armed.any (· ≤ tick) then (s, .ok ())
        else ({ s with armed := some tick }.schedule .issue tick, .ok ()) := by
  rw [Simulation.armIssue, Simulation.generator_of_bound hinitiator]
  dsimp only
  cases g.nextTick? <;> rfl

theorem nextTick_generator {g : Generator} {now : Tick}
    (hhead : g.stalled = true ∨
      (g.pending.filter (v.shows ·.mode)).head?.map (fun i => max i.tick now) =
        g.pending.head?.map fun i => max i.tick now) :
    (v.generator g).nextTick?.map (max · now) = g.nextTick?.map (max · now) := by
  rw [Generator.nextTick?, Generator.nextTick?]
  cases hstalled : g.stalled with
  | true => simp [generator, hstalled]
  | false =>
    have hsame := hhead.resolve_left (by simp [hstalled])
    rw [if_neg (by simp [generator, hstalled]), if_neg Bool.false_ne_true, generator, List.head?_map,
      Option.map_map, Option.map_map, Option.map_map]
    exact hsame

/-- The next issue looks alike, if leaving accesses out does not put it off. -/
theorem armIssue_simulation {g : Generator} (hinitiator : s.bridge.front.agent = some g)
    (hhead : g.stalled = true ∨
      (g.pending.filter (v.shows ·.mode)).head?.map (fun i => max i.tick s.now) =
        g.pending.head?.map fun i => max i.tick s.now) :
    (v.simulation s).armIssue = v.step s.armIssue := by
  have hinitiator' : (v.simulation s).bridge.front.agent = some (v.generator g) :=
    congrArg (Option.map v.generator) hinitiator
  rw [armIssue_of_bound hinitiator, armIssue_of_bound hinitiator',
    show (v.simulation s).now = s.now from rfl, nextTick_generator hhead]
  cases g.nextTick?.map (max · s.now) with
  | none => rfl
  | some tick =>
    dsimp only
    rw [show (v.simulation s).armed = s.armed from rfl]
    split <;> rfl

end Sight

end TimedBridge
