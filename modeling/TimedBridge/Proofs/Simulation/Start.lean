import Mathlib.Data.List.Nodup
import TimedBridge.Proofs.Simulation.Running

/-!
How a simulation starts. Its accesses are numbered apart, as long as there are no more of them than
identities (`nodup_numberedIssues`), and with accepted settings it is between two steps from the
beginning (`exists_running`).
-/

namespace TimedBridge

/-! ### The accesses of a scenario -/

theorem TrafficItem.tag_packet (i : TrafficItem) (id : RequestId) : (i.packet id).tag = none := by
  rw [packet]
  split <;> rfl

theorem TrafficItem.id_packet (i : TrafficItem) (id : RequestId) : (i.packet id).id = id := by
  rw [packet]
  split <;> rfl

/-- A write carries as many bytes as its access is long. -/
theorem TrafficItem.ofNat_length_bytes (i : TrafficItem) : UInt64.ofNat i.bytes.length = i.size := by
  rw [bytes, List.length_replicate, UInt64.ofNat_toNat]

theorem TrafficItem.footprint_packet (i : TrafficItem) (id : RequestId) :
    (i.packet id).footprint = .ofSpan i.address i.size := by
  rw [packet]
  split
  · rfl
  · exact congrArg (AddressRange.ofSpan i.address) i.ofNat_length_bytes
  · exact congrArg (AddressRange.ofSpan i.address) i.ofNat_length_bytes

theorem ids_numberedIssues (number : Nat) (traffic : List TrafficItem) :
    (numberedIssues number traffic).map (fun i => i.packet.id) =
      (List.range' number traffic.length).map UInt64.ofNat := by
  induction traffic generalizing number with
  | nil => rfl
  | cons item rest ih =>
    rw [numberedIssues, List.map_cons, ih, List.length_cons, List.range'_succ, List.map_cons]
    exact congrArg (· :: _) (item.id_packet _)

/-- As many accesses as there are identities are numbered apart. -/
theorem nodup_numberedIssues (number : Nat) {traffic : List TrafficItem}
    (hlength : traffic.length ≤ UInt64.size) :
    ((numberedIssues number traffic).map fun i => i.packet.id).Nodup := by
  rw [ids_numberedIssues]
  refine List.Nodup.map_on ?_ List.nodup_range'
  intro a ha b hb heq
  rw [List.mem_range'_1] at ha hb
  have hmod : a % UInt64.size = b % UInt64.size := congrArg UInt64.toNat heq
  simp only [UInt64.size] at hmod hlength
  omega

theorem untagged_numberedIssues (number : Nat) (traffic : List TrafficItem) :
    ∀ i ∈ numberedIssues number traffic, i.packet.tag = none := by
  induction traffic generalizing number with
  | nil => simp [numberedIssues]
  | cons item rest ih => exact List.forall_mem_cons.2 ⟨item.tag_packet _, ih _⟩

/-- What holds of accesses under all numbers holds of one of the accesses under their own. -/
theorem exists_mem_numberedIssues {P : Issue → Prop} {Q : TrafficItem → Prop}
    (hiff : ∀ item id, P (item.issue id) ↔ Q item) (number : Nat) (traffic : List TrafficItem) :
    (∃ i ∈ numberedIssues number traffic, P i) ↔ ∃ item ∈ traffic, Q item := by
  induction traffic generalizing number with
  | nil => simp [numberedIssues]
  | cons item rest ih => simp [numberedIssues, hiff, ih]

theorem modes_numberedIssues (number : Nat) (traffic : List TrafficItem) :
    (numberedIssues number traffic).map (fun i => (i.mode, i.tick)) =
      traffic.map fun item => (item.mode, item.tick) := by
  induction traffic generalizing number with
  | nil => rfl
  | cons item rest ih => exact congrArg ((item.mode, item.tick) :: ·) (ih (number + 1))

/-- Accesses that come in the order of their ticks are numbered in it. -/
theorem ordered_numberedIssues (number : Nat) {traffic : List TrafficItem}
    (hordered : traffic.Pairwise fun item other => item.tick ≤ other.tick) :
    (numberedIssues number traffic).Pairwise fun i j => i.tick ≤ j.tick := by
  have hpairs : (traffic.map fun item => (item.mode, item.tick)).Pairwise fun a b => a.2 ≤ b.2 :=
    List.pairwise_map.2 hordered
  rw [← modes_numberedIssues number] at hpairs
  have hissues := List.pairwise_map.1 hpairs
  exact hissues

/-- What is counted among the numbered accesses is counted among the accesses. -/
theorem countP_numberedIssues {P : Issue → Bool} {Q : TrafficItem → Bool}
    (hPQ : ∀ item id, P (item.issue id) = Q item) (number : Nat) (traffic : List TrafficItem) :
    (numberedIssues number traffic).countP P = traffic.countP Q := by
  induction traffic generalizing number with
  | nil => rfl
  | cons item rest ih => rw [numberedIssues, List.countP_cons, List.countP_cons, ih, hPQ]

/-! ### The first state -/

namespace Simulation

variable {sc : Scenario}

theorem bridge_armIssue (s : Simulation) : s.armIssue.1.bridge = s.bridge := by
  rw [armIssue]
  split
  · rfl
  · split
    · rfl
    · dsimp only
      split <;> rfl

/-- The generator of a scenario, which knows the ranges that the bridge serves. -/
def firstGenerator (sc : Scenario) : Generator :=
  { Generator.ofTraffic sc.traffic with ranges := sc.bridge.ranges }

/-- The memory of a scenario. -/
def firstMemory (sc : Scenario) : Memory where
  latency := sc.bridge.clock.ticks sc.memory.latency
  refuseEvery := sc.memory.refuseEvery

/-- The flow of a scenario before anything is scheduled. -/
def firstFlow (sc : Scenario) : Flow where
  now := 0
  ranges := sc.bridge.ranges
  refuseEvery := sc.memory.refuseEvery
  offered := 0
  pending := numberedIssues 1 sc.traffic
  queued := []
  awaiting := false
  inService := []
  waiting := []
  returning := 0
  retry := .idle
  issues := 0
  completions := 0
  retries := 0
  armed := none

/-- The started bridge of a scenario, made from a bridge without agents. -/
def firstBridge (sc : Scenario) (b : Bridge Generator Memory) : Bridge Generator Memory :=
  ((b.bindInitiator (Generator.ofTraffic sc.traffic)).1.bindTarget (firstMemory sc)).1.start.state

variable {s : Simulation} {b : Bridge Generator Memory}

/-- The simulation of a scenario before the first access is scheduled. -/
def unarmed (sc : Scenario) (b : Bridge Generator Memory) (agenda : Agenda SimEvent) : Simulation where
  bridge := firstBridge sc b
  agenda
  report := { trafficTag := b.front.tag }

/-- Simulations start from the same agenda. -/
theorem exists_unarmed :
    ∃ agenda, ∀ (sc : Scenario) (b : Bridge Generator Memory),
      Bridge.ofConfig "bridge" sc.bridge = .ok b →
        ofScenario sc =
          match (unarmed sc b agenda).armIssue with
          | (_, .error fault) => .error fault
          | (s, .ok ()) => .ok s := by
  refine ⟨{}, fun sc b hb => ?_⟩
  rw [ofScenario, hb]
  rfl

/-- A simulation of a scenario in which nothing has been scheduled yet. -/
structure First (s : Simulation) (sc : Scenario) (b : Bridge Generator Memory) : Prop where
  bridge : s.bridge = firstBridge sc b
  pending : s.agenda.pending = []
  now : s.now = 0
  armed : s.armed = none
  issuedAt : s.issuedAt = []
  report : ∃ trafficTag, s.report = { trafficTag }

theorem exists_first (hb : Bridge.ofConfig "bridge" sc.bridge = .ok b) :
    ∃ s : Simulation, s.First sc b ∧
      ofScenario sc =
        match s.armIssue with
        | (_, .error fault) => .error fault
        | (s, .ok ()) => .ok s := by
  rw [ofScenario, hb]
  exact ⟨_, ⟨rfl, rfl, rfl, rfl, rfl, _, rfl⟩, rfl⟩

theorem ranges_ofConfig {name : String} {c : BridgeConfig} (hb : Bridge.ofConfig name c = .ok b) :
    b.front.ranges = c.ranges := by
  rw [Bridge.ofConfig] at hb
  split at hb
  · contradiction
  · cases hb
    rfl

theorem fresh_firstBridge (hfresh : b.Fresh sc.bridge) : (firstBridge sc b).Fresh sc.bridge :=
  ⟨hfresh.requests, hfresh.responses, hfresh.table, hfresh.reserved, hfresh.retry⟩

/-- To schedule the first access leaves the bridge as it is. -/
theorem bridge_of_ofScenario (hs : ofScenario sc = .ok s)
    (hb : Bridge.ofConfig "bridge" sc.bridge = .ok b) : s.bridge = firstBridge sc b := by
  obtain ⟨s₀, hfirst, hstart⟩ := exists_first hb
  rw [hstart] at hs
  split at hs
  next => cases hs
  next harm =>
    cases hs
    rw [← hfirst.bridge, ← s₀.bridge_armIssue, harm]

theorem fresh_of_ofScenario (hs : ofScenario sc = .ok s) (valid : sc.bridge.validate = .ok ()) :
    s.bridge.Fresh sc.bridge := by
  obtain ⟨b, hb, hfresh⟩ := Bridge.exists_ofConfig (υ := Generator) (δ := Memory) "bridge" valid
  rw [bridge_of_ofScenario hs hb]
  exact fresh_firstBridge hfresh

theorem First.driven (h : s.First sc b) (hfresh : b.Fresh sc.bridge)
    (valid : sc.bridge.validate = .ok ()) : s.Driven := by
  have hfresh' : s.bridge.Fresh sc.bridge := h.bridge ▸ fresh_firstBridge hfresh
  have hconnected : s.bridge.isConnected = true := by
    rw [h.bridge]
    rfl
  refine ⟨⟨hfresh'.wired hconnected, fun d => ?_⟩, ?_⟩
  · have hdues : s.host.agenda.dues d = [] := by
      simp [host, Agenda.dues, Agenda.map, h.pending]
    rw [hdues]
    exact hfresh'.awakeOnce d
  · rw [hfresh'.ledger_eq]
    refine ⟨sc.bridge.balanced_initial valid, fun hretry => ?_, (sc.bridge.capacity_pos valid).1⟩
    contradiction

theorem First.joins (h : s.First sc b) (hfresh : b.Fresh sc.bridge)
    (hranges : b.front.ranges = sc.bridge.ranges) :
    s.bridge.Joins (firstGenerator sc) (firstMemory sc) := by
  rw [h.bridge]
  refine ⟨?_, rfl, congrArg TransmitQueue.awaitingRetry hfresh.responses, ?_⟩
  · rw [firstGenerator, ← hranges]
    rfl
  · have hretry : (firstBridge sc b).front.retry = .idle := hfresh.retry
    simp [hretry, firstGenerator, Generator.ofTraffic]

theorem First.flow_eq (h : s.First sc b) (hfresh : b.Fresh sc.bridge)
    (hranges : b.front.ranges = sc.bridge.ranges) :
    s.flow (firstGenerator sc) (firstMemory sc) = firstFlow sc := by
  have hticks (event : SimEvent) : s.agenda.ticks event = 0 := by
    simp [Agenda.ticks, h.pending]
  rw [flow, h.bridge, h.now, h.armed, hticks, hticks, hticks]
  change { firstFlow sc with
    ranges := b.front.ranges
    queued := b.back.requests.packets.map Packet.ticket
    awaiting := b.back.requests.awaitingRetry
    waiting := b.table.entries.map Prod.fst
    returning := b.front.responses.size
    retry := b.front.retry } = firstFlow sc
  rw [hranges, hfresh.requests, hfresh.responses, hfresh.table, hfresh.retry]
  rfl

theorem consistent_first (hlength : sc.traffic.length ≤ UInt64.size) : (firstFlow sc).Consistent :=
  ⟨rfl, nodup_numberedIssues 1 hlength, untagged_numberedIssues 1 sc.traffic⟩

/-- With its next access scheduled, everything that has to happen next is. -/
theorem settled_first (sc : Scenario) : (firstFlow sc).arm.Settled := by
  have hserved : (firstFlow sc).Served := ⟨rfl, rfl⟩
  refine ⟨hserved.arm, Flow.prompt_arm rfl (.inr fun i _ => ?_)⟩
  exact UInt64.le_iff_toNat_le.2 (Nat.zero_le _)

/-- A scenario with accepted settings, and with no more accesses than there are identities, makes a
simulation between two steps. -/
theorem exists_running (valid : sc.bridge.validate = .ok ())
    (hlength : sc.traffic.length ≤ UInt64.size) :
    ∃ s g m, ofScenario sc = .ok s ∧ s.Running g m ∧ s.flow g m = (firstFlow sc).arm := by
  obtain ⟨b, hb, hfresh⟩ := Bridge.exists_ofConfig (υ := Generator) (δ := Memory) "bridge" valid
  obtain ⟨s₀, hfirst, hstart⟩ := exists_first hb
  have hjoins := hfirst.joins hfresh (ranges_ofConfig hb)
  obtain ⟨s, g, m, harm, hdriven', hjoins', hflow⟩ :=
    carried_armIssue (hfirst.driven hfresh valid) hjoins
  have hbridge : s.bridge = s₀.bridge := by
    rw [← bridge_armIssue s₀, harm]
  obtain rfl : firstGenerator sc = g :=
    Option.some.inj (hjoins.initiator.symm.trans (hbridge ▸ hjoins'.initiator))
  obtain rfl : firstMemory sc = m :=
    Option.some.inj (hjoins.target.symm.trans (hbridge ▸ hjoins'.target))
  rw [hfirst.flow_eq hfresh (ranges_ofConfig hb)] at hflow
  rw [hstart, harm]
  refine ⟨s, _, _, rfl, ⟨hdriven', hjoins', ⟨rfl, rfl, rfl⟩, ?_, ?_⟩, hflow⟩
  · rw [hflow]
    exact (consistent_first hlength).arm
  · rw [hflow]
    exact settled_first sc

end Simulation

end TimedBridge
