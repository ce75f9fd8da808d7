import TimedBridge.Proofs.Simulation.Accesses
import TimedBridge.Proofs.Simulation.Moves

/-!
Timed traffic is in order from end to end. Whatever the capacities, delays, latencies and refusals are,
a simulation of timed accesses leaves the bytes, and brings the generator the answers, that a memory
would leave and give which made the covered accesses at once, one after another (`exists_inOrder`). The
invariant splits these accesses into those that have been performed, those on their way and those to
come (`Cargo.Follows`).
-/

namespace TimedBridge

/-- The accesses of a scenario that one of the ranges covers, in order and with their numbers. -/
def Scenario.covered (sc : Scenario) : List (TrafficItem × Nat) :=
  (sc.traffic.zipIdx 1).filter fun e => e.1.covered sc.bridge.ranges

/-- The bytes after accesses have been made one after another. -/
def serialContents (accesses : List (TrafficItem × Nat)) : Contents :=
  accesses.foldl (fun contents e => e.1.storeIn contents) .zero

/-- The answers to accesses that are made one after another. -/
def serialAnswers : Contents → List (TrafficItem × Nat) → List Packet
  | _, [] => []
  | contents, (item, number) :: rest =>
    (item.answer? (UInt64.ofNat number) contents).toList ++ serialAnswers (item.storeIn contents) rest

theorem serialContents_concat (accesses : List (TrafficItem × Nat)) (e : TrafficItem × Nat) :
    serialContents (accesses ++ [e]) = e.1.storeIn (serialContents accesses) := by
  rw [serialContents, List.foldl_append]
  rfl

/-- The last answer is given from the bytes that all the accesses before it have left. -/
theorem serialAnswers_concat (accesses : List (TrafficItem × Nat)) (e : TrafficItem × Nat) :
    serialAnswers .zero (accesses ++ [e]) =
      serialAnswers .zero accesses ++
        (e.1.answer? (UInt64.ofNat e.2) (serialContents accesses)).toList := by
  rw [serialContents]
  generalize Contents.zero = contents
  induction accesses generalizing contents with
  | nil => simp [serialAnswers]
  | cons first rest ih =>
    rw [List.cons_append, serialAnswers, ih, serialAnswers, List.foldl_cons, List.append_assoc]

/-! ### Performed, on the way, to come -/

/-- The accesses that have been issued and covered are those that have been performed and those on
their way, in order; the bytes and the answers are those of the ones that have been performed. -/
structure Cargo.Follows (sc : Scenario) (issued performed onWay toCome : List (TrafficItem × Nat))
    (arrived : List Packet) (v : Cargo) : Prop where
  ranges : v.ranges = sc.bridge.ranges
  all : sc.traffic.zipIdx 1 = issued ++ toCome
  order : (issued.filter fun e => e.1.covered sc.bridge.ranges) = performed ++ onWay
  pending : v.pending = toCome.map fun e => (numberedPacket e, e.1.mode)
  onWay : List.Forall₂ (fun e p => (numberedPacket e).Relabelled .request p) onWay
    (v.inService ++ v.queued)
  contents : v.contents = serialContents performed
  answers : List.Forall₂ (Packet.Relabelled .response) (serialAnswers .zero performed)
    (arrived ++ v.returning)

namespace Cargo

variable {sc : Scenario} {issued performed onWay toCome : List (TrafficItem × Nat)}
  {arrived : List Packet} {v v' : Cargo}

theorem Follows.mem (h : v.Follows sc issued performed onWay toCome arrived) {e : TrafficItem × Nat}
    (he : e ∈ onWay ∨ e ∈ toCome) : e.1 ∈ sc.traffic := by
  have hmem : e ∈ sc.traffic.zipIdx 1 := by
    rw [h.all, List.mem_append]
    refine he.imp_left fun he => ?_
    have hfilter : e ∈ issued.filter fun e => e.1.covered sc.bridge.ranges := by
      rw [h.order]
      exact List.mem_append_right performed he
    exact (List.mem_filter.1 hfilter).1
  exact List.fst_mem_of_mem_zipIdx hmem

/-- The oldest request goes one stage on. -/
theorem Follows.carries (h : v.Follows sc issued performed onWay toCome arrived)
    (hends : ∀ item ∈ sc.traffic, item.EndsBelowTop) (hcarries : v.Carries v') :
    ∃ performed onWay, v'.Follows sc issued performed onWay toCome arrived := by
  cases hcarries with
  | taken hqueued =>
    refine ⟨performed, onWay, ⟨h.ranges, h.all, h.order, h.pending, ?_, h.contents, h.answers⟩⟩
    have honWay := h.onWay
    rw [hqueued] at honWay
    rwa [List.append_assoc, List.singleton_append]
  | performed hservice hcontents hanswers =>
    have honWay := h.onWay
    rw [hservice, List.cons_append] at honWay
    obtain ⟨e, rest, hlabels, hrest, rfl⟩ := List.forall₂_cons_right_iff.1 honWay
    have hended := hends e.1 (h.mem (.inl List.mem_cons_self))
    refine ⟨performed ++ [e], rest, ⟨h.ranges, h.all, ?_, h.pending, hrest, ?_, ?_⟩⟩
    · rw [h.order, List.append_assoc, List.singleton_append]
    · rw [serialContents_concat, ← h.contents, ← hcontents]
      exact TrafficItem.byteAt_perform_of_relabelled hlabels hended _
    · rw [serialAnswers_concat, ← h.contents, ← hcontents, ← List.append_assoc]
      exact List.rel_append h.answers
        (forall₂_chain (fun _ _ _ => .trans) (TrafficItem.relabelled_perform hlabels _) hanswers)

/-- The next access is issued. -/
theorem Follows.issues (h : v.Follows sc issued performed onWay toCome arrived)
    (htiming : ∀ item ∈ sc.traffic, item.mode = .timing) (hissues : v.Issues v') :
    ∃ issued onWay toCome, v'.Follows sc issued performed onWay toCome arrived := by
  have hnext {p : Packet} {mode : AccessMode} {rest : List (Packet × AccessMode)}
      (hpending : v.pending = (p, mode) :: rest) :
      ∃ e others, toCome = e :: others ∧ p = numberedPacket e ∧ mode = .timing ∧
        rest = others.map fun e => (numberedPacket e, e.1.mode) := by
    have heq := h.pending
    rw [hpending] at heq
    obtain ⟨e, others, rfl, hfirst, hrest⟩ := List.map_eq_cons_iff.1 heq.symm
    obtain ⟨rfl, rfl⟩ := Prod.mk.inj hfirst
    exact ⟨e, others, rfl, rfl, htiming _ (h.mem (.inr List.mem_cons_self)), hrest.symm⟩
  have hcovered {e : TrafficItem × Nat} : v.Covers (numberedPacket e) ↔
      e.1.covered sc.bridge.ranges = true := by
    rw [Covers, covers_numberedPacket, h.ranges]
  cases hissues with
  | dropped hpending hcovers =>
    obtain ⟨e, others, rfl, rfl, -, rfl⟩ := hnext hpending
    refine ⟨issued ++ [e], onWay, others, ⟨h.ranges, ?_, ?_, rfl, h.onWay, h.contents, h.answers⟩⟩
    · rw [h.all, List.append_assoc, List.singleton_append]
    · have hnone : ([e].filter fun e => e.1.covered sc.bridge.ranges) = [] :=
        List.filter_cons_of_neg (by exact mt hcovered.2 hcovers)
      rw [List.filter_append, h.order, hnone, List.append_nil]
  | queued hpending hcovers hlabels =>
    obtain ⟨e, others, rfl, rfl, -, rfl⟩ := hnext hpending
    refine ⟨issued ++ [e], onWay ++ [e], others, ⟨h.ranges, ?_, ?_, rfl, ?_, h.contents, h.answers⟩⟩
    · rw [h.all, List.append_assoc, List.singleton_append]
    · have hone : ([e].filter fun e => e.1.covered sc.bridge.ranges) = [e] :=
        List.filter_cons_of_pos (by exact hcovered.1 hcovers)
      rw [List.filter_append, h.order, hone, List.append_assoc]
    · rw [← List.append_assoc]
      exact List.rel_append h.onWay (.cons hlabels .nil)
  | atomic hpending =>
    obtain ⟨-, -, -, -, hmode, -⟩ := hnext hpending
    contradiction
  | functionalRead hpending =>
    obtain ⟨-, -, -, -, hmode, -⟩ := hnext hpending
    contradiction
  | functionalWrite hpending =>
    obtain ⟨-, -, -, -, hmode, -⟩ := hnext hpending
    contradiction

/-- The accesses that have been performed, are on their way and are to come are those of the scenario. -/
def Serial (sc : Scenario) (arrived : List Packet) (v : Cargo) : Prop :=
  ∃ issued performed onWay toCome, v.Follows sc issued performed onWay toCome arrived

theorem Serial.moves (h : v.Serial sc arrived) (htiming : ∀ item ∈ sc.traffic, item.mode = .timing)
    (hends : ∀ item ∈ sc.traffic, item.EndsBelowTop) (hmoves : v.Moves v') : v'.Serial sc arrived := by
  refine hmoves.preserves ?_ ?_ h
  · rintro u u' hcarries ⟨issued, performed, onWay, toCome, hfollows⟩
    obtain ⟨performed', onWay', hfollows'⟩ := hfollows.carries hends hcarries
    exact ⟨issued, performed', onWay', toCome, hfollows'⟩
  · rintro u u' hissues ⟨issued, performed, onWay, toCome, hfollows⟩
    obtain ⟨issued', onWay', toCome', hfollows'⟩ := hfollows.issues htiming hissues
    exact ⟨issued', performed, onWay', toCome', hfollows'⟩

/-- Responses that have arrived stay in order when they are taken. -/
theorem Serial.arrive {brought : List Packet}
    (h : { v with returning := brought ++ v.returning }.Serial sc arrived) :
    v.Serial sc (arrived ++ brought) := by
  obtain ⟨issued, performed, onWay, toCome, hfollows⟩ := h
  have hanswers := hfollows.answers
  dsimp only at hanswers
  rw [← List.append_assoc] at hanswers
  exact ⟨issued, performed, onWay, toCome, hfollows.ranges, hfollows.all, hfollows.order,
    hfollows.pending, hfollows.onWay, hfollows.contents, hanswers⟩

/-- With nothing to come and nothing on the way, every access has been performed. -/
theorem Serial.finished (h : v.Serial sc arrived) (hpending : v.pending = [])
    (hqueued : v.queued = []) (hservice : v.inService = []) (hreturning : v.returning = []) :
    v.contents = serialContents sc.covered ∧
      List.Forall₂ (Packet.Relabelled .response) (serialAnswers .zero sc.covered) arrived := by
  obtain ⟨issued, performed, onWay, toCome, hfollows⟩ := h
  obtain rfl : toCome = [] := List.map_eq_nil_iff.1 (hfollows.pending.symm.trans hpending)
  have honWay := hfollows.onWay
  rw [hqueued, hservice] at honWay
  obtain rfl := List.forall₂_nil_right_iff.1 honWay
  have hall : sc.covered = performed := by
    rw [Scenario.covered, hfollows.all, List.append_nil, hfollows.order, List.append_nil]
  have hanswers := hfollows.answers
  rw [hreturning, List.append_nil] at hanswers
  rw [hall]
  exact ⟨hfollows.contents, hanswers⟩

end Cargo

/-! ### Runs -/

namespace Simulation

variable {sc : Scenario}

theorem serial_firstCargo (sc : Scenario) : (firstCargo sc).Serial sc [] :=
  ⟨[], [], [], sc.traffic.zipIdx 1, rfl, rfl, rfl, numberedIssues_eq 1 sc.traffic, .nil, rfl, .nil⟩

/-- After a number of steps of the simulation, the memory and the answers that the generator has got are
those of the covered accesses made one after another. -/
structure InOrder (s : Simulation) (sc : Scenario) (n : Nat) : Prop where
  contents : ∃ m, (s.after n).bridge.back.agent = some m ∧ m.byteAt = serialContents sc.covered
  answers : List.Forall₂ (Packet.Relabelled .response) (serialAnswers .zero sc.covered)
    (s.broughtIn n)

/-- A simulation of timed accesses ends in order. -/
theorem exists_inOrder (valid : sc.bridge.validate = .ok ())
    (hlength : sc.traffic.length ≤ UInt64.size) (hrefuses : sc.memory.refuseEvery ≠ 1)
    (htiming : ∀ item ∈ sc.traffic, item.mode = .timing)
    (hends : ∀ item ∈ sc.traffic, item.EndsBelowTop) :
    ∃ s, ofScenario sc = .ok s ∧ (∃ n report, s.run? n = some (.ok report)) ∧
      ∀ n report, s.run? n = some (.ok report) → s.InOrder sc n := by
  obtain ⟨s, g, m, hs, hrunning, hflow⟩ := exists_running valid hlength
  obtain ⟨hrested, hcargo⟩ :=
    cargo_of_ofScenario hs hrunning.joins.initiator hrunning.joins.target valid
  refine ⟨s, hs, hrunning.returns ?_, fun n report hrun => ?_⟩
  · rw [hflow, ending_first_iff]
    exact .inl hrefuses
  · obtain ⟨g', m', hrunning', hrested', hserial⟩ := hrunning.run_induction hrested
      (fun _ _ _ hmoves h => h.moves htiming hends hmoves) (fun _ _ _ h => h.arrive) n []
      (hcargo ▸ serial_firstCargo sc)
    have hempty := hrunning'.cargo_of_drained (hrunning.drained_of_run? hrun) hrested'
    obtain ⟨hcontents, hanswers⟩ := hserial.finished (by rw [hempty]) (by rw [hempty])
      (by rw [hempty]) (by rw [hempty])
    exact ⟨⟨m', hrunning'.joins.target, hcontents⟩, hanswers⟩

/-- A write, a read of its bytes, a writeback over one of them and a second read share one slot for
requests and one for responses, and the memory refuses every second request. -/
def rewritten : Scenario where
  bridge := { requestCapacity := 1, responseCapacity := 1 }
  memory := { latency := 3, refuseEvery := 2 }
  traffic := [
    { kind := .write, address := 8, size := 2, fill := 1 },
    { kind := .read, address := 8, size := 2 },
    { kind := .writeback, address := 9, size := 1, fill := 2 },
    { kind := .read, address := 8, size := 2 }]

theorem inOrder_rewritten :
    (serialAnswers .zero rewritten.covered).map (fun p => (p.id, p.data)) =
        [(1, none), (2, some [1, 1]), (4, some [1, 2])] ∧
      ∃ s n report, ofScenario rewritten = .ok s ∧ s.run? n = some (.ok report) ∧
        s.InOrder rewritten n := by
  obtain ⟨s, hs, ⟨n, report, hrun⟩, horder⟩ :=
    @exists_inOrder rewritten rfl (by decide) (by decide) (by decide) (by decide)
  exact ⟨by decide +kernel, s, n, report, hs, hrun, horder n report hrun⟩

end Simulation

end TimedBridge
