import TimedBridge.Proofs.Simulation.Performing
import TimedBridge.Proofs.Simulation.SerialOrder

/-!
The addresses that the memory touches. Each packet that it performs serves an access that a range covers,
and touches no address outside that range, with one exception: a read that runs past the last address goes
on from the first, which its footprint does not show (`exists_staysInside`).
-/

namespace TimedBridge

/-! ### The addresses of a packet -/

namespace Packet

/-- The packet asks for the byte at an address. A read that runs past the last address goes on at the
first one. -/
def LooksUpAt (p : Packet) (a : Address) : Prop :=
  p.command = .readRequest ∧ (a - p.address).toNat < p.size.toNat

instance (p : Packet) (a : Address) : Decidable (p.LooksUpAt a) :=
  inferInstanceAs (Decidable (_ ∧ _))

/-- The memory looks up or stores the byte at an address when it performs the packet. -/
def Touches (p : Packet) (a : Address) : Prop := p.LooksUpAt a ∨ p.StoresAt a

instance (p : Packet) (a : Address) : Decidable (p.Touches a) :=
  inferInstanceAs (Decidable (_ ∨ _))

end Packet

/-! ### Packets that serve an access -/

/-- The packet asks for the numbered access: its labels and bytes may have changed, the number of its
bytes has not. -/
structure Packet.Serves (p : Packet) (e : TrafficItem × Nat) : Prop where
  id : p.id = UInt64.ofNat e.2
  command : p.command = (numberedPacket e).command
  address : p.address = e.1.address
  size : p.size = e.1.size
  length : p.data.map List.length = if e.1.kind = .read then none else some e.1.size.toNat

namespace Packet

variable {p q : Packet} {e : TrafficItem × Nat} {d : Direction} {writes : List Packet} {a : Address}

theorem serves_numberedPacket (e : TrafficItem × Nat) : (numberedPacket e).Serves e := by
  by_cases hread : e.1.kind = .read
  · have hpacket : e.1.packet (UInt64.ofNat e.2) = _ := TrafficItem.packet_of_read hread
    rw [numberedPacket, hpacket]
    refine ⟨rfl, congrArg Packet.command hpacket.symm, rfl, rfl, ?_⟩
    rw [if_pos hread]
    rfl
  · obtain ⟨command, -, hpacket⟩ := TrafficItem.packet_of_write (UInt64.ofNat e.2) hread
    rw [numberedPacket, hpacket]
    refine ⟨rfl, congrArg Packet.command hpacket.symm, rfl, rfl, ?_⟩
    rw [if_neg hread]
    exact congrArg some List.length_replicate

theorem Serves.relabelled (h : p.Serves e) (hlabels : p.Relabelled d q) : q.Serves e := by
  rw [hlabels.rest]
  exact ⟨h.id, h.command, h.address, h.size, h.length⟩

theorem Serves.overwritten (h : p.Serves e) (hwrites : p.Overwritten writes q) : q.Serves e := by
  have hlength := hwrites.length.trans h.length
  rw [hwrites.rest] at hlength ⊢
  exact ⟨h.id, h.command, h.address, h.size, hlength⟩

/-- The addresses that are touched for an access begin at its own. -/
theorem Serves.lt_of_touches (h : p.Serves e) (htouches : p.Touches a) :
    (a - e.1.address).toNat < e.1.size.toNat := by
  rw [← h.address, ← h.size]
  rcases htouches with ⟨-, hlt⟩ | ⟨hwrite, bytes, hbytes, hlt⟩
  · exact hlt
  · have hlength := h.length
    rw [hbytes, Option.map_some] at hlength
    split at hlength
    next => contradiction
    next => rwa [h.size, ← Option.some.inj hlength]

end Packet

namespace TrafficItem

/-- The access runs past the last address and goes on at this one. -/
def Overruns (item : TrafficItem) (a : Address) : Prop :=
  a.toNat + UInt64.size < item.address.toNat + item.size.toNat

/-- An address of an access lies in each range that covers it, unless the access overruns it. -/
theorem contains_of_covers {item : TrafficItem} {a : Address} {r : AddressRange}
    (hspan : (a - item.address).toNat < item.size.toNat)
    (hcovers : r.covers (.ofSpan item.address item.size) = true) :
    r.contains a = true ∨ item.Overruns a := by
  have hsize : (1 : UInt64) ≤ item.size := UInt64.le_iff_toNat_le.2 (Nat.zero_lt_of_lt hspan)
  have hnonzero : item.size ≠ 0 := fun hzero => absurd (hzero ▸ hsize) (by decide)
  have hone : (1 : UInt64).toNat = 1 := rfl
  rw [AddressRange.covers, AddressRange.ofSpan, if_neg hnonzero, Bool.and_eq_true_iff,
    decide_eq_true_iff, decide_eq_true_iff, UInt64.le_iff_toNat_le, UInt64.le_iff_toNat_le,
    toNat_cappedAdd, UInt64.toNat_sub_of_le _ _ hsize, hone] at hcovers
  dsimp only at hcovers
  rw [AddressRange.contains, Bool.and_eq_true_iff, decide_eq_true_iff, decide_eq_true_iff,
    UInt64.le_iff_toNat_le, UInt64.le_iff_toNat_le, Overruns, UInt64.size]
  rw [UInt64.toNat_sub] at hspan
  have ha := a.toNat_lt
  have hfirst := item.address.toNat_lt
  omega

end TrafficItem

/-! ### Cargo that serves covered accesses -/

/-- What is still to be issued are accesses of the scenario, and each request on its way serves one that a
range covers. -/
structure Cargo.Admits (sc : Scenario) (v : Cargo) : Prop where
  ranges : v.ranges = sc.bridge.ranges
  pending : ∀ i ∈ v.pending, ∃ e ∈ sc.traffic.zipIdx 1, i.1 = numberedPacket e
  onWay : ∀ p ∈ v.inService ++ v.queued, ∃ e ∈ sc.covered, p.Serves e

namespace Cargo

variable {sc : Scenario} {v v' : Cargo} {p : Packet}

theorem Admits.covered (h : v.Admits sc) {mode : AccessMode} {rest : List (Packet × AccessMode)}
    (hpending : v.pending = (p, mode) :: rest) (hcovers : v.Covers p) :
    ∃ e ∈ sc.covered, p.Serves e := by
  obtain ⟨e, he, rfl⟩ := h.pending (p, mode) (hpending ▸ List.mem_cons_self)
  rw [Covers, h.ranges, covers_numberedPacket] at hcovers
  exact ⟨e, List.mem_filter.2 ⟨he, hcovers⟩, Packet.serves_numberedPacket e⟩

theorem Admits.carries (h : v.Admits sc) (hcarries : v.Carries v') : v'.Admits sc := by
  cases hcarries with
  | taken hqueued =>
    refine ⟨h.ranges, h.pending, ?_⟩
    have honWay := h.onWay
    rw [hqueued] at honWay
    rwa [List.append_assoc, List.singleton_append]
  | performed hservice =>
    refine ⟨h.ranges, h.pending, fun p hp => h.onWay p ?_⟩
    rw [hservice]
    exact List.mem_cons_of_mem _ hp

theorem Admits.issues (h : v.Admits sc) (hissues : v.Issues v') : v'.Admits sc := by
  have hrest {i : Packet × AccessMode} {rest : List (Packet × AccessMode)}
      (hpending : v.pending = i :: rest) : ∀ i ∈ rest, ∃ e ∈ sc.traffic.zipIdx 1, i.1 = numberedPacket e :=
    fun i hi => h.pending i (hpending ▸ List.mem_cons_of_mem _ hi)
  cases hissues with
  | dropped hpending => exact ⟨h.ranges, hrest hpending, h.onWay⟩
  | queued hpending hcovers hlabels =>
    refine ⟨h.ranges, hrest hpending, fun p hp => ?_⟩
    rw [← List.append_assoc, List.mem_append, List.mem_singleton] at hp
    rcases hp with hp | rfl
    · exact h.onWay p hp
    · obtain ⟨e, he, hserves⟩ := h.covered hpending hcovers
      exact ⟨e, he, hserves.relabelled hlabels⟩
  | atomic hpending => exact ⟨h.ranges, hrest hpending, h.onWay⟩
  | functionalRead hpending => exact ⟨h.ranges, hrest hpending, h.onWay⟩
  | @functionalWrite w rest returning m hpending =>
    refine ⟨h.ranges, hrest hpending, fun p hp => ?_⟩
    rcases List.mem_append.1 hp with hp | hp
    · exact h.onWay p (List.mem_append_left _ hp)
    · obtain ⟨q, hq, rfl⟩ := List.mem_map.1 hp
      obtain ⟨e, he, hserves⟩ := h.onWay q (List.mem_append_right _ hq)
      exact ⟨e, he, hserves.overwritten (Packet.overwritten_snoop w q)⟩

theorem Admits.moves (h : v.Admits sc) (hmoves : v.Moves v') : v'.Admits sc :=
  hmoves.preserves (fun _ _ hcarries h => h.carries hcarries) (fun _ _ hissues h => h.issues hissues) h

theorem admits_firstCargo (sc : Scenario) : (Simulation.firstCargo sc).Admits sc := by
  refine ⟨rfl, ?_, fun p hp => absurd hp List.not_mem_nil⟩
  rw [Simulation.firstCargo, numberedIssues_eq, List.forall_mem_map]
  exact fun e he => ⟨e, he, rfl⟩

end Cargo

/-! ### What is performed -/

namespace Simulation

variable {s s' : Simulation} {g : Generator} {m : Memory} {v : Cargo} {sc : Scenario}

/-- The packets handed to the memory outside the queues are the access itself, tagged. -/
theorem eq_of_mem_performedBy {i : Issue} {p : Packet} (h : p ∈ s.performedBy i) :
    s.routable i.packet = true ∧ p = s.bridge.tagged i.packet := by
  rw [performedBy] at h
  split at h
  next hroutable =>
    refine ⟨hroutable, ?_⟩
    split at h
    next => contradiction
    next =>
      have hmem : p ∈ Effect.accesses (s.bridge.perform s.now (.atomic i.packet)).effects := h
      obtain ⟨given, hgiven, -, rfl⟩ := s.bridge.exists_given s.now hmem
      rcases hgiven with heq | heq <;> cases heq
      rfl
    next =>
      have hmem : p ∈ Effect.accesses (s.bridge.perform s.now (.functional i.packet)).effects := h
      obtain ⟨given, hgiven, -, rfl⟩ := s.bridge.exists_given s.now hmem
      rcases hgiven with heq | heq <;> cases heq
      rfl
  next => contradiction

theorem serves_performedDue (n : Nat) (hholds : s.bridge.Holds v) (hadmits : v.Admits sc) :
    ∀ p ∈ s.performedDue n, ∃ e ∈ sc.covered, p.Serves e := by
  induction n generalizing s v with
  | zero => exact fun p hp => absurd hp List.not_mem_nil
  | succ n ih =>
    obtain ⟨g, m, hinitiator, htarget, rfl⟩ := hholds
    intro p hp
    rw [performedDue, generator_of_bound hinitiator] at hp
    split at hp
    next heq =>
      cases heq
      split at hp
      next => contradiction
      next i g' hnext =>
        rcases List.mem_append.1 hp with hp | hp
        · obtain ⟨hroutable, rfl⟩ := eq_of_mem_performedBy hp
          obtain ⟨rest, hpending, rfl⟩ := eq_of_nextDue? hnext
          have hfirst : (s.bridge.cargo g m).pending =
              (i.packet, i.mode) :: rest.map fun i => (i.packet, i.mode) := by
            rw [Bridge.cargo, hpending, List.map_cons]
          obtain ⟨e, he, hserves⟩ := hadmits.covered hfirst hroutable
          have htagged : i.packet.Relabelled .request (s.bridge.tagged i.packet) := ⟨rfl, fun _ => rfl⟩
          exact ⟨e, he, hserves.relabelled htagged⟩
        · split at hp
          next => contradiction
          next s₁ hone =>
            obtain ⟨v₁, hholds₁, hissues⟩ := holds_issueNext htarget hnext hone
            refine ih hholds₁ ?_ p hp
            rcases hissues with rfl | hissues
            · exact hadmits
            · exact hadmits.issues hissues
    next => contradiction

/-- Whatever the memory performs in a step serves an access that a range covers. -/
theorem serves_performed (hinitiator : s.bridge.front.agent = some g)
    (htarget : s.bridge.back.agent = some m) (hadmits : (s.bridge.cargo g m).Admits sc) :
    ∀ p ∈ s.performed, ∃ e ∈ sc.covered, p.Serves e := by
  intro p hp
  rw [performed, generator_of_bound hinitiator, memory_of_bound htarget] at hp
  split at hp
  next heq =>
    cases heq
    refine hadmits.onWay p (List.mem_append_left _ ?_)
    exact List.mem_of_mem_head? (Option.mem_toList.1 hp)
  next tick agenda g' hpop heq =>
    cases heq
    refine serves_performedDue (s := { s with agenda }.disarmed) _ ?_ hadmits p hp
    rw [bridge_disarmed]
    exact ⟨g, m, hinitiator, htarget, rfl⟩
  next => contradiction

/-- Whatever the memory performs in a run serves an access that a range covers. -/
theorem Running.serves_performedIn (h : s.Running g m) (hadmits : (s.bridge.cargo g m).Admits sc)
    (n : Nat) :
    ∀ p ∈ s.performedIn n, ∃ e ∈ sc.covered, p.Serves e := by
  induction n generalizing s g m with
  | zero => exact fun p hp => absurd hp List.not_mem_nil
  | succ n ih =>
    rw [performedIn, List.forall_mem_append]
    refine ⟨serves_performed h.joins.initiator h.joins.target hadmits, ?_⟩
    rcases h.step with ⟨-, hstep⟩ | ⟨s', g', m', hstep, hrunning, -⟩
    · rw [hstep]
      exact ih h hadmits
    · obtain ⟨-, hmoves⟩ := moves_of_step h.joins.initiator h.joins.target hstep
        hrunning.joins.initiator hrunning.joins.target
      have hmoved := hadmits.moves hmoves
      rw [hstep]
      exact ih hrunning ⟨hmoved.ranges, hmoved.pending, hmoved.onWay⟩

/-! ### Inside the ranges -/

/-- In a number of steps the memory changes by the packets that it performs, and each of them serves a
covered access. It touches no address outside a range that covers the access, unless it looks up bytes
behind the last address; writes that reach the last address are left out. -/
structure StaysInside (s : Simulation) (sc : Scenario) (n : Nat) : Prop where
  performs : s.bridge.Performs (s.performedIn n) (s.after n).bridge
  inside : ∀ p ∈ s.performedIn n, ∃ e ∈ sc.covered, p.Serves e ∧
    (e.1.EndsBelowTop → ∀ a, p.Touches a → ∀ r ∈ sc.bridge.ranges,
      r.covers (.ofSpan e.1.address e.1.size) = true →
        r.contains a = true ∨ e.1.kind = .read ∧ e.1.Overruns a)

/-- A simulation stays inside its ranges. -/
theorem exists_staysInside (valid : sc.bridge.validate = .ok ())
    (hlength : sc.traffic.length ≤ UInt64.size) :
    ∃ s, ofScenario sc = .ok s ∧ ∀ n, s.StaysInside sc n := by
  obtain ⟨s, g, m, hs, hrunning, -⟩ := exists_running valid hlength
  obtain ⟨-, hcargo⟩ := cargo_of_ofScenario hs hrunning.joins.initiator hrunning.joins.target valid
  have hadmits : (s.bridge.cargo g m).Admits sc := hcargo ▸ Cargo.admits_firstCargo sc
  refine ⟨s, hs, fun n => ⟨hrunning.performs_after n, fun p hp => ?_⟩⟩
  obtain ⟨e, he, hserves⟩ := hrunning.serves_performedIn hadmits n p hp
  refine ⟨e, he, hserves, fun hends a htouches r hr hcovers => ?_⟩
  refine (TrafficItem.contains_of_covers (hserves.lt_of_touches htouches) hcovers).imp_right ?_
  intro hoverruns
  refine ⟨not_not.1 fun hwrite => ?_, hoverruns⟩
  have hbelow := hends hwrite
  rw [TrafficItem.Overruns] at hoverruns
  omega

/-- Two ranges, at the bottom and at the top. A write fills the lower one, and a read runs past the upper
one. -/
def overrunning : Scenario where
  bridge := { ranges := [⟨0, 7⟩, ⟨0xfffffffffffffff0, 0xffffffffffffffff⟩] }
  traffic := [
    { kind := .write, address := 0, size := 8, fill := 0xab },
    { kind := .read, address := 0xfffffffffffffff8, size := 16 }]

/-- The memory performs the read, and looks up the last byte and the first. -/
theorem exists_read_overrunning (hs : ofScenario overrunning = .ok s) :
    ∃ p ∈ s.performedIn 5, p.address = 0xfffffffffffffff8 ∧ p.Touches 0xffffffffffffffff ∧
      p.Touches 0 := by
  have hperformed : (ofScenario overrunning).map (fun s =>
      (s.performedIn 5).map fun p => (p.command, p.address, p.size)) =
        .ok [(.writeRequest, 0, 8), (.readRequest, 0xfffffffffffffff8, 16)] := by
    decide +kernel
  rw [hs] at hperformed
  have hpackets : (s.performedIn 5).map (fun p => (p.command, p.address, p.size)) =
      [(.writeRequest, 0, 8), (.readRequest, 0xfffffffffffffff8, 16)] := Except.ok.inj hperformed
  have hmem : (.readRequest, 0xfffffffffffffff8, 16) ∈
      (s.performedIn 5).map fun p => (p.command, p.address, p.size) := by
    rw [hpackets]
    exact List.mem_cons_of_mem _ List.mem_cons_self
  obtain ⟨p, hp, hread⟩ := List.mem_map.1 hmem
  obtain ⟨hcommand, hspan⟩ := Prod.mk.inj hread
  obtain ⟨haddress, hsize⟩ := Prod.mk.inj hspan
  refine ⟨p, hp, haddress, .inl ⟨hcommand, ?_⟩, .inl ⟨hcommand, ?_⟩⟩
  · rw [haddress, hsize]
    decide
  · rw [haddress, hsize]
    decide

theorem staysInside_overrunning :
    ∃ s, ofScenario overrunning = .ok s ∧ s.StaysInside overrunning 5 ∧
      ∃ p ∈ s.performedIn 5, p.Touches 0xffffffffffffffff ∧ p.Touches 0 := by
  obtain ⟨s, hs, hinside⟩ := @exists_staysInside overrunning rfl (by decide)
  obtain ⟨p, hp, -, htouches⟩ := exists_read_overrunning hs
  exact ⟨s, hs, hinside 5, p, hp, htouches⟩

/-- A read that the upper range covers looks up bytes in the lower one. -/
theorem not_inside_overrunning :
    ¬ ∀ sc : Scenario, sc.bridge.validate = .ok () → sc.traffic.length ≤ UInt64.size →
      ∃ s, ofScenario sc = .ok s ∧ ∀ n, ∀ p ∈ s.performedIn n, ∃ e ∈ sc.covered, p.Serves e ∧
        (e.1.EndsBelowTop → ∀ a, p.Touches a →
          ∃ r ∈ sc.bridge.ranges, r.covers (.ofSpan e.1.address e.1.size) = true ∧
            r.contains a = true) := by
  intro hclaim
  obtain ⟨s, hs, hinside⟩ := hclaim overrunning rfl (by decide)
  obtain ⟨p, hp, haddress, -, htouches⟩ := exists_read_overrunning hs
  obtain ⟨e, he, hserves, hcontained⟩ := hinside 5 p hp
  have hcovered : overrunning.covered =
      [(overrunning.traffic[0], 1), (overrunning.traffic[1], 2)] := by
    decide
  rw [hcovered] at he
  rcases List.mem_cons.1 he with rfl | he
  · exact absurd (haddress.symm.trans hserves.address) (by decide)
  · obtain rfl := List.mem_singleton.1 he
    exact absurd (hcontained (by decide) 0 htouches) (by decide)

end Simulation

end TimedBridge
