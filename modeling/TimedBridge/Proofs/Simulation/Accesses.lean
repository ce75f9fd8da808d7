import TimedBridge.Proofs.Bridge.Passage
import TimedBridge.Proofs.Deliveries
import TimedBridge.Proofs.Simulation.Start

/-!
The accesses of a scenario as a memory without a bridge would make them, one at a time: which bytes an
access changes (`TrafficItem.storeIn`) and how it is answered (`TrafficItem.answer?`). A memory that
performs the packet of an access, however it has been relabelled on its way, stores those bytes and
gives that answer (`byteAt_perform_of_relabelled`, `relabelled_perform`).
-/

namespace TimedBridge

/-- The bytes of a memory, address by address. -/
abbrev Contents := Address → UInt8

/-- The bytes of a memory to which nothing has been written. -/
def Contents.zero : Contents := fun _ => 0

/-- The `count` bytes from an address on; behind the last address comes the first. -/
def Contents.bytesFrom (contents : Contents) (a : Address) (count : Nat) : List UInt8 :=
  (List.range count).map fun i => contents (a + UInt64.ofNat i)

theorem Memory.readFrom_eq (m : Memory) (a : Address) (count : Nat) :
    m.readFrom a count = Contents.bytesFrom m.byteAt a count := by
  refine List.ext_getElem? fun i => ?_
  by_cases hi : i < count
  · rw [m.getElem?_readFrom a hi, Contents.bytesFrom, List.getElem?_map, List.getElem?_range hi]
    rfl
  · rw [List.getElem?_eq_none (by rw [m.length_readFrom]; omega),
      List.getElem?_eq_none (by rw [Contents.bytesFrom, List.length_map, List.length_range]; omega)]

/-! ### One access after another -/

namespace TrafficItem

/-- One of the ranges covers the access. -/
def covered (ranges : List AddressRange) (item : TrafficItem) : Bool :=
  ranges.any (·.covers (.ofSpan item.address item.size))

/-- The access stores a byte at an address. -/
def Stores (item : TrafficItem) (a : Address) : Prop :=
  item.kind ≠ .read ∧ item.address.toNat ≤ a.toNat ∧ a.toNat < item.address.toNat + item.size.toNat

instance (item : TrafficItem) (a : Address) : Decidable (item.Stores a) :=
  inferInstanceAs (Decidable (_ ∧ _))

/-- A write does not touch the last address. -/
def EndsBelowTop (item : TrafficItem) : Prop :=
  item.kind ≠ .read → item.address.toNat + item.size.toNat < UInt64.size

instance (item : TrafficItem) : Decidable item.EndsBelowTop :=
  inferInstanceAs (Decidable (_ → _))

/-- The bytes after the access. -/
def storeIn (item : TrafficItem) (contents : Contents) : Contents :=
  fun a => if item.Stores a then item.fill else contents a

/-- The answer to the access, which a writeback does not get. -/
def answer? (item : TrafficItem) (id : RequestId) (contents : Contents) : Option Packet :=
  match item.kind with
  | .read => some {
      id
      command := .readResponse
      address := item.address
      size := item.size
      data := some (contents.bytesFrom item.address item.size.toNat)
      source := generatorRoute }
  | .write => some {
      id
      command := .writeResponse
      address := item.address
      size := item.size
      source := generatorRoute }
  | .writeback => none

end TrafficItem

/-! ### The packet of an access -/

namespace TrafficItem

variable {item : TrafficItem} {id : RequestId}

theorem packet_of_write (id : RequestId) (h : item.kind ≠ .read) :
    ∃ command, (command = .writeRequest ∨ command = .writeback) ∧
      item.packet id =
        { id, command, address := item.address, size := item.size, data := some item.bytes,
          source := generatorRoute } := by
  cases hkind : item.kind with
  | read => exact absurd hkind h
  | write =>
    refine ⟨.writeRequest, .inl rfl, ?_⟩
    rw [packet, hkind]
    simp only [Packet.write, Packet.carrying, ofNat_length_bytes]
  | writeback =>
    refine ⟨.writeback, .inr rfl, ?_⟩
    rw [packet, hkind]
    simp only [Packet.writeback, Packet.carrying, ofNat_length_bytes]

theorem packet_of_read (h : item.kind = .read) :
    item.packet id = .read id item.address item.size generatorRoute := by
  rw [packet, h]

theorem isWrite_packet : (item.packet id).isWrite = true ↔ item.kind ≠ .read := by
  by_cases h : item.kind = .read
  · rw [packet_of_read h]
    exact iff_of_false (show ¬ (false = true) from nofun) (not_not_intro h)
  · obtain ⟨command, hcommand, hpacket⟩ := packet_of_write id h
    rw [hpacket]
    refine iff_of_true ?_ h
    rcases hcommand with rfl | rfl <;> rfl

theorem fitting_packet (h : item.EndsBelowTop) : (item.packet id).Fitting := by
  intro hdata bytes hbytes
  by_cases hread : item.kind = .read
  · rw [packet_of_read hread] at hdata
    contradiction
  · obtain ⟨command, hcommand, hpacket⟩ := packet_of_write id hread
    rw [hpacket] at hbytes ⊢
    cases hbytes
    refine ⟨?_, h hread⟩
    rw [TrafficItem.bytes, List.length_replicate]

/-- The packet of an access stores its fill at the addresses of the access. -/
theorem storedAt?_packet (a : Address) :
    (item.packet id).storedAt? a = if item.Stores a then some item.fill else none := by
  by_cases hread : item.kind = .read
  · rw [Packet.storedAt?, if_neg (by rw [isWrite_packet]; exact not_not_intro hread),
      if_neg fun hstores => hstores.1 hread]
  · obtain ⟨command, -, hpacket⟩ := packet_of_write id hread
    rw [Packet.storedAt?, if_pos (isWrite_packet.2 hread), hpacket, Packet.byteFor?_of_data rfl]
    dsimp only
    rw [TrafficItem.bytes, List.getElem?_replicate]
    by_cases hle : item.address.toNat ≤ a.toNat
    · rw [if_pos hle]
      refine if_congr ⟨fun hlt => ⟨hread, hle, by omega⟩, fun hstores => ?_⟩ rfl rfl
      have hend := hstores.2.2
      omega
    · rw [if_neg hle, if_neg fun hstores => hle hstores.2.1]

end TrafficItem

/-- The packet of a numbered access. -/
def numberedPacket (e : TrafficItem × Nat) : Packet := e.1.packet (UInt64.ofNat e.2)

theorem covers_numberedPacket (ranges : List AddressRange) (e : TrafficItem × Nat) :
    ranges.any (·.covers (numberedPacket e).footprint) = e.1.covered ranges := by
  rw [numberedPacket, e.1.footprint_packet]
  rfl

/-- The generator of a scenario issues the packets of its accesses, numbered in order. -/
theorem numberedIssues_eq (number : Nat) (traffic : List TrafficItem) :
    (numberedIssues number traffic).map (fun i => (i.packet, i.mode)) =
      (traffic.zipIdx number).map fun e => (numberedPacket e, e.1.mode) := by
  induction traffic generalizing number with
  | nil => rfl
  | cons item rest ih =>
    rw [numberedIssues, List.map_cons, ih, List.zipIdx_cons, List.map_cons]
    rfl

/-! ### Relabelled packets -/

namespace Packet

variable {p q r : Packet} {d : Direction}

theorem Relabelled.trans (h : p.Relabelled .response q) (h' : q.Relabelled .response r) :
    p.Relabelled .response r := by
  refine ⟨?_, nofun⟩
  rw [h'.rest, h.rest]

/-- Relabelling leaves what a packet stores. -/
theorem Relabelled.storedAt?_eq (h : p.Relabelled d q) (a : Address) :
    q.storedAt? a = p.storedAt? a := by
  rw [h.rest]
  rfl

theorem Relabelled.fitting (h : p.Relabelled d q) (hfits : p.Fitting) : q.Fitting := by
  rw [h.rest]
  exact hfits

theorem Relabelled.expectsResponse_eq (h : p.Relabelled d q) :
    q.expectsResponse = p.expectsResponse := by
  rw [h.rest]
  rfl

end Packet

/-! ### A memory performs an access -/

namespace TrafficItem

variable {item : TrafficItem} {id : RequestId} {q : Packet} {d : Direction}

/-- A memory that performs the packet of an access stores its bytes. -/
theorem byteAt_perform_of_relabelled (h : (item.packet id).Relabelled d q) (hends : item.EndsBelowTop)
    (m : Memory) : (m.perform q).1.byteAt = item.storeIn m.byteAt := by
  funext a
  rw [m.byteAt_perform (h.fitting (fitting_packet hends)), h.storedAt?_eq, storedAt?_packet, storeIn]
  split <;> rfl

/-- A memory that performs the packet of an access answers the access. -/
theorem relabelled_perform (h : (item.packet id).Relabelled .request q) (m : Memory) :
    List.Forall₂ (Packet.Relabelled .response) (item.answer? id m.byteAt).toList
      (if q.expectsResponse then [(m.perform q).2] else []) := by
  rw [h.expectsResponse_eq, h.rest]
  cases hkind : item.kind with
  | read =>
    rw [packet_of_read hkind, answer?, hkind]
    refine .cons ⟨?_, nofun⟩ .nil
    simp only [Memory.perform, Packet.read, Packet.respond, Memory.read, Memory.readFrom_eq,
      Command.response?, Option.getD_some]
  | write =>
    rw [packet, hkind, answer?, hkind]
    refine .cons ⟨?_, nofun⟩ .nil
    simp only [Memory.perform, Packet.write, Packet.carrying, Packet.respond, Command.response?,
      Option.getD_some, ofNat_length_bytes, if_true]
  | writeback =>
    rw [packet, hkind, answer?, hkind]
    exact .nil

end TrafficItem

end TimedBridge
