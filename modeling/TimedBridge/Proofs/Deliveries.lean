import TimedBridge.Memory
import TimedBridge.Proofs.Packet.Overlay

/-!
The bytes of a memory that performs packets. A packet whose bytes fit changes the bytes that it stores
and no others (`byteAt_perform`), so after several packets an address has the byte that the last of
them has stored there, or the one from before (`byteAt_deliver`). Where none of them stores, whatever
their shape, the byte stays (`byteAt_deliver_of_apart`).
-/

namespace TimedBridge

namespace Packet

/-- The byte at an address where there is `old`, after packets have been performed in order. -/
def byteAfter (a : Address) (old : UInt8) (packets : List Packet) : UInt8 :=
  packets.foldl (fun byte p => (p.storedAt? a).getD byte) old

variable {a : Address} {old byte : UInt8} {packets more : List Packet}

theorem byteAfter_append :
    byteAfter a old (packets ++ more) = byteAfter a (byteAfter a old packets) more :=
  List.foldl_append

/-- Packets that store no other byte, after which some packet or the memory has it, leave that byte. -/
theorem byteAfter_eq (hsame : ∀ p ∈ packets, ∀ b, p.storedAt? a = some b → b = byte)
    (hsome : old = byte ∨ ∃ p ∈ packets, p.storedAt? a ≠ none) : byteAfter a old packets = byte := by
  induction packets generalizing old with
  | nil => exact hsome.resolve_right (by simp)
  | cons p rest ih =>
    rw [byteAfter, List.foldl_cons]
    refine ih (fun q hq => hsame q (List.mem_cons_of_mem p hq)) ?_
    cases hstored : p.storedAt? a with
    | some b => exact .inl (hsame p List.mem_cons_self b hstored)
    | none =>
      refine hsome.imp_right ?_
      rintro ⟨q, hq, hne⟩
      rcases List.mem_cons.1 hq with rfl | hq
      · exact absurd hstored hne
      · exact ⟨q, hq, hne⟩

/-- To lay a write over packets and perform it before them is to perform it after them. -/
theorem byteAfter_snoop {access : Packet} (hwrite : access.isWrite = true) (haccess : access.Fitting)
    {packets : List Packet} (hpackets : ∀ p ∈ packets, p.Fitting) (a : Address) (old : UInt8) :
    byteAfter a ((access.storedAt? a).getD old) (packets.map fun p => (access.snoop p).held) =
      (access.storedAt? a).getD (byteAfter a old packets) := by
  induction packets generalizing old with
  | nil => rfl
  | cons p rest ih =>
    have hrest := ih fun q hq => hpackets q (List.mem_cons_of_mem p hq)
    have hfirst : (((access.snoop p).held.storedAt? a).getD ((access.storedAt? a).getD old)) =
        (access.storedAt? a).getD ((p.storedAt? a).getD old) := by
      rw [storedAt?_snoop hwrite haccess.sized (hpackets p List.mem_cons_self).sized]
      cases access.storedAt? a <;> cases p.storedAt? a <;> rfl
    rw [List.map_cons, byteAfter, List.foldl_cons, hfirst]
    exact hrest _

end Packet

namespace Memory

/-- The bytes of a write that fits are stored at their addresses, and no address wraps. -/
theorem byteAt_store_of_fitting (m : Memory) {p : Packet} {bytes : List UInt8}
    (hwrite : p.isWrite = true) (hfits : p.Fitting) (hbytes : p.data = some bytes) (a : Address) :
    (m.store p.address bytes).byteAt a = (p.storedAt? a).getD (m.byteAt a) := by
  obtain ⟨hlength, hspan⟩ := hfits.of_isWrite hwrite hbytes
  rw [UInt64.size] at hspan
  rw [byteAt_store m _ _ (by simp only [UInt64.size]; omega), Packet.storedAt?, if_pos hwrite,
    Packet.byteFor?_of_data hbytes]
  congr 1
  split
  next hle => rw [UInt64.toNat_sub_of_le _ _ (UInt64.le_iff_toNat_le.2 hle)]
  next hlt =>
    have ha := a.toNat_lt
    refine List.getElem?_eq_none ?_
    rw [UInt64.toNat_sub]
    omega

theorem perform_of_isWrite (m : Memory) {p : Packet} (h : p.isWrite = true) :
    (m.perform p).1 = p.data.elim m (m.store p.address) := by
  rw [perform]
  rcases Packet.isWrite_iff.1 h with h | h
  · rw [h]
    cases p.data <;> rfl
  · rw [h]
    cases p.data <;> rfl

theorem perform_of_not_isWrite (m : Memory) {p : Packet} (h : p.isWrite = false) :
    (m.perform p).1 = m := by
  rw [Packet.isWrite_eq_false_iff] at h
  rw [perform]
  split
  next => rfl
  next hcommand => exact absurd hcommand h.1
  next hcommand => exact absurd hcommand h.2
  next => rfl
  next => rfl

/-- A packet that is performed changes the bytes that it stores. -/
theorem byteAt_perform (m : Memory) {p : Packet} (hfits : p.Fitting) (a : Address) :
    (m.perform p).1.byteAt a = (p.storedAt? a).getD (m.byteAt a) := by
  cases hwrite : p.isWrite with
  | false =>
    rw [m.perform_of_not_isWrite hwrite, Packet.storedAt?, if_neg (by simp [hwrite])]
    rfl
  | true =>
    rw [m.perform_of_isWrite hwrite]
    cases hbytes : p.data with
    | none =>
      rw [Packet.storedAt?, Packet.byteFor?, hbytes]
      simp
    | some bytes => exact m.byteAt_store_of_fitting hwrite hfits hbytes a

/-- The memory after it has performed packets in order. -/
def deliver (m : Memory) (packets : List Packet) : Memory :=
  packets.foldl (fun m p => (m.perform p).1) m

theorem byteAt_deliver (m : Memory) {packets : List Packet} (h : ∀ p ∈ packets, p.Fitting)
    (a : Address) : (m.deliver packets).byteAt a = Packet.byteAfter a (m.byteAt a) packets := by
  induction packets generalizing m with
  | nil => rfl
  | cons p rest ih =>
    rw [deliver, List.foldl_cons, Packet.byteAfter, List.foldl_cons,
      ← m.byteAt_perform (h p List.mem_cons_self)]
    exact ih _ fun q hq => h q (List.mem_cons_of_mem p hq)

end Memory

/-- The address of a byte, if it is no further than the last one. -/
theorem toNat_offset {a : Address} {i : Nat} (h : a.toNat + i < UInt64.size) :
    (a + UInt64.ofNat i).toNat = a.toNat + i := by
  rw [UInt64.size] at h
  rw [UInt64.toNat_add, UInt64.toNat_ofNat']
  omega

/-! ### Addresses that packets leave alone -/

/-- The packet stores a byte at an address when a memory performs it. The bytes of a write that runs past
the last address go on at the first one. -/
def Packet.StoresAt (p : Packet) (a : Address) : Prop :=
  p.isWrite = true ∧ ∃ bytes ∈ p.data, (a - p.address).toNat < bytes.length

instance (p : Packet) (a : Address) : Decidable (p.StoresAt a) :=
  inferInstanceAs (Decidable (_ ∧ _))

/-- A packet that carries a byte for an address, and may be stored, stores there. -/
theorem Packet.storesAt_of_byteFor? {p : Packet} {a : Address} {byte : UInt8}
    (hwrite : p.isWrite = true) (h : p.byteFor? a.toNat = some byte) : p.StoresAt a := by
  rw [byteFor?] at h
  split at h
  next hle =>
    obtain ⟨bytes, hbytes, hget⟩ := Option.bind_eq_some_iff.1 h
    obtain ⟨hlt, -⟩ := List.getElem?_eq_some_iff.1 hget
    refine ⟨hwrite, bytes, hbytes, ?_⟩
    rwa [UInt64.toNat_sub_of_le _ _ (UInt64.le_iff_toNat_le.2 hle)]
  next => contradiction

namespace Memory

theorem byteAt_store_of_apart (m : Memory) {first a : Address} {bytes : List UInt8}
    (h : bytes.length ≤ (a - first).toNat) : (m.store first bytes).byteAt a = m.byteAt a := by
  have hlt := (a - first).toNat_lt
  rw [byteAt_store m _ _ (by simp only [UInt64.size]; omega), List.getElem?_eq_none h]
  rfl

/-- A packet of any shape leaves alone the addresses at which it does not store. -/
theorem byteAt_perform_of_apart (m : Memory) {p : Packet} {a : Address} (h : ¬ p.StoresAt a) :
    (m.perform p).1.byteAt a = m.byteAt a := by
  cases hwrite : p.isWrite with
  | false => rw [m.perform_of_not_isWrite hwrite]
  | true =>
    rw [m.perform_of_isWrite hwrite]
    cases hbytes : p.data with
    | none => rfl
    | some bytes =>
      exact m.byteAt_store_of_apart (Nat.not_lt.1 fun hlt => h ⟨hwrite, bytes, hbytes, hlt⟩)

theorem byteAt_deliver_of_apart (m : Memory) {packets : List Packet} {a : Address}
    (h : ∀ p ∈ packets, ¬ p.StoresAt a) : (m.deliver packets).byteAt a = m.byteAt a := by
  induction packets generalizing m with
  | nil => rfl
  | cons p rest ih =>
    rw [deliver, List.foldl_cons]
    exact (ih _ fun q hq => h q (List.mem_cons_of_mem p hq)).trans
      (m.byteAt_perform_of_apart (h p List.mem_cons_self))

theorem deliver_append (m : Memory) (packets more : List Packet) :
    m.deliver (packets ++ more) = (m.deliver packets).deliver more :=
  List.foldl_append

/-- A byte that one packet stores, and none behind it, is there in the end. -/
theorem byteAt_deliver_of_last (m : Memory) {before after : List Packet} {p : Packet} {a : Address}
    {byte : UInt8} (hfits : p.Fitting) (hstored : p.storedAt? a = some byte)
    (hafter : ∀ q ∈ after, ¬ q.StoresAt a) :
    (m.deliver (before ++ p :: after)).byteAt a = byte := by
  rw [deliver_append, deliver, List.foldl_cons]
  refine (byteAt_deliver_of_apart _ hafter).trans ?_
  rw [byteAt_perform _ hfits, hstored]
  rfl

end Memory

end TimedBridge
