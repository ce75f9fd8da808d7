import TimedBridge.Proofs.Packet.Overlay

/-!
A functional write overlays exactly the bytes that it shares with the packet it meets. When the bytes of
both are as many as their sizes say, the packet has the write's byte at each position whose address both
carry, and its own at every other, those past the last address among them; nothing else of the packet
changes, and the write goes on as it came (`overlays_shared`).
-/

namespace TimedBridge

namespace Packet

variable {w o : Packet} {source bytes : List UInt8}

/-- The position `i` of a packet is for an address, and the write carries a byte for it. -/
def Shares (w o : Packet) (i : Nat) : Prop :=
  o.address.toNat + i < UInt64.size ∧ w.address.toNat ≤ o.address.toNat + i ∧
    o.address.toNat + i < w.address.toNat + w.size.toNat

instance (w o : Packet) (i : Nat) : Decidable (w.Shares o i) :=
  inferInstanceAs (Decidable (_ ∧ _ ∧ _))

/-- A packet that carries no bytes is not changed by a write. -/
theorem held_snoop_of_no_bytes (hwrite : w.isWrite = true)
    (hnone : o.command.hasData = false ∨ o.data = none) : (w.snoop o).held = o := by
  have hkept : w.overlaid? o = none := by
    rcases hnone with hcommand | hdata
    · rw [overlaid?, hcommand]
      rfl
    · exact overlaid?_of_no_data (.inr hdata)
  rw [snoop_of_isWrite hwrite, hkept]
  rfl

/-- A write leaves as many bytes as there were. -/
theorem exists_bytes_snoop (hbytes : o.data = some bytes) :
    ∃ patched, (w.snoop o).held.data = some patched ∧ patched.length = bytes.length := by
  have hlength := (w.overwritten_snoop o).length
  rw [hbytes, Option.map_some] at hlength
  exact Option.map_eq_some_iff.1 hlength

/-- The byte of a packet at a position is the one for the address of the position. -/
theorem byteFor?_add (hbytes : o.data = some bytes) (i : Nat) :
    o.byteFor? (o.address.toNat + i) = bytes[i]? := by
  rw [byteFor?_of_data hbytes, if_pos (Nat.le_add_right ..), Nat.add_sub_cancel_left]

/-- The byte of a patched packet at a position that it shares is the write's, at another its own. -/
theorem patched?_add (hsource : w.data = some source) (hlength : source.length = w.size.toNat)
    (hbytes : o.data = some bytes) {i : Nat} (hi : i < bytes.length) :
    (if o.address.toNat + i < UInt64.size then w.patched? o (o.address.toNat + i)
      else o.byteFor? (o.address.toNat + i)) =
      if w.Shares o i then source[o.address.toNat + i - w.address.toNat]? else bytes[i]? := by
  by_cases hshared : w.Shares o i
  · obtain ⟨haddress, hfirst, hlast⟩ := hshared
    have hmine : o.address.toNat + i - w.address.toNat < source.length := by omega
    rw [if_pos haddress, if_pos ⟨haddress, hfirst, hlast⟩, patched?, byteFor?_add hbytes,
      byteFor?_of_data hsource, if_pos hfirst, List.getElem?_eq_getElem hi,
      List.getElem?_eq_getElem hmine]
    rfl
  · rw [if_neg hshared, byteFor?_add hbytes]
    split
    next haddress =>
      have hapart : w.byteFor? (o.address.toNat + i) = none := by
        refine byteFor?_eq_none hsource ?_
        rw [Shares] at hshared
        omega
      rw [patched?, byteFor?_add hbytes, hapart]
      simp
    next => rfl

/-- A functional write lays exactly the bytes that it shares with a packet over that packet. It is not
served, and nothing but these bytes changes. -/
theorem overlays_shared (hwrite : w.isWrite = true) (hsource : w.data = some source)
    (hlength : source.length = w.size.toNat)
    (hheld : ∀ bytes, o.data = some bytes → bytes.length = o.size.toNat) :
    (w.snoop o).served = false ∧ (w.snoop o).access = w ∧
      (w.snoop o).held = { o with data := (w.snoop o).held.data } ∧
      (o.command.hasData = false ∨ o.data = none → (w.snoop o).held = o) ∧
      (o.command.hasData = true → ∀ bytes, o.data = some bytes →
        ∃ patched, (w.snoop o).held.data = some patched ∧ patched.length = bytes.length ∧
          ∀ i < bytes.length, patched[i]? =
            if w.Shares o i then source[o.address.toNat + i - w.address.toNat]? else bytes[i]?) := by
  have haccess : w.Sized := by
    rintro - bytes hbytes
    rw [hsource] at hbytes
    rw [← Option.some.inj hbytes, hlength]
  have hmeeting := snoop_of_isWrite hwrite o
  refine ⟨by rw [hmeeting], by rw [hmeeting], (w.overwritten_snoop o).rest,
    held_snoop_of_no_bytes hwrite, fun hdata bytes hbytes => ?_⟩
  obtain ⟨patched, hpatched, hsame⟩ := exists_bytes_snoop (w := w) hbytes
  refine ⟨patched, hpatched, hsame, fun i hi => ?_⟩
  have haddress : (w.snoop o).held.address = o.address := by rw [hmeeting]
  calc
    patched[i]? = (w.snoop o).held.byteFor? (o.address.toNat + i) := by
      rw [← haddress, byteFor?_add hpatched]
    _ = if o.address.toNat + i < UInt64.size then w.patched? o (o.address.toNat + i)
          else o.byteFor? (o.address.toNat + i) :=
      byteFor?_snoop_of_sized hwrite hdata haccess (fun _ => hheld) _
    _ = _ := patched?_add hsource hlength hbytes hi

/-- A writeback that runs past the top of the address space. -/
def farWriteback : Packet := writeback 1 0xfffffffffffffffc [1, 2, 3, 4, 5, 6, 7, 8] 0

/-- A write with two bytes below the top of the address space and two past it. -/
def topWrite : Packet := write 2 0xfffffffffffffffe [0, 0, 0, 0] 0

theorem overlays_topWrite :
    farWriteback.isWrite = true ∧ farWriteback.size = 8 ∧
      (∀ bytes, topWrite.data = some bytes → bytes.length = topWrite.size.toNat) ∧
      (farWriteback.snoop topWrite).served = false ∧
      (∀ i < 4, [3, 4, 0, 0][i]? = if farWriteback.Shares topWrite i then
        [1, 2, 3, 4, 5, 6, 7, (8 : UInt8)][i + 2]? else [0, 0, 0, 0][i]?) ∧
      (farWriteback.snoop topWrite).held = { topWrite with data := some [3, 4, 0, 0] } := by
  have hheld : ∀ bytes, topWrite.data = some bytes → bytes.length = topWrite.size.toNat := by
    rintro bytes ⟨⟩
    rfl
  obtain ⟨hserved, -, hrest, -, hbytes⟩ := overlays_shared (w := farWriteback) rfl rfl rfl hheld
  obtain ⟨patched, hpatched, -, hbyte⟩ := hbytes rfl _ rfl
  obtain rfl : [3, 4, 0, 0] = patched := Option.some.inj hpatched
  have hindex (i : Nat) : topWrite.address.toNat + i - farWriteback.address.toNat = i + 2 := by
    have haddress : topWrite.address.toNat = farWriteback.address.toNat + 2 := rfl
    omega
  refine ⟨rfl, rfl, hheld, hserved, fun i hi => ?_, hrest⟩
  rw [hbyte i hi, hindex]

end Packet

end TimedBridge
