import TimedBridge.Proofs.Packet.Overwritten

/-!
What a functional write makes of a packet on its way, byte by byte. When the bytes of both are as many
as their sizes say, the packet has the write's byte at every address that both carry, and its own byte
everywhere else and past the last address (`byteFor?_snoop_of_sized`). The bytes that the packet stores
when it arrives are patched in the same way (`storedAt?_snoop`).
-/

namespace TimedBridge

namespace Packet

/-- If the packet carries bytes, they are as many as its size says and end below the last address. -/
def Fitting (p : Packet) : Prop :=
  p.command.hasData = true → ∀ bytes, p.data = some bytes →
    bytes.length = p.size.toNat ∧ p.address.toNat + p.size.toNat < UInt64.size

instance (p : Packet) : Decidable p.Fitting :=
  inferInstanceAs (Decidable (_ → ∀ bytes ∈ p.data, _))

/-- If the packet carries bytes, they are as many as its size says, wherever they end. -/
def Sized (p : Packet) : Prop :=
  p.command.hasData = true → ∀ bytes, p.data = some bytes → bytes.length = p.size.toNat

instance (p : Packet) : Decidable p.Sized :=
  inferInstanceAs (Decidable (_ → ∀ bytes ∈ p.data, _))

theorem Fitting.sized {p : Packet} (h : p.Fitting) : p.Sized :=
  fun hdata bytes hbytes => (h hdata bytes hbytes).1

theorem isWrite_iff {p : Packet} :
    p.isWrite = true ↔ p.command = .writeRequest ∨ p.command = .writeback := by
  rw [isWrite, Bool.or_eq_true, decide_eq_true_iff, decide_eq_true_iff]

theorem isWrite_eq_false_iff {p : Packet} :
    p.isWrite = false ↔ p.command ≠ .writeRequest ∧ p.command ≠ .writeback := by
  rw [isWrite, Bool.or_eq_false_iff, decide_eq_false_iff_not, decide_eq_false_iff_not]

theorem hasData_of_isWrite {p : Packet} (h : p.isWrite = true) : p.command.hasData = true := by
  rcases isWrite_iff.1 h with h | h
  · rw [h]
    rfl
  · rw [h]
    rfl

theorem Fitting.of_isWrite {p : Packet} (h : p.Fitting) (hwrite : p.isWrite = true)
    {bytes : List UInt8} (hbytes : p.data = some bytes) :
    bytes.length = p.size.toNat ∧ p.address.toNat + p.size.toNat < UInt64.size :=
  h (hasData_of_isWrite hwrite) bytes hbytes

theorem Sized.of_isWrite {p : Packet} (h : p.Sized) (hwrite : p.isWrite = true) {bytes : List UInt8}
    (hbytes : p.data = some bytes) : bytes.length = p.size.toNat :=
  h (hasData_of_isWrite hwrite) bytes hbytes

/-- A footprint ends with the last byte or, before that, with the last address. -/
theorem last_footprint (p : Packet) :
    p.footprint.last.toNat = min (p.address.toNat + (p.size.toNat - 1)) 0xffffffffffffffff := by
  have hspan : (if p.size = 0 then 0 else p.size - 1).toNat = p.size.toNat - 1 := by
    split
    next hzero => rw [hzero]; rfl
    next hzero =>
      have hpos : p.size.toNat ≠ 0 := fun h0 => hzero (UInt64.toNat_inj.1 h0)
      have hone : (1 : UInt64) ≤ p.size := UInt64.le_iff_toNat_le.2 (Nat.pos_of_ne_zero hpos)
      exact UInt64.toNat_sub_of_le _ _ hone
  rw [footprint, AddressRange.ofSpan, toNat_cappedAdd, hspan]

/-- The footprints of two packets meet. -/
theorem meets_footprint_iff {p q : Packet} :
    p.footprint.meets q.footprint = true ↔
      p.address.toNat ≤ q.address.toNat + (q.size.toNat - 1) ∧
        q.address.toNat ≤ p.address.toNat + (p.size.toNat - 1) := by
  have hp := p.address.toNat_lt
  have hq := q.address.toNat_lt
  rw [AddressRange.meets, Bool.and_eq_true, decide_eq_true_iff, decide_eq_true_iff,
    UInt64.le_iff_toNat_le, UInt64.le_iff_toNat_le, last_footprint, last_footprint]
  change p.address.toNat ≤ _ ∧ q.address.toNat ≤ _ ↔ _
  omega

theorem byteFor?_eq_none {p : Packet} {bytes : List UInt8} (h : p.data = some bytes) {a : Nat}
    (ha : a < p.address.toNat ∨ p.address.toNat + bytes.length ≤ a) : p.byteFor? a = none := by
  rw [byteFor?_of_data h]
  split
  next => exact List.getElem?_eq_none (by omega)
  next => rfl

/-- The byte of a packet for an address after a write has been laid over the packet. -/
def patched? (access held : Packet) (a : Nat) : Option UInt8 :=
  (held.byteFor? a).map fun old => (access.byteFor? a).getD old

section Overlaid

variable {access held : Packet} {source bytes : List UInt8} (hsource : access.data = some source)
  (hbytes : held.data = some bytes)

include hsource hbytes

/-- Where the two do not both carry a byte, a packet keeps its own. -/
theorem patched?_of_outside {a : Nat}
    (ha : ¬ (max access.address.toNat held.address.toNat ≤ a ∧
      a < min (access.address.toNat + source.length) (held.address.toNat + bytes.length))) :
    access.patched? held a = held.byteFor? a := by
  rw [patched?]
  by_cases hheld : held.address.toNat ≤ a ∧ a < held.address.toNat + bytes.length
  · rw [byteFor?_eq_none hsource (by omega)]
    simp
  · rw [byteFor?_eq_none hbytes (by omega)]
    rfl

variable (haccess : source.length = access.size.toNat) (hheld : bytes.length = held.size.toNat)

include haccess hheld

/-- A write that meets a packet is laid over it from the first common address to the last. -/
theorem overlaid?_of_sized (hdata : held.command.hasData = true) {first stop : Nat}
    (hfirst : max access.address.toNat held.address.toNat = first)
    (hstop : min (min (access.address.toNat + source.length) (held.address.toNat + bytes.length))
      UInt64.size = stop)
    (hmeet : first < stop) :
    access.overlaid? held = some (overlayAt bytes (first - held.address.toNat)
      ((source.drop (first - access.address.toNat)).take (stop - first))) := by
  rw [UInt64.size] at hstop
  have hcount : min access.footprint.last.toNat held.footprint.last.toNat - first + 1 = stop - first := by
    rw [last_footprint, last_footprint]
    omega
  have hmeets : access.footprint.meets held.footprint = true := meets_footprint_iff.2 (by omega)
  have hfirst' : max access.footprint.first.toNat held.footprint.first.toNat = first := hfirst
  rw [overlaid?]
  simp only [hdata, hmeets, hfirst', hcount, hsource, hbytes, Bool.and_self, if_true]
  rw [if_pos (by omega), bytesAt?, if_pos (by omega)]
  rfl

/-- A write that does not meet a packet, or meets it where one of them carries no byte, leaves it. -/
theorem overlaid?_of_apart
    (hapart : min (access.address.toNat + source.length) (held.address.toNat + bytes.length) ≤
      max access.address.toNat held.address.toNat) :
    access.overlaid? held = none := by
  rw [overlaid?]
  dsimp only
  split
  next hmeets =>
    have hspans := meets_footprint_iff.1 (Bool.and_eq_true_iff.1 hmeets).2
    simp only [hsource, hbytes]
    obtain ⟨first, hfirst⟩ :
        ∃ n, max access.footprint.first.toNat held.footprint.first.toNat = n := ⟨_, rfl⟩
    rw [hfirst]
    have hfirst' : max access.address.toNat held.address.toNat = first := hfirst
    -- One of the two carries no bytes, so the one byte where the footprints meet is missing.
    split
    next hfits =>
      rw [bytesAt?, if_neg (by omega)]
      rfl
    next => rfl
  next => rfl

/-- The bytes for addresses are patched, and those past the last address are not. -/
theorem byteFor?_overlaid (hdata : held.command.hasData = true) (a : Nat) :
    { held with data := some ((access.overlaid? held).getD bytes) }.byteFor? a =
      if a < UInt64.size then access.patched? held a else held.byteFor? a := by
  have hbelow : access.address.toNat < UInt64.size ∧ held.address.toNat < UInt64.size :=
    ⟨access.address.toNat_lt, held.address.toNat_lt⟩
  obtain ⟨first, hfirst⟩ : ∃ n, max access.address.toNat held.address.toNat = n := ⟨_, rfl⟩
  obtain ⟨stop, hstop⟩ : ∃ n,
    min (min (access.address.toNat + source.length) (held.address.toNat + bytes.length))
      UInt64.size = n := ⟨_, rfl⟩
  by_cases hmeet : first < stop
  · rw [overlaid?_of_sized hsource hbytes haccess hheld hdata hfirst hstop hmeet, Option.getD_some,
      byteFor?_of_data rfl]
    obtain ⟨patch, hpatch⟩ : ∃ patch,
      (source.drop (first - access.address.toNat)).take (stop - first) = patch := ⟨_, rfl⟩
    have hlength : patch.length = stop - first := by
      rw [← hpatch, List.length_take, List.length_drop]
      omega
    rw [hpatch, getElem?_overlayAt (by omega)]
    dsimp only
    by_cases ha : first ≤ a ∧ a < stop
    · have hsame : patch[a - held.address.toNat - (first - held.address.toNat)]? =
          source[a - access.address.toNat]? := by
        rw [← hpatch, List.getElem?_take_of_lt (by omega), List.getElem?_drop]
        congr 1
        omega
      rw [if_pos (by omega), if_pos (by omega), hsame, if_pos (by omega), patched?,
        byteFor?_of_data hbytes, if_pos (by omega), byteFor?_of_data hsource, if_pos (by omega),
        List.getElem?_eq_getElem (by omega : a - held.address.toNat < bytes.length),
        List.getElem?_eq_getElem (by omega : a - access.address.toNat < source.length)]
      rfl
    · have hown : (if a < UInt64.size then access.patched? held a else held.byteFor? a) =
          held.byteFor? a := by
        split
        next => exact patched?_of_outside hsource hbytes (by omega)
        next => rfl
      rw [hown, byteFor?_of_data hbytes]
      split
      next => rw [if_neg (by omega)]
      next => rfl
  · rw [overlaid?_of_apart hsource hbytes haccess hheld (by omega), Option.getD_none, ← hbytes,
      patched?_of_outside hsource hbytes (by omega), ite_self]

end Overlaid

/-! ### A functional write meets a packet -/

/-- A functional write is never served. It lays its bytes over the packet that it meets. -/
theorem snoop_of_isWrite {access : Packet} (h : access.isWrite = true) (held : Packet) :
    access.snoop held =
      ⟨access, { held with data := (access.overlaid? held).or held.data }, false⟩ := by
  rw [snoop]
  rcases isWrite_iff.1 h with h | h
  · rw [h]
    cases access.overlaid? held <;> rfl
  · rw [h]
    cases access.overlaid? held <;> rfl

theorem overlaid?_of_no_data {access held : Packet} (h : access.data = none ∨ held.data = none) :
    access.overlaid? held = none := by
  rw [overlaid?]
  dsimp only
  split
  next =>
    rcases h with h | h
    · rw [h]
    · rw [h]
      split
      next heq => contradiction
      next => rfl
  next => rfl

/-- At each address a packet that a functional write meets carries the write's byte, if both carry one,
and else its own, as it does past the last address. -/
theorem byteFor?_snoop_of_sized {access held : Packet} (hwrite : access.isWrite = true)
    (hdata : held.command.hasData = true) (haccess : access.Sized) (hheld : held.Sized) (a : Nat) :
    (access.snoop held).held.byteFor? a =
      if a < UInt64.size then access.patched? held a else held.byteFor? a := by
  rw [snoop_of_isWrite hwrite]
  dsimp only
  cases hsource : access.data with
  | none =>
    have hnone : access.byteFor? a = none := by rw [byteFor?, hsource]; simp
    have hkept : access.patched? held a = held.byteFor? a := by
      rw [patched?, hnone]
      simp
    rw [overlaid?_of_no_data (.inl hsource), Option.none_or, hkept, ite_self]
  | some source =>
    cases hbytes : held.data with
    | none =>
      have hnone (p : Packet) (hp : p.data = none) : p.byteFor? a = none := by
        rw [byteFor?, hp]
        simp
      rw [overlaid?_of_no_data (.inr hbytes), Option.none_or, hnone _ rfl, patched?, hnone held hbytes]
      exact (ite_self _).symm
    | some bytes =>
      rw [← byteFor?_overlaid hsource hbytes (haccess.of_isWrite hwrite hsource)
        (hheld hdata bytes hbytes) hdata]
      cases access.overlaid? held <;> rfl

/-- A packet whose bytes fit carries none past the last address. -/
theorem byteFor?_snoop {access held : Packet} (hwrite : access.isWrite = true)
    (hdata : held.command.hasData = true) (haccess : access.Fitting) (hheld : held.Fitting) (a : Nat) :
    (access.snoop held).held.byteFor? a = access.patched? held a := by
  rw [byteFor?_snoop_of_sized hwrite hdata haccess.sized hheld.sized]
  split
  next => rfl
  next hpast =>
    have hnone : held.byteFor? a = none := by
      cases hbytes : held.data with
      | none => rw [byteFor?, hbytes]; simp
      | some bytes =>
        obtain ⟨hlength, hspan⟩ := hheld hdata bytes hbytes
        exact byteFor?_eq_none hbytes (by omega)
    rw [patched?, hnone]
    rfl

/-! ### The bytes that a packet stores -/

/-- The byte that a memory stores at an address when it performs the packet. -/
def storedAt? (p : Packet) (a : Address) : Option UInt8 :=
  if p.isWrite then p.byteFor? a.toNat else none

/-- Whether the bytes of a packet fit is a matter of how many they are. -/
theorem Fitting.of_length {p p' : Packet} (hp : p.Fitting) (hrest : p' = { p with data := p'.data })
    (hlength : p'.data.map List.length = p.data.map List.length) : p'.Fitting := by
  intro hdata bytes hbytes
  rw [hrest] at hdata ⊢
  rw [hbytes] at hlength
  obtain ⟨old, hold, hsame⟩ := Option.map_eq_some_iff.1 hlength.symm
  rw [← hsame]
  exact hp hdata old hold

/-- The command of a packet outlives a meeting, and so does whether its bytes fit. -/
theorem Overwritten.fitting {writes : List Packet} {p p' : Packet} (h : Overwritten writes p p')
    (hp : p.Fitting) : p'.Fitting :=
  hp.of_length h.rest h.length

/-- A packet whose bytes fit after a meeting fitted before it. -/
theorem Overwritten.fitting_before {writes : List Packet} {p p' : Packet}
    (h : Overwritten writes p p') (hp : p'.Fitting) : p.Fitting := by
  refine hp.of_length ?_ h.length.symm
  rw [h.rest]

/-- A queued write stores the functional write's byte wherever both store one, and else its own. -/
theorem storedAt?_snoop {access held : Packet} (hwrite : access.isWrite = true)
    (haccess : access.Sized) (hheld : held.Sized) (a : Address) :
    (access.snoop held).held.storedAt? a =
      (held.storedAt? a).map fun old => (access.storedAt? a).getD old := by
  have hcommand : (access.snoop held).held.isWrite = held.isWrite := by
    rw [snoop_of_isWrite hwrite]
    rfl
  rw [storedAt?, storedAt?, storedAt?, hcommand, if_pos hwrite]
  cases hkind : held.isWrite with
  | false => rfl
  | true =>
    have hbyte := byteFor?_snoop_of_sized hwrite (hasData_of_isWrite hkind) haccess hheld a.toNat
    rw [if_pos a.toNat_lt] at hbyte
    exact hbyte

end Packet

end TimedBridge
