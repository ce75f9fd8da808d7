import TimedBridge.Proofs.Bridge.FunctionalRead
import TimedBridge.Proofs.Packet.WordArithmetic

/-!
A functional access meets a packet when the sizes of the two and the numbers of their bytes need not
agree. A write is laid over the whole of what the two footprints have in common if each of them has a
byte for every address there (`patches_iff`), and else it changes nothing. A read that is served has as
many bytes as its size says. Whatever is not served goes on as it came, and no packet has more or fewer
bytes than before (`meeting_snoop`).
-/

namespace TimedBridge

namespace Packet

variable {access held : Packet} {bytes : List UInt8}

/-- The footprints have addresses in common, and both packets carry a byte for each of them. -/
structure Patches (access held : Packet) : Prop where
  hasData : held.command.hasData = true
  meets : ∃ a, access.Common held a
  carried : ∀ a, access.Common held a →
    (access.byteFor? a).isSome = true ∧ (held.byteFor? a).isSome = true

theorem exists_data_of_isSome {a : Nat} (h : (held.byteFor? a).isSome = true) :
    ∃ bytes, held.data = some bytes := by
  cases hdata : held.data with
  | none =>
    rw [byteFor?, hdata] at h
    simp at h
  | some bytes => exact ⟨bytes, rfl⟩

theorem Patches.exists_overlaid? (h : access.Patches held) :
    ∃ bytes, access.overlaid? held = some bytes := by
  obtain ⟨hdata, ⟨a, ha⟩, hcarried⟩ := h
  obtain ⟨first, hfirst⟩ : ∃ n, max access.address.toNat held.address.toNat = n := ⟨_, rfl⟩
  obtain ⟨last, hlast⟩ :
      ∃ n, min access.footprint.last.toNat held.footprint.last.toNat = n := ⟨_, rfl⟩
  rw [common_iff, hfirst, hlast] at ha
  -- Both have a byte for the last common address, and so one for each of them.
  obtain ⟨hmine, htheirs⟩ := hcarried last (common_iff.2 (by omega))
  obtain ⟨source, hsource⟩ := exists_data_of_isSome hmine
  obtain ⟨old, hold⟩ := exists_data_of_isSome htheirs
  rw [isSome_byteFor? hsource] at hmine
  rw [isSome_byteFor? hold] at htheirs
  have hmeets : access.footprint.meets held.footprint = true := by
    rw [AddressRange.meets, Bool.and_eq_true, decide_eq_true_iff, decide_eq_true_iff,
      UInt64.le_iff_toNat_le, UInt64.le_iff_toNat_le]
    change access.address.toNat ≤ _ ∧ held.address.toNat ≤ _
    omega
  have hfirst' : max access.footprint.first.toNat held.footprint.first.toNat = first := hfirst
  rw [overlaid?]
  simp only [hdata, hmeets, hfirst', hlast, hsource, hold, Bool.and_self, if_true]
  rw [if_pos (by omega), bytesAt?, if_pos (by omega)]
  exact ⟨_, rfl⟩

theorem patches_of_overlaid? (h : access.overlaid? held = some bytes) : access.Patches held := by
  obtain ⟨source, old, first, last, patch, hsource, hold, hdata, hfirst, hlast, hspan, hmany, hfits, -,
    -⟩ := exists_of_overlaid? h
  refine ⟨hdata, ⟨first, common_iff.2 (by omega)⟩, ?_⟩
  intro a ha
  rw [common_iff, hfirst, hlast] at ha
  exact ⟨(isSome_byteFor? hsource).2 (by omega), (isSome_byteFor? hold).2 (by omega)⟩

/-- A write is laid over a packet exactly if both carry all that the footprints have in common. -/
theorem patches_iff : access.Patches held ↔ (access.overlaid? held).isSome = true := by
  rw [Option.isSome_iff_exists]
  constructor
  · intro h
    exact h.exists_overlaid?
  · rintro ⟨bytes, h⟩
    exact patches_of_overlaid? h

instance (access held : Packet) : Decidable (access.Patches held) :=
  decidable_of_iff _ patches_iff.symm

/-- What a functional access and a packet on its way make of each other, whatever the two look like. -/
structure Meeting (access held : Packet) (met : Snooped) : Prop where
  /-- By arithmetic on words nothing is below zero, too large or out of bounds. -/
  in_words : ∃ byWords, access.snoopInWords held = .ok byWords ∧
    (access.Storable → held.Storable → byWords = met)
  /-- A read that is served has the bytes that the packet carries from the position of the read's address
  on, as many as its size says. -/
  served : met.served = true → access.command = .readRequest ∧ held.address ≤ access.address ∧
    ∃ source bytes, held.data = some source ∧
      (access.address - held.address).toNat + access.size.toNat ≤ source.length ∧
      bytes = (source.drop (access.address - held.address).toNat).take access.size.toNat ∧
      bytes.length = access.size.toNat ∧ met.access = { access with data := some bytes }
  unserved : met.served = false → met.access = access
  /-- An access that stores nothing leaves the packet as it is. -/
  untouched : access.isWrite = false → met.held = held
  passes : access.isWrite = true → met.served = false
  replaced : access.isWrite = true → access.Patches held → access.Replaced held met.held
  kept : access.isWrite = true → ¬ access.Patches held → met.held = held
  length : met.held.data.map List.length = held.data.map List.length

theorem not_served_of_isWrite (h : access.isWrite = true) : (access.snoop held).served = false := by
  rw [snoop_of_isWrite h]

/-- Only a read is served. -/
theorem command_of_served (h : (access.snoop held).served = true) :
    access.command = .readRequest := by
  cases hcommand : access.command with
  | readRequest => rfl
  | writeRequest =>
    rw [not_served_of_isWrite (isWrite_iff.2 (.inl hcommand))] at h
    contradiction
  | writeback =>
    rw [not_served_of_isWrite (isWrite_iff.2 (.inr hcommand))] at h
    contradiction
  | readResponse | writeResponse =>
    rw [snoop, hcommand] at h
    contradiction

/-- A read is served by a slice of the packet's bytes. -/
theorem slice_of_served (h : (access.snoop held).served = true) :
    access.command = .readRequest ∧ held.address ≤ access.address ∧
      ∃ source bytes, held.data = some source ∧
        (access.address - held.address).toNat + access.size.toNat ≤ source.length ∧
        bytes = (source.drop (access.address - held.address).toNat).take access.size.toNat ∧
        bytes.length = access.size.toNat ∧
        (access.snoop held).access = { access with data := some bytes } := by
  have hcommand := command_of_served h
  rw [snoop_readRequest hcommand] at h ⊢
  cases hfound : access.servedFrom? held with
  | none =>
    rw [hfound] at h
    contradiction
  | some bytes =>
    obtain ⟨-, hcovers, source, hsource, hslice⟩ := servedFrom?_eq_some_iff.1 hfound
    have hfirst : held.address ≤ access.address :=
      of_decide_eq_true (Bool.and_eq_true_iff.1 hcovers).1
    rw [← UInt64.toNat_sub_of_le _ _ hfirst, bytesAt?, Option.ite_none_right_eq_some] at hslice
    exact ⟨hcommand, hfirst, source, bytes, hsource, hslice.1, (Option.some.inj hslice.2).symm,
      length_of_servedFrom? hfound, rfl⟩

/-- Whatever the sizes of an access and of a packet and the numbers of their bytes are, nothing goes
wrong when they meet. -/
theorem meeting_snoop (access held : Packet) : access.Meeting held (access.snoop held) where
  in_words := exists_snoopInWords access held
  served := slice_of_served
  unserved := access_snoop
  untouched := held_snoop_of_read
  passes := not_served_of_isWrite
  replaced hwrite hpatches := by
    obtain ⟨bytes, hbytes⟩ := hpatches.exists_overlaid?
    rw [snoop_of_isWrite hwrite, hbytes]
    exact replaced_of_overlaid? hbytes
  kept hwrite hpatches := by
    have hnone : access.overlaid? held = none :=
      Option.not_isSome_iff_eq_none.1 fun hsome => hpatches (patches_iff.2 hsome)
    rw [snoop_of_isWrite hwrite, hnone]
    rfl
  length := (access.overwritten_snoop held).length

/-- A write of the given bytes, whatever its size says, from the last address but two on. -/
def endlessWrite (bytes : List UInt8) : Packet :=
  { write 1 0xfffffffffffffffd bytes 0 with size := 0xffffffffffffffff }

/-- A read from the last address but one on. -/
def topRead (size : UInt64) : Packet := read 2 0xfffffffffffffffe size 0

/-- A writeback with fewer bytes than its size says, from the last address but one on. -/
def shortWriteback : Packet := { writeback 3 0xfffffffffffffffe [1, 2] 0 with size := 8 }

/-- At the last addresses a read of two bytes is served, and one whose bytes end behind the largest word
is not. A writeback is laid over a write that has all three bytes up to the last address, and not over
one of two bytes. -/
theorem meeting_topPackets :
    (topRead 0xffffffffffffffff).Storable ∧ (endlessWrite [7, 8, 9]).Storable ∧
      (endlessWrite [7, 8, 9]).footprint.covers (topRead 0xffffffffffffffff).footprint = true ∧
      (topRead 0xffffffffffffffff).snoopInWords (endlessWrite [7, 8, 9]) =
        .ok ⟨topRead 0xffffffffffffffff, endlessWrite [7, 8, 9], false⟩ ∧
      ((topRead 2).snoop (endlessWrite [7, 8, 9])).served = true ∧
      ((topRead 2).snoop (endlessWrite [7, 8, 9])).access = { topRead 2 with data := some [8, 9] } ∧
      shortWriteback.Patches (endlessWrite [7, 8, 9]) ∧
      shortWriteback.Replaced (endlessWrite [7, 8, 9])
        { endlessWrite [7, 8, 9] with data := some [7, 1, 2] } ∧
      ¬ shortWriteback.Patches (endlessWrite [7, 8]) ∧
      (shortWriteback.snoop (endlessWrite [7, 8])).held = endlessWrite [7, 8] := by
  have hread : (topRead 0xffffffffffffffff).Storable := nofun
  have hheld : (endlessWrite [7, 8, 9]).Storable := by
    rintro bytes ⟨⟩
    decide
  have hserved : ((topRead 2).snoop (endlessWrite [7, 8, 9])).served = true := by decide
  have hpatches : shortWriteback.Patches (endlessWrite [7, 8, 9]) := by decide
  have hshort : ¬ shortWriteback.Patches (endlessWrite [7, 8]) := by decide
  obtain ⟨byWords, hwords, hsame⟩ :=
    (meeting_snoop (topRead 0xffffffffffffffff) (endlessWrite [7, 8, 9])).in_words
  rw [hsame hread hheld] at hwords
  obtain ⟨-, -, source, bytes, hsource, -, rfl, -, haccess⟩ :=
    (meeting_snoop (topRead 2) (endlessWrite [7, 8, 9])).served hserved
  cases hsource
  exact ⟨hread, hheld, by decide, hwords, hserved, haccess, hpatches,
    (meeting_snoop shortWriteback (endlessWrite [7, 8, 9])).replaced rfl hpatches, hshort,
    (meeting_snoop shortWriteback (endlessWrite [7, 8])).kept rfl hshort⟩

end Packet

end TimedBridge
