import TimedBridge.Proofs.Packet.Overlay

/-!
A functional access by arithmetic on words. A difference of words must not be below zero, a sum not above
the largest word, a slice not outside its list, and bytes are copied onto as many bytes: each operation
here fails where it would break its rule. The sizes of the two packets and the numbers of their bytes need
not agree, and nothing fails all the same (`exists_snoopInWords`). Where footprints cover each other or
meet, no difference of their ends is below zero; a sum or a slice is asked for before it is taken. As long
as a word can count the bytes of each packet, the result is that of `snoop`, which counts without bound.
-/

namespace TimedBridge

/-- How an operation on words or on slices can fail. -/
inductive WordFault where
  | underflow
  | overflow
  | outOfBounds
  /-- Bytes are copied onto more or fewer bytes. -/
  | unequalLengths
  deriving DecidableEq, Repr

/-- A step that does not fail hands on what it has found. -/
@[simp] theorem WordFault.ok_bind {α β : Type} (a : α) (next : α → Except WordFault β) :
    (Except.ok a >>= next) = next a :=
  rfl

/-! ### Operations that can fail -/

/-- The difference, which must not be below zero. -/
def exactSub (a b : UInt64) : Except WordFault UInt64 :=
  if b ≤ a then .ok (a - b) else .error .underflow

/-- The sum, which must not be above the largest word. -/
def exactAdd (a b : UInt64) : Except WordFault UInt64 :=
  if a.toNat + b.toNat < UInt64.size then .ok (a + b) else .error .overflow

/-- The bytes from position `first` on and before position `stop`, which must be in the list. -/
def slice (bytes : List UInt8) (first stop : UInt64) : Except WordFault (List UInt8) :=
  if first ≤ stop ∧ stop.toNat ≤ bytes.length then
    .ok ((bytes.drop first.toNat).take (stop.toNat - first.toNat))
  else .error .outOfBounds

/-- The list with `patch` written over the slice from `first` to `stop`, which must be as long. -/
def copyOver (bytes : List UInt8) (first stop : UInt64) (patch : List UInt8) :
    Except WordFault (List UInt8) := do
  let slot ← slice bytes first stop
  if patch.length = slot.length then .ok (overlayAt bytes first.toNat patch)
  else .error .unequalLengths

/-! ### Operations that ask first -/

/-- The sum, if it is a word. -/
def checkedAdd (a b : UInt64) : Except WordFault (Option UInt64) :=
  if a.toNat + b.toNat < UInt64.size then some <$> exactAdd a b else .ok none

/-- Where the slice of `count` bytes from position `first` on stops, if the list has that slice. -/
def stopOf (bytes : List UInt8) (first count : UInt64) : Except WordFault (Option UInt64) := do
  match ← checkedAdd first count with
  | none => return none
  | some stop => return if first ≤ stop ∧ stop.toNat ≤ bytes.length then some stop else none

/-- The slice of `count` bytes from position `first` on, if the list has it. -/
def cutOut (bytes : List UInt8) (first count : UInt64) : Except WordFault (Option (List UInt8)) := do
  match ← stopOf bytes first count with
  | none => return none
  | some stop => some <$> slice bytes first stop

/-- The list `bytes` with `count` bytes of `source`, from position `origin` on, copied over those from
`position` on, if both lists have as many. -/
def copyAcross (source bytes : List UInt8) (origin position count : UInt64) :
    Except WordFault (Option (List UInt8)) := do
  match ← cutOut source origin count, ← stopOf bytes position count with
  | some patch, some stop => some <$> copyOver bytes position stop patch
  | _, _ => return none

/-- The addresses that an access of `size` bytes at `address` touches. -/
def AddressRange.ofSpanInWords (address : Address) (size : UInt64) :
    Except WordFault AddressRange := do
  let last ← if size = 0 then .ok 0 else exactSub size 1
  return ⟨address, cappedAdd address last⟩

section Operations

variable {a b first count : UInt64} {bytes patch : List UInt8}

theorem exactSub_of_le (h : b ≤ a) : exactSub a b = .ok (a - b) := if_pos h

theorem checkedAdd_eq (a b : UInt64) :
    checkedAdd a b = .ok (if a.toNat + b.toNat < UInt64.size then some (a + b) else none) := by
  rw [checkedAdd]
  split
  next hfits => rw [exactAdd, if_pos hfits]; rfl
  next => rfl

theorem le_add_of_lt (h : a.toNat + b.toNat < UInt64.size) : a ≤ a + b := by
  rw [UInt64.le_iff_toNat_le, toNat_add_of_lt h]
  exact Nat.le_add_right ..

theorem stopOf_eq (bytes : List UInt8) (first count : UInt64) :
    stopOf bytes first count =
      .ok (if first.toNat + count.toNat < UInt64.size ∧ first.toNat + count.toNat ≤ bytes.length then
        some (first + count) else none) := by
  rw [stopOf, checkedAdd_eq, WordFault.ok_bind]
  by_cases hfits : first.toNat + count.toNat < UInt64.size
  · simp only [hfits, le_add_of_lt hfits, toNat_add_of_lt hfits, if_true, true_and]
    rfl
  · simp only [hfits, if_false, false_and]
    rfl

/-- A slice that ends at a sum of words is in the list if the list reaches that far. -/
theorem slice_add (hfits : first.toNat + count.toNat < UInt64.size)
    (hstop : first.toNat + count.toNat ≤ bytes.length) :
    slice bytes first (first + count) = .ok ((bytes.drop first.toNat).take count.toNat) := by
  rw [slice, toNat_add_of_lt hfits, if_pos ⟨le_add_of_lt hfits, hstop⟩, Nat.add_sub_cancel_left]

theorem cutOut_eq (bytes : List UInt8) (first count : UInt64) :
    cutOut bytes first count =
      .ok (if first.toNat + count.toNat < UInt64.size then bytesAt? bytes first.toNat count.toNat
        else none) := by
  rw [cutOut, stopOf_eq, WordFault.ok_bind, bytesAt?]
  by_cases hfits : first.toNat + count.toNat < UInt64.size
  · by_cases hstop : first.toNat + count.toNat ≤ bytes.length
    · rw [if_pos ⟨hfits, hstop⟩, if_pos hfits, if_pos hstop]
      dsimp only
      rw [slice_add hfits hstop]
      rfl
    · rw [if_neg fun h => hstop h.2, if_pos hfits, if_neg hstop]
      rfl
  · rw [if_neg fun h => hfits h.1, if_neg hfits]
    rfl

theorem copyOver_add (hfits : first.toNat + count.toNat < UInt64.size)
    (hstop : first.toNat + count.toNat ≤ bytes.length) (hpatch : patch.length = count.toNat) :
    copyOver bytes first (first + count) patch = .ok (overlayAt bytes first.toNat patch) := by
  have hslot : ((bytes.drop first.toNat).take count.toNat).length = count.toNat := by
    rw [List.length_take, List.length_drop]
    omega
  rw [copyOver, slice_add hfits hstop]
  exact if_pos (hpatch.trans hslot.symm)

/-- What is cut out is as long as the place that it is copied to. -/
theorem copyAcross_eq (source bytes : List UInt8) (origin position count : UInt64) :
    copyAcross source bytes origin position count =
      .ok (if origin.toNat + count.toNat < UInt64.size ∧ position.toNat + count.toNat < UInt64.size ∧
          position.toNat + count.toNat ≤ bytes.length then
        (bytesAt? source origin.toNat count.toNat).map (overlayAt bytes position.toNat) else none) := by
  rw [copyAcross, cutOut_eq, stopOf_eq, WordFault.ok_bind, WordFault.ok_bind]
  by_cases horigin : origin.toNat + count.toNat < UInt64.size
  · by_cases hfits : position.toNat + count.toNat < UInt64.size ∧
        position.toNat + count.toNat ≤ bytes.length
    · rw [if_pos horigin, if_pos hfits, if_pos ⟨horigin, hfits⟩]
      cases hpatch : bytesAt? source origin.toNat count.toNat with
      | none => rfl
      | some patch =>
        dsimp only
        rw [copyOver_add hfits.1 hfits.2 (length_of_bytesAt? hpatch)]
        rfl
    · rw [if_pos horigin, if_neg hfits, if_neg fun h => hfits h.2]
      cases bytesAt? source origin.toNat count.toNat <;> rfl
  · have hnone : ¬ (origin.toNat + count.toNat < UInt64.size ∧
        position.toNat + count.toNat < UInt64.size ∧
        position.toNat + count.toNat ≤ bytes.length) := fun h => horigin h.1
    rw [if_neg horigin, if_neg hnone]
    rfl

theorem AddressRange.ofSpanInWords_eq (address : Address) (size : UInt64) :
    ofSpanInWords address size = .ok (ofSpan address size) := by
  rw [ofSpanInWords, ofSpan]
  split
  next => rfl
  next hsize =>
    have hpos : size.toNat ≠ 0 := fun h => hsize (UInt64.toNat_inj.1 h)
    have hone : 1 ≤ size := UInt64.le_iff_toNat_le.2 (Nat.pos_of_ne_zero hpos)
    rw [exactSub_of_le hone]
    rfl

/-- Where a word can count the bytes of a list, the positions in the list are words. -/
theorem bytesAt?_of_length_lt {source : List UInt8} {first count : Nat}
    (hlength : source.length < UInt64.size) :
    (if first + count < UInt64.size then bytesAt? source first count else none) =
      bytesAt? source first count := by
  split
  next => rfl
  next hpast => rw [bytesAt?, if_neg (by omega)]

/-- The same of two lists, of which one is written over the other. -/
theorem map_of_length_lt {source bytes : List UInt8} {origin position count : Nat}
    (hsource : source.length < UInt64.size) (hbytes : bytes.length < UInt64.size)
    (f : List UInt8 → List UInt8) :
    (if origin + count < UInt64.size ∧ position + count < UInt64.size ∧
        position + count ≤ bytes.length then (bytesAt? source origin count).map f else none) =
      if position + count ≤ bytes.length then (bytesAt? source origin count).map f else none := by
  rw [← bytesAt?_of_length_lt hsource]
  by_cases hstop : position + count ≤ bytes.length
  · by_cases horigin : origin + count < UInt64.size
    · rw [if_pos ⟨horigin, by omega, hstop⟩, if_pos hstop]
    · rw [if_neg fun h => horigin h.1, if_pos hstop, if_neg horigin]
      rfl
  · rw [if_neg fun h => hstop h.2.2, if_neg hstop]

end Operations

namespace Packet

/-! ### A functional access -/

/-- The addresses that the packet touches. -/
def footprintInWords (p : Packet) : Except WordFault AddressRange :=
  AddressRange.ofSpanInWords p.address p.size

/-- The bytes that the read `access` wants, if `held` carries all of them. -/
def servedInWords (access held : Packet) : Except WordFault (Option (List UInt8)) :=
  match held.command.hasData, held.data with
  | true, some source => do
    let wanted ← access.footprintInWords
    let theirs ← held.footprintInWords
    if theirs.covers wanted then
      let offset ← exactSub wanted.first held.address
      cutOut source offset access.size
    else return none
  | _, _ => return none

/-- The bytes `held` carries after the write `access` has been laid over them, if it changes them. -/
def overlaidInWords (access held : Packet) : Except WordFault (Option (List UInt8)) := do
  let mine ← access.footprintInWords
  let theirs ← held.footprintInWords
  if held.command.hasData && mine.meets theirs then
    let first := max mine.first theirs.first
    let last := min mine.last theirs.last
    let origin ← exactSub first access.address
    let position ← exactSub first held.address
    let span ← exactSub last first
    match ← checkedAdd span 1, access.data, held.data with
    | some count, some source, some bytes => copyAcross source bytes origin position count
    | _, _, _ => return none
  else return none

/-- Lets the functional access `access` look at the packet `held`. -/
def snoopInWords (access held : Packet) : Except WordFault Snooped :=
  match access.command with
  | .readRequest => do
    match ← access.servedInWords held with
    | some bytes => return ⟨{ access with data := some bytes }, held, true⟩
    | none => return ⟨access, held, false⟩
  | .writeRequest | .writeback => do
    match ← access.overlaidInWords held with
    | some bytes => return ⟨access, { held with data := some bytes }, false⟩
    | none => return ⟨access, held, false⟩
  | .readResponse | .writeResponse => return ⟨access, held, false⟩

/-- The bytes of the packet can be counted by a word. -/
def Storable (p : Packet) : Prop := ∀ bytes, p.data = some bytes → bytes.length < UInt64.size

variable (access held : Packet)

theorem footprintInWords_eq (p : Packet) : p.footprintInWords = .ok p.footprint :=
  AddressRange.ofSpanInWords_eq p.address p.size

/-- To look for a read's bytes never fails: a read that is covered begins no earlier than the packet that
covers it. -/
theorem exists_servedInWords : ∃ found, access.servedInWords held = .ok found ∧
    (held.Storable → found = access.servedFrom? held) := by
  rw [servedInWords, servedFrom?]
  cases hheld : held.command.hasData with
  | false => exact ⟨none, rfl, fun _ => rfl⟩
  | true =>
    cases hbytes : held.data with
    | none => exact ⟨none, rfl, fun _ => (ite_self _).symm⟩
    | some source =>
      dsimp only
      rw [footprintInWords_eq, footprintInWords_eq, WordFault.ok_bind, WordFault.ok_bind,
        Bool.true_and]
      by_cases hcovers : held.footprint.covers access.footprint = true
      · have hfirst : held.address ≤ access.footprint.first :=
          of_decide_eq_true (Bool.and_eq_true_iff.1 hcovers).1
        rw [if_pos hcovers, if_pos hcovers, exactSub_of_le hfirst, WordFault.ok_bind, cutOut_eq,
          UInt64.toNat_sub_of_le _ _ hfirst]
        refine ⟨_, rfl, fun hstorable => ?_⟩
        exact bytesAt?_of_length_lt (hstorable source hbytes)
      · rw [if_neg hcovers, if_neg hcovers]
        exact ⟨none, rfl, fun _ => rfl⟩

/-- Where two footprints meet, the first common address is in both, and the last does not come before. -/
theorem le_of_meets (h : access.footprint.meets held.footprint = true) :
    access.address ≤ max access.footprint.first held.footprint.first ∧
      held.address ≤ max access.footprint.first held.footprint.first ∧
      max access.footprint.first held.footprint.first ≤
        min access.footprint.last held.footprint.last := by
  rw [AddressRange.meets, Bool.and_eq_true_iff, decide_eq_true_iff, decide_eq_true_iff] at h
  have hmine := access.first_le_last_footprint
  have htheirs := held.first_le_last_footprint
  simp only [UInt64.le_iff_toNat_le, toNat_max, toNat_min] at h ⊢
  change access.address.toNat ≤ _ ∧ held.address.toNat ≤ _ at h
  change access.address.toNat ≤ max access.address.toNat held.address.toNat ∧
    held.address.toNat ≤ max access.address.toNat held.address.toNat ∧
    max access.address.toNat held.address.toNat ≤ _
  omega

/-- To lay a write over a packet never fails: where the two footprints meet, no difference of their ends is
below zero. -/
theorem exists_overlaidInWords : ∃ found, access.overlaidInWords held = .ok found ∧
    (access.Storable → held.Storable → found = access.overlaid? held) := by
  rw [overlaidInWords, overlaid?, footprintInWords_eq, footprintInWords_eq, WordFault.ok_bind,
    WordFault.ok_bind]
  dsimp only
  by_cases hmeets : (held.command.hasData && access.footprint.meets held.footprint) = true
  · obtain ⟨hmine, htheirs, hspan⟩ := le_of_meets access held (Bool.and_eq_true_iff.1 hmeets).2
    rw [if_pos hmeets, if_pos hmeets, ← toNat_max, ← toNat_min]
    obtain ⟨first, hfirst⟩ : ∃ w, max access.footprint.first held.footprint.first = w := ⟨_, rfl⟩
    obtain ⟨last, hlast⟩ : ∃ w, min access.footprint.last held.footprint.last = w := ⟨_, rfl⟩
    rw [hfirst] at hmine htheirs hspan
    rw [hlast] at hspan
    rw [hfirst, hlast, exactSub_of_le hmine, exactSub_of_le htheirs, exactSub_of_le hspan,
      WordFault.ok_bind, WordFault.ok_bind, WordFault.ok_bind, checkedAdd_eq, WordFault.ok_bind,
      ← UInt64.toNat_sub_of_le _ _ hmine, ← UInt64.toNat_sub_of_le _ _ htheirs,
      ← UInt64.toNat_sub_of_le _ _ hspan]
    by_cases hcount : (last - first).toNat + (1 : UInt64).toNat < UInt64.size
    · rw [if_pos hcount]
      rcases hsource : access.data with - | source
      · exact ⟨none, rfl, fun _ _ => rfl⟩
      rcases hbytes : held.data with - | bytes
      · exact ⟨none, rfl, fun _ _ => rfl⟩
      dsimp only
      rw [copyAcross_eq, toNat_add_of_lt hcount]
      refine ⟨_, rfl, ?_⟩
      intro haccess hheld
      exact map_of_length_lt (haccess source hsource) (hheld bytes hbytes) _
    · -- The two footprints are the whole address space, and no packet has a byte for each address.
      rw [if_neg hcount]
      refine ⟨none, rfl, ?_⟩
      intro _ hheld
      split
      next source bytes _ hbytes =>
        have hlength := hheld bytes hbytes
        have hpast : ¬ (first - held.address).toNat + ((last - first).toNat + 1) ≤ bytes.length := by
          change ¬ (last - first).toNat + 1 < UInt64.size at hcount
          omega
        rw [if_neg hpast]
      next => rfl
  · rw [if_neg hmeets, if_neg hmeets]
    exact ⟨none, rfl, fun _ _ => rfl⟩

/-- By arithmetic on words a functional access never fails, and makes the same of a packet. -/
theorem exists_snoopInWords : ∃ met, access.snoopInWords held = .ok met ∧
    (access.Storable → held.Storable → met = access.snoop held) := by
  obtain ⟨found, hfound, hserved⟩ := exists_servedInWords access held
  obtain ⟨patched, hpatched, hoverlaid⟩ := exists_overlaidInWords access held
  rw [snoopInWords, snoop]
  cases access.command with
  | readRequest =>
    dsimp only
    rw [hfound, WordFault.ok_bind]
    cases found with
    | none => exact ⟨_, rfl, fun _ hheld => by rw [← hserved hheld]⟩
    | some bytes => exact ⟨_, rfl, fun _ hheld => by rw [← hserved hheld]⟩
  | writeRequest | writeback =>
    dsimp only
    rw [hpatched, WordFault.ok_bind]
    cases patched with
    | none => exact ⟨_, rfl, fun haccess hheld => by rw [← hoverlaid haccess hheld]⟩
    | some bytes => exact ⟨_, rfl, fun haccess hheld => by rw [← hoverlaid haccess hheld]⟩
  | readResponse | writeResponse => exact ⟨_, rfl, fun _ _ => rfl⟩

end Packet

end TimedBridge
