import TimedBridge.Packet.Snoop

/-!
What a functional access can do to a packet that is on its way. Only bytes change, none is added or
lost, and each byte that changes becomes the one that a functional write has for the same address
(`overwritten_snoop`): if the write is laid over the packet at all, it is at every address that the two
footprints have in common (`replaced_of_overlaid?`). A packet that meets several accesses is overwritten
by all of them (`Overwritten.trans`).
-/

namespace TimedBridge

/-! ### Bytes of an overlay -/

theorem getElem?_overlayAt {bytes patch : List UInt8} {start : Nat}
    (h : start + patch.length ≤ bytes.length) (i : Nat) :
    (overlayAt bytes start patch)[i]? =
      if start ≤ i ∧ i < start + patch.length then patch[i - start]? else bytes[i]? := by
  have hstart : (bytes.take start).length = start := by
    rw [List.length_take]
    omega
  rw [overlayAt, List.append_assoc]
  by_cases hbefore : i < start
  · rw [List.getElem?_append_left (by omega), List.getElem?_take_of_lt hbefore, if_neg (by omega)]
  · rw [List.getElem?_append_right (by omega), hstart]
    by_cases hinside : i < start + patch.length
    · rw [List.getElem?_append_left (by omega), if_pos ⟨by omega, hinside⟩]
    · rw [List.getElem?_append_right (by omega), List.getElem?_drop, if_neg (by omega)]
      congr 1
      omega

theorem getElem?_of_bytesAt? {bytes found : List UInt8} {start count : Nat}
    (h : bytesAt? bytes start count = some found) {i : Nat} (hi : i < count) :
    found[i]? = bytes[start + i]? := by
  rw [bytesAt?, Option.ite_none_right_eq_some] at h
  obtain ⟨-, heq⟩ := h
  rw [← Option.some.inj heq, List.getElem?_take_of_lt hi, List.getElem?_drop]

namespace Packet

/-- The byte that a packet carries for an address. -/
def byteFor? (p : Packet) (a : Nat) : Option UInt8 :=
  if p.address.toNat ≤ a then p.data.bind fun bytes => bytes[a - p.address.toNat]? else none

/-- Whether the packet asks for bytes to be stored. -/
def isWrite (p : Packet) : Bool := p.command = .writeRequest || p.command = .writeback

/-- The packet `p'` is `p` after some of the `writes` have met it: nothing but bytes has changed,
there are as many of them, and one that has changed is that of a write which touches its address. -/
structure Overwritten (writes : List Packet) (p p' : Packet) : Prop where
  rest : p' = { p with data := p'.data }
  length : p'.data.map List.length = p.data.map List.length
  byte : ∀ a, p'.byteFor? a = p.byteFor? a ∨
    ∃ w ∈ writes, w.footprint.first.toNat ≤ a ∧ a ≤ w.footprint.last.toNat ∧
      p'.byteFor? a = w.byteFor? a

variable {writes more : List Packet} {p p' p'' : Packet}

theorem Overwritten.refl (writes : List Packet) (p : Packet) : Overwritten writes p p :=
  ⟨rfl, rfl, fun _ => .inl rfl⟩

theorem Overwritten.mono (h : Overwritten writes p p') (hsub : writes ⊆ more) :
    Overwritten more p p' := by
  refine ⟨h.rest, h.length, fun a => (h.byte a).imp_right ?_⟩
  rintro ⟨w, hw, hbyte⟩
  exact ⟨w, hsub hw, hbyte⟩

theorem Overwritten.trans (h : Overwritten writes p p') (h' : Overwritten more p' p'') :
    Overwritten (writes ++ more) p p'' := by
  refine ⟨?_, h'.length.trans h.length, fun a => ?_⟩
  · rw [h'.rest, h.rest]
  · rcases h'.byte a with hsame | ⟨w, hw, hbyte⟩
    · rw [hsame]
      exact ((h.mono (List.subset_append_left writes more)).byte a)
    · exact .inr ⟨w, List.mem_append_right writes hw, hbyte⟩

/-! ### A meeting -/

/-- A footprint is not empty. -/
theorem first_le_last_footprint (p : Packet) :
    p.address.toNat ≤ p.footprint.last.toNat := by
  rw [footprint, AddressRange.ofSpan, toNat_cappedAdd]
  have := p.address.toNat_lt
  omega

/-- The address lies in both footprints. -/
def Common (access held : Packet) (a : Nat) : Prop :=
  (access.footprint.first.toNat ≤ a ∧ a ≤ access.footprint.last.toNat) ∧
    held.footprint.first.toNat ≤ a ∧ a ≤ held.footprint.last.toNat

/-- The packet `held'` is `held` with the bytes of `access` wherever the footprints have an address in
common, and nowhere else. -/
structure Replaced (access held held' : Packet) : Prop where
  rest : held' = { held with data := held'.data }
  length : held'.data.map List.length = held.data.map List.length
  inside : ∀ a, access.Common held a →
    ∃ byte, access.byteFor? a = some byte ∧ held'.byteFor? a = some byte
  outside : ∀ a, ¬ access.Common held a → held'.byteFor? a = held.byteFor? a

section Laid

variable {access held held' : Packet} {bytes : List UInt8}

theorem common_iff {a : Nat} :
    access.Common held a ↔ max access.address.toNat held.address.toNat ≤ a ∧
      a ≤ min access.footprint.last.toNat held.footprint.last.toNat := by
  change (access.address.toNat ≤ a ∧ _) ∧ held.address.toNat ≤ a ∧ _ ↔ _
  omega

theorem byteFor?_of_data {p : Packet} {bytes : List UInt8} (h : p.data = some bytes) (a : Nat) :
    p.byteFor? a = if p.address.toNat ≤ a then bytes[a - p.address.toNat]? else none := by
  rw [byteFor?, h]
  rfl

theorem isSome_byteFor? (h : held.data = some bytes) {a : Nat} :
    (held.byteFor? a).isSome = true ↔
      held.address.toNat ≤ a ∧ a - held.address.toNat < bytes.length := by
  rw [byteFor?_of_data h]
  split
  next hbegins => simp [hbegins]
  next hbegins => simp [hbegins]

/-- A write is laid over a packet from the first address that both touch to the last, by bytes that
both of them have. -/
theorem exists_of_overlaid? (h : access.overlaid? held = some bytes) :
    ∃ source old first last patch, access.data = some source ∧ held.data = some old ∧
      held.command.hasData = true ∧ max access.address.toNat held.address.toNat = first ∧
      min access.footprint.last.toNat held.footprint.last.toNat = last ∧ first ≤ last ∧
      first - access.address.toNat + (last - first + 1) ≤ source.length ∧
      first - held.address.toNat + (last - first + 1) ≤ old.length ∧
      bytesAt? source (first - access.address.toNat) (last - first + 1) = some patch ∧
      bytes = overlayAt old (first - held.address.toNat) patch := by
  rw [overlaid?] at h
  dsimp only at h
  split at h
  case isFalse => contradiction
  case isTrue hmeets =>
  split at h
  case h_2 => contradiction
  case h_1 source old hsource hold =>
  split at h
  case isFalse => contradiction
  case isTrue hfits =>
  obtain ⟨hdata, hmeet⟩ := Bool.and_eq_true_iff.1 hmeets
  rw [AddressRange.meets, Bool.and_eq_true_iff, decide_eq_true_iff, decide_eq_true_iff,
    UInt64.le_iff_toNat_le, UInt64.le_iff_toNat_le] at hmeet
  obtain ⟨patch, hpatch, hbytes⟩ := Option.map_eq_some_iff.1 h
  obtain ⟨first, hfirst⟩ :
      ∃ n, max access.footprint.first.toNat held.footprint.first.toNat = n := ⟨_, rfl⟩
  obtain ⟨last, hlast⟩ :
      ∃ n, min access.footprint.last.toNat held.footprint.last.toNat = n := ⟨_, rfl⟩
  rw [hfirst, hlast] at hpatch hfits
  rw [hfirst] at hbytes
  have hspan : first ≤ last := by
    rw [← hfirst, ← hlast, Nat.le_min, Nat.max_le, Nat.max_le]
    exact ⟨⟨access.first_le_last_footprint, hmeet.2⟩, hmeet.1, held.first_le_last_footprint⟩
  exact ⟨source, old, first, last, patch, hsource, hold, hdata, hfirst, hlast, hspan,
    (Option.ite_none_right_eq_some.1 hpatch).1, hfits, hpatch, hbytes.symm⟩

/-- A write that is laid over a packet covers all that the two have in common. -/
theorem replaced_of_overlaid? (h : access.overlaid? held = some bytes) :
    Replaced access held { held with data := some bytes } := by
  obtain ⟨source, old, first, last, patch, hsource, hold, -, hfirst, hlast, hspan, hmany, hfits,
    hpatch, rfl⟩ := exists_of_overlaid? h
  have hlength : patch.length = last - first + 1 := length_of_bytesAt? hpatch
  rw [← hlength] at hfits
  refine ⟨rfl, ?_, fun a ha => ?_, fun a ha => ?_⟩
  · rw [hold, Option.map_some, Option.map_some, length_overlayAt hfits]
  · rw [common_iff, hfirst, hlast] at ha
    have hcarried := (isSome_byteFor? hsource (a := a)).2 (by omega)
    obtain ⟨byte, hbyte⟩ := Option.isSome_iff_exists.1 hcarried
    refine ⟨byte, hbyte, ?_⟩
    rw [byteFor?_of_data hsource, if_pos (by omega)] at hbyte
    rw [byteFor?_of_data rfl, if_pos (by dsimp only; omega), getElem?_overlayAt hfits,
      if_pos (by dsimp only; omega), getElem?_of_bytesAt? hpatch (by dsimp only; omega), ← hbyte]
    dsimp only
    congr 1
    omega
  · rw [common_iff, hfirst, hlast] at ha
    rw [byteFor?_of_data rfl, byteFor?_of_data hold, getElem?_overlayAt hfits]
    dsimp only
    split
    next hbegins => rw [if_neg (by omega)]
    next => rfl

theorem Replaced.overwritten (h : Replaced access held held') :
    Overwritten [access] held held' := by
  refine ⟨h.rest, h.length, fun a => ?_⟩
  by_cases ha : access.Common held a
  · obtain ⟨byte, hmine, htheirs⟩ := h.inside a ha
    exact .inr ⟨access, List.mem_singleton_self access, ha.1.1, ha.1.2, htheirs.trans hmine.symm⟩
  · exact .inl (h.outside a ha)

/-- The bytes that a write lays over a packet are its own, each for the same address. -/
theorem overwritten_of_overlaid? (h : access.overlaid? held = some bytes) :
    Overwritten [access] held { held with data := some bytes } :=
  (replaced_of_overlaid? h).overwritten

end Laid

/-- The writes that a functional access makes: itself, or none. -/
def asWrite (access : Packet) : List Packet := if access.isWrite then [access] else []

/-- A functional access leaves the packet that it meets as it is, but for the bytes of a write. -/
theorem overwritten_snoop (access held : Packet) :
    Overwritten access.asWrite held (access.snoop held).held := by
  rw [snoop, asWrite, isWrite]
  cases access.command with
  | readRequest => cases access.servedFrom? held <;> exact .refl _ _
  | writeRequest =>
    cases hbytes : access.overlaid? held with
    | none => exact .refl _ _
    | some bytes => exact overwritten_of_overlaid? hbytes
  | writeback =>
    cases hbytes : access.overlaid? held with
    | none => exact .refl _ _
    | some bytes => exact overwritten_of_overlaid? hbytes
  | readResponse => exact .refl _ _
  | writeResponse => exact .refl _ _

/-- An access that is not served goes on as it came. -/
theorem access_snoop {access held : Packet} (h : (access.snoop held).served = false) :
    (access.snoop held).access = access := by
  revert h
  rw [snoop]
  cases access.command with
  | readRequest =>
    cases access.servedFrom? held with
    | none => exact fun _ => rfl
    | some bytes => exact fun h => nomatch h
  | writeRequest => cases access.overlaid? held <;> exact fun _ => rfl
  | writeback => cases access.overlaid? held <;> exact fun _ => rfl
  | readResponse => exact fun _ => rfl
  | writeResponse => exact fun _ => rfl

end Packet

end TimedBridge
