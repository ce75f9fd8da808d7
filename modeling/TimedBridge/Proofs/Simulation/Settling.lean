import TimedBridge.Proofs.Simulation.Accesses
import TimedBridge.Proofs.Simulation.Moves

/-!
What becomes of a byte. The requests on their way settle the byte that an address will have once they
have been performed (`Cargo.settled`). Requests that go on leave it settled, and so does every access
that does not store there (`Cargo.Underway.settled_moves`). A functional write settles the bytes that it
stores, since it is performed and laid over the requests in the bridge, unless the last request to store
there is in service and is not reached (`Cargo.Underway.settles_moves`).
-/

namespace TimedBridge

namespace Cargo

variable {v v' : Cargo} {a : Address}

/-- The byte that an address will have when the requests on their way have been performed. -/
def settled (v : Cargo) (a : Address) : UInt8 :=
  Packet.byteAfter a (v.contents a) (v.inService ++ v.queued)

/-- The requests on their way and to come have bytes that fit. -/
structure Fits (v : Cargo) : Prop where
  pending : ∀ i ∈ v.pending, i.1.Fitting
  queued : ∀ p ∈ v.queued, p.Fitting
  inService : ∀ p ∈ v.inService, p.Fitting

/-- A request in service stores at the address, and none in the bridge does. -/
def Exposed (v : Cargo) (a : Address) : Prop :=
  (∃ p ∈ v.inService, p.storedAt? a ≠ none) ∧ ∀ q ∈ v.queued, q.storedAt? a = none

/-! ### Requests go on -/

theorem Carries.fits (h : v.Carries v') (hfits : v.Fits) : v'.Fits := by
  obtain ⟨hpending, hqueued, hservice⟩ := hfits
  cases h with
  | taken heq =>
    rw [heq, List.forall_mem_cons] at hqueued
    exact ⟨hpending, hqueued.2, List.forall_mem_append.2 ⟨hservice, by simpa using hqueued.1⟩⟩
  | performed heq =>
    rw [heq, List.forall_mem_cons] at hservice
    exact ⟨hpending, hqueued, hservice.2⟩

theorem Carries.pending_eq (h : v.Carries v') : v'.pending = v.pending := by
  cases h with
  | taken => rfl
  | performed => rfl

/-- A request that goes one stage on settles nothing anew. -/
theorem Carries.settled_eq (h : v.Carries v') (hfits : v.Fits) (a : Address) :
    v'.settled a = v.settled a := by
  cases h with
  | taken hqueued => simp only [settled, hqueued, List.append_assoc, List.singleton_append]
  | @performed p rest answers m hservice hcontents =>
    have hp : p.Fitting := hfits.inService p (by rw [hservice]; exact List.mem_cons_self)
    rw [settled, settled, hservice, List.cons_append, ← hcontents]
    dsimp only
    rw [m.byteAt_perform hp]
    rfl

/-! ### Accesses are issued -/

/-- An access that is issued is the next one, and leaves what is in service. -/
theorem Issues.exists_head (h : v.Issues v') :
    (∃ i, v.pending = i :: v'.pending) ∧ v'.ranges = v.ranges ∧ v'.inService = v.inService := by
  cases h with
  | dropped hpending => exact ⟨⟨_, hpending⟩, rfl, rfl⟩
  | queued hpending => exact ⟨⟨_, hpending⟩, rfl, rfl⟩
  | atomic hpending => exact ⟨⟨_, hpending⟩, rfl, rfl⟩
  | functionalRead hpending => exact ⟨⟨_, hpending⟩, rfl, rfl⟩
  | functionalWrite hpending => exact ⟨⟨_, hpending⟩, rfl, rfl⟩

theorem Issues.fits (h : v.Issues v') (hfits : v.Fits) : v'.Fits := by
  have hpending : ∀ i ∈ v'.pending, i.1.Fitting := by
    obtain ⟨⟨i, hi⟩, -⟩ := h.exists_head
    exact fun j hj => hfits.pending j (by rw [hi]; exact List.mem_cons_of_mem i hj)
  have hservice : ∀ p ∈ v'.inService, p.Fitting := by
    rw [h.exists_head.2.2]
    exact hfits.inService
  refine ⟨hpending, ?_, hservice⟩
  cases h with
  | dropped => exact hfits.queued
  | @queued p q rest hfirst hcovers hlabels =>
    have hp : p.Fitting := hfits.pending (p, .timing) (by rw [hfirst]; exact List.mem_cons_self)
    exact List.forall_mem_append.2 ⟨hfits.queued, by simpa using hlabels.fitting hp⟩
  | atomic => exact hfits.queued
  | functionalRead => exact hfits.queued
  | @functionalWrite p =>
    rw [List.forall_mem_map]
    exact fun q hq => (p.overwritten_snoop q).fitting (hfits.queued q hq)

/-- An access that does not store at an address settles nothing there. -/
theorem Issues.settled_eq (h : v.Issues v') (hfits : v.Fits)
    (hapart : ∀ i ∈ v.pending.head?, v.Covers i.1 → i.1.storedAt? a = none) :
    v'.settled a = v.settled a := by
  have hfirst {i : Packet × AccessMode} {rest : List (Packet × AccessMode)}
      (hpending : v.pending = i :: rest) (hcovers : v.Covers i.1) :
      i.1.Fitting ∧ i.1.storedAt? a = none :=
    ⟨hfits.pending i (by rw [hpending]; exact List.mem_cons_self),
      hapart i (by rw [hpending]; rfl) hcovers⟩
  cases h with
  | dropped => rfl
  | queued hpending hcovers hlabels =>
    rw [settled, settled, ← List.append_assoc, Packet.byteAfter_append, Packet.byteAfter,
      List.foldl_cons, hlabels.storedAt?_eq, (hfirst hpending hcovers).2]
    rfl
  | @atomic p rest m hpending hcovers hcontents =>
    obtain ⟨hp, hnone⟩ := hfirst hpending hcovers
    rw [settled, settled, ← hcontents]
    dsimp only
    rw [m.byteAt_perform hp, hnone]
    rfl
  | functionalRead => rfl
  | @functionalWrite p rest returning m hpending hcovers hwrite hcontents =>
    obtain ⟨hp, hnone⟩ := hfirst hpending hcovers
    have hoverlaid := Packet.byteAfter_snoop hwrite hp hfits.queued a
      (Packet.byteAfter a (v.contents a) v.inService)
    rw [hnone] at hoverlaid
    rw [settled, settled, Packet.byteAfter_append, Packet.byteAfter_append]
    dsimp only
    rw [m.byteAt_perform hp, hnone, hcontents]
    exact hoverlaid

/-- What is exposed after an access has been issued was so before. -/
theorem Issues.exposed (h : v.Issues v') (hfits : v.Fits) (hexposed : v'.Exposed a) : v.Exposed a := by
  obtain ⟨hservice, hqueued⟩ := hexposed
  rw [h.exists_head.2.2] at hservice
  refine ⟨hservice, fun q hq => ?_⟩
  cases h with
  | dropped => exact hqueued q hq
  | queued => exact hqueued q (List.mem_append_left _ hq)
  | atomic => exact hqueued q hq
  | functionalRead => exact hqueued q hq
  | @functionalWrite p rest returning m hpending hcovers hwrite =>
    have hp : p.Fitting := hfits.pending (p, .functional) (by rw [hpending]; exact List.mem_cons_self)
    have hnone := hqueued _ (List.mem_map_of_mem hq)
    rw [Packet.storedAt?_snoop hwrite hp.sized (hfits.queued q hq).sized] at hnone
    exact Option.map_eq_none_iff.1 hnone

/-- A functional write settles the bytes that it stores, unless they are exposed. -/
theorem Issues.settles (h : v.Issues v') (hfits : v.Fits) {p : Packet}
    (hnext : v.pending.head? = some (p, .functional)) (hcovers : v.Covers p) {byte : UInt8}
    (hstored : p.storedAt? a = some byte) (hexposed : ¬ v.Exposed a) : v'.settled a = byte := by
  have hwrite : p.isWrite = true := by
    by_contra hread
    rw [Packet.storedAt?, if_neg hread] at hstored
    contradiction
  have hp : p.Fitting := hfits.pending _ (List.mem_of_mem_head? hnext)
  have hfirst {i : Packet × AccessMode} {rest : List (Packet × AccessMode)}
      (hpending : v.pending = i :: rest) : i = (p, .functional) := by
    rw [hpending] at hnext
    exact Option.some.inj hnext
  cases h with
  | dropped hpending hdropped =>
    obtain ⟨rfl, -⟩ := Prod.mk.inj (hfirst hpending)
    exact absurd hcovers hdropped
  | queued hpending => exact absurd (Prod.mk.inj (hfirst hpending)).2 (by decide)
  | atomic hpending => exact absurd (Prod.mk.inj (hfirst hpending)).2 (by decide)
  | functionalRead hpending _ hread =>
    obtain ⟨rfl, -⟩ := Prod.mk.inj (hfirst hpending)
    simp [hwrite] at hread
  | @functionalWrite q rest returning m hpending _ _ hcontents =>
    obtain ⟨rfl, -⟩ := Prod.mk.inj (hfirst hpending)
    have hlaid (r : Packet) (hr : r ∈ v.queued) :
        (q.snoop r).held.storedAt? a = (r.storedAt? a).map fun _ => byte := by
      rw [Packet.storedAt?_snoop hwrite hp.sized (hfits.queued r hr).sized, hstored]
      rfl
    have hsame : ∀ r ∈ v.queued.map fun r => (q.snoop r).held,
        ∀ b, r.storedAt? a = some b → b = byte := by
      rw [List.forall_mem_map]
      intro r hr b hb
      rw [hlaid r hr, Option.map_eq_some_iff] at hb
      obtain ⟨-, -, rfl⟩ := hb
      rfl
    rw [settled]
    dsimp only
    by_cases hservice : ∃ r ∈ v.inService, r.storedAt? a ≠ none
    · -- Some request in the bridge stores at the address, and all of these store the write's byte.
      obtain ⟨r, hr, hsome⟩ : ∃ r ∈ v.queued, r.storedAt? a ≠ none := by
        by_contra hnone
        exact hexposed ⟨hservice, fun r hr => by_contra fun hsome => hnone ⟨r, hr, hsome⟩⟩
      rw [Packet.byteAfter_append]
      refine Packet.byteAfter_eq hsame (.inr ⟨_, List.mem_map_of_mem hr, ?_⟩)
      rw [hlaid r hr]
      simpa using hsome
    · refine Packet.byteAfter_eq (fun r hr b hb => ?_) (.inl ?_)
      · rcases List.mem_append.1 hr with hr | hr
        · exact absurd ⟨r, hr, by simp [hb]⟩ hservice
        · exact hsame r hr b hb
      · rw [m.byteAt_perform hp, hstored]
        rfl

/-! ### Accesses to come -/

variable {ranges : List AddressRange} {accesses later : List (TrafficItem × Nat)}

/-- The requests fit, and what is to come is the end of the given accesses. -/
structure Underway (ranges : List AddressRange) (accesses : List (TrafficItem × Nat)) (v : Cargo) :
    Prop where
  ranges : v.ranges = ranges
  fits : v.Fits
  pending : ∃ toCome, toCome <:+ accesses ∧ v.pending = toCome.map fun e => (numberedPacket e, e.1.mode)

theorem Underway.covers_iff (h : v.Underway ranges accesses) (e : TrafficItem × Nat) :
    v.Covers (numberedPacket e) ↔ e.1.covered ranges = true := by
  rw [Covers, covers_numberedPacket, h.ranges]

/-- Responses that go back are of no account here. -/
theorem Underway.of_returning {returning : List Packet}
    (h : Underway ranges accesses { v with returning }) : v.Underway ranges accesses :=
  ⟨h.ranges, ⟨h.fits.pending, h.fits.queued, h.fits.inService⟩, h.pending⟩

theorem Underway.carries (h : v.Underway ranges accesses) (hcarries : v.Carries v') :
    v'.Underway ranges accesses := by
  have hfits := hcarries.fits h.fits
  cases hcarries with
  | taken => exact ⟨h.ranges, hfits, h.pending⟩
  | performed => exact ⟨h.ranges, hfits, h.pending⟩

theorem Underway.issues (h : v.Underway ranges accesses) (hissues : v.Issues v') :
    v'.Underway ranges accesses := by
  obtain ⟨⟨i, hhead⟩, hranges, -⟩ := hissues.exists_head
  obtain ⟨toCome, hsuffix, hpending⟩ := h.pending
  rw [hhead] at hpending
  obtain ⟨e, rest, rfl, -, hrest⟩ := List.map_eq_cons_iff.1 hpending.symm
  exact ⟨hranges.trans h.ranges, hissues.fits h.fits, rest,
    (List.suffix_cons e rest).trans hsuffix, hrest.symm⟩

theorem Underway.moves (h : v.Underway ranges accesses) (hmoves : v.Moves v') :
    v'.Underway ranges accesses := by
  refine hmoves.preserves ?_ ?_ h
  · intro u u' hcarries hu
    exact hu.carries hcarries
  · intro u u' hissues hu
    exact hu.issues hissues

/-- What is to come and the byte settled at an address where it does not store. -/
theorem Underway.settled_issues (h : v.Underway ranges later)
    (hlater : ∀ e ∈ later, e.1.covered ranges = true → ¬ e.1.Stores a) (hissues : v.Issues v') :
    v'.settled a = v.settled a := by
  refine hissues.settled_eq h.fits fun i hi hcovers => ?_
  obtain ⟨toCome, hsuffix, hpending⟩ := h.pending
  rw [hpending, List.head?_map] at hi
  obtain ⟨e, he, rfl⟩ := Option.map_eq_some_iff.1 hi
  have hmem : e ∈ later := hsuffix.subset (List.mem_of_mem_head? he)
  rw [numberedPacket, TrafficItem.storedAt?_packet]
  exact if_neg (hlater e hmem ((h.covers_iff e).1 hcovers))

/-- A byte that is settled stays settled, unless an access to come stores at its address. -/
theorem Underway.settled_moves (h : v.Underway ranges later)
    (hlater : ∀ e ∈ later, e.1.covered ranges = true → ¬ e.1.Stores a) (hmoves : v.Moves v') :
    v'.settled a = v.settled a := by
  have hkept : v'.Underway ranges later ∧ v'.settled a = v.settled a := by
    refine hmoves.preserves (P := fun u => u.Underway ranges later ∧ u.settled a = v.settled a)
      ?_ ?_ ⟨h, rfl⟩
    · rintro u u' hcarries ⟨hu, hsettled⟩
      exact ⟨hu.carries hcarries, (hcarries.settled_eq hu.fits a).trans hsettled⟩
    · rintro u u' hissues ⟨hu, hsettled⟩
      exact ⟨hu.issues hissues, (hu.settled_issues hlater hissues).trans hsettled⟩
  exact hkept.2

/-- When a functional write is issued, the bytes that it stores are settled, unless they are exposed
before. -/
theorem Underway.settles (h : v.Underway ranges accesses) {w : TrafficItem × Nat}
    (hsuffix : w :: later <:+ accesses) (hmode : w.1.mode = .functional)
    (hcovered : w.1.covered ranges = true) (hstores : w.1.Stores a)
    (hlater : ∀ e ∈ later, e.1.covered ranges = true → ¬ e.1.Stores a) (hexposed : ¬ v.Exposed a)
    (hbefore : later.length < v.pending.length) (hafter : v'.pending.length ≤ later.length)
    (hissues : Relation.ReflTransGen Issues v v') :
    v'.Underway ranges later ∧ v'.settled a = w.1.fill := by
  induction hissues using Relation.ReflTransGen.head_induction_on with
  | refl => omega
  | @head v u hissue hchain ih =>
    obtain ⟨⟨i, hhead⟩, hranges, -⟩ := hissue.exists_head
    by_cases hearly : later.length < u.pending.length
    · exact ih (h.issues hissue) (fun hu => hexposed (hissue.exposed h.fits hu)) hearly
    · -- The access that is issued here is the write, and the accesses after it are to come.
      obtain ⟨toCome, hcome, hpending⟩ := h.pending
      have hcount : toCome.length = u.pending.length + 1 := by
        rw [← List.length_cons, ← hhead, hpending, List.length_map]
      obtain rfl : toCome = w :: later := by
        refine (List.suffix_of_suffix_length_le hcome hsuffix ?_).eq_of_length ?_
        · rw [List.length_cons]
          omega
        · rw [hhead, List.length_cons] at hbefore
          rw [List.length_cons]
          omega
      have hrest : u.pending = later.map fun e => (numberedPacket e, e.1.mode) := by
        rw [hhead, List.map_cons] at hpending
        exact (List.cons.inj hpending).2
      have hu : u.Underway ranges later :=
        ⟨hranges.trans h.ranges, hissue.fits h.fits, later, List.suffix_rfl, hrest⟩
      have hsettled : u.settled a = w.1.fill := by
        refine hissue.settles h.fits ?_ ((h.covers_iff w).2 hcovered) ?_ hexposed
        · rw [hpending, List.map_cons, List.head?_cons, hmode]
        · rw [numberedPacket, TrafficItem.storedAt?_packet, if_pos hstores]
      exact ⟨hu.moves (.issues hchain), (hu.settled_moves hlater (.issues hchain)).trans hsettled⟩

theorem Underway.settles_moves (h : v.Underway ranges accesses) {w : TrafficItem × Nat}
    (hsuffix : w :: later <:+ accesses) (hmode : w.1.mode = .functional)
    (hcovered : w.1.covered ranges = true) (hstores : w.1.Stores a)
    (hlater : ∀ e ∈ later, e.1.covered ranges = true → ¬ e.1.Stores a) (hexposed : ¬ v.Exposed a)
    (hbefore : later.length < v.pending.length) (hafter : v'.pending.length ≤ later.length)
    (hmoves : v.Moves v') : v'.Underway ranges later ∧ v'.settled a = w.1.fill := by
  cases hmoves with
  | stays => omega
  | carries hcarries =>
    rw [hcarries.pending_eq] at hafter
    omega
  | issues hissues =>
    exact h.settles hsuffix hmode hcovered hstores hlater hexposed hbefore hafter hissues

end Cargo

end TimedBridge
