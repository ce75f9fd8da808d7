import TimedBridge.Proofs.Bridge.Tagging

/-!
Word-delay hints. A packet's hints are charged for a crossing when it is let in and at no other time, so
whatever was refused before or is refused after that, each packet that has crossed carries the hints of
one crossing (`ChargedOnce`). Charges add up below the last tick and stop there, so the charges of the two
crossings of a round trip are one charge for both (`charged_charged`).
-/

namespace TimedBridge

/-! ### Charging a hint -/

namespace Hints

/-- What a crossing that takes `delay` ticks, however many, makes of a hint. -/
def charged (h : Hints) (delay hint : Nat) : Nat :=
  match h with
  | .zero => 0
  | .preserve => hint
  | .accumulate => min (hint + delay) 0xffffffffffffffff

/-- Two charges are one for the delays of both. -/
theorem charged_charged (h : Hints) (delay more hint : Nat) :
    h.charged more (h.charged delay hint) = h.charged (delay + more) hint := by
  cases h with
  | zero => rfl
  | preserve => rfl
  | accumulate =>
    simp only [charged]
    omega

/-- A delay that has been cut down to the last tick charges as much as the whole one. -/
theorem charged_min (h : Hints) (delay hint : Nat) :
    h.charged (min delay 0xffffffffffffffff) hint = h.charged delay hint := by
  cases h with
  | zero => rfl
  | preserve => rfl
  | accumulate =>
    simp only [charged]
    omega

end Hints

namespace Packet

/-- The packet `q` carries the hints of `p`. -/
structure SameHints (p q : Packet) : Prop where
  first : q.firstWordDelay = p.firstWordDelay
  last : q.lastWordDelay = p.lastWordDelay

/-- The hints of `q` are those of `p`, charged for a crossing that takes `delay` ticks. -/
structure Charged (h : Hints) (delay : Nat) (p q : Packet) : Prop where
  first : q.firstWordDelay.toNat = h.charged delay p.firstWordDelay.toNat
  last : q.lastWordDelay.toNat = h.charged delay p.lastWordDelay.toNat

variable {h : Hints} {delay more : Nat} {p q r : Packet}

theorem charged_charge (h : Hints) (delay : Tick) (p : Packet) :
    p.Charged h delay.toNat (h.charge delay p) := by
  cases h with
  | zero => exact ⟨rfl, rfl⟩
  | preserve => exact ⟨rfl, rfl⟩
  | accumulate => exact ⟨toNat_cappedAdd .., toNat_cappedAdd ..⟩

theorem Charged.trans_same (hpq : p.Charged h delay q) (hqr : q.SameHints r) :
    p.Charged h delay r :=
  ⟨hqr.first ▸ hpq.first, hqr.last ▸ hpq.last⟩

theorem Charged.trans (hpq : p.Charged h delay q) (hqr : q.Charged h more r) :
    p.Charged h (delay + more) r := by
  refine ⟨?_, ?_⟩
  · rw [hqr.first, hpq.first, Hints.charged_charged]
  · rw [hqr.last, hpq.last, Hints.charged_charged]

theorem Charged.of_min (hpq : p.Charged h (min delay 0xffffffffffffffff) q) : p.Charged h delay q := by
  refine ⟨?_, ?_⟩
  · rw [hpq.first, Hints.charged_min]
  · rw [hpq.last, Hints.charged_min]

/-- A functional write leaves the hints alone. -/
theorem Overwritten.sameHints {writes : List Packet} (hover : Overwritten writes p q) :
    p.SameHints q := by
  rw [hover.rest]
  exact ⟨rfl, rfl⟩

end Packet

/-! ### Charged where it joins -/

namespace BridgeConfig

/-- How many ticks a packet takes to cross in a direction, however many. -/
def crossingTime (c : BridgeConfig) (d : Direction) : Nat := (c.delay d).toNat * c.clockPeriod.toNat

/-- What a bridge of accepted settings charges for a crossing. -/
theorem charged_crossing {c : BridgeConfig} (valid : c.validate = .ok ()) (d : Direction) (p : Packet) :
    p.Charged c.timingHints (c.crossingTime d) ((c.settings.crossing d).charge p) := by
  have htime : (c.clock.ticks (c.delay d)).toNat = min (c.crossingTime d) 0xffffffffffffffff := by
    rw [Clock.ticks, toNat_cappedMul, period_clock valid, crossingTime]
  have hcharge := Packet.charged_charge c.timingHints (c.clock.ticks (c.delay d)) p
  rw [htime] at hcharge
  exact hcharge.of_min

end BridgeConfig

namespace Bridge

variable {υ δ : Type} (b : Bridge υ δ)

/-- A packet joins the queue of a direction with the hints of one crossing. -/
theorem sameHints_relabel (d : Direction) (p : Packet) :
    ((b.settings.crossing d).charge p).SameHints (b.relabel d p) := by
  cases d with
  | request =>
    change (b.front.crossing.charge p).SameHints (b.front.crossing.charge (b.tagged p))
    unfold Crossing.charge Hints.charge
    split <;> exact ⟨rfl, rfl⟩
  | response => exact ⟨rfl, rfl⟩

variable [Initiator υ] [Target δ]

theorem charged_joiners {c : BridgeConfig} (valid : c.validate = .ok ()) (d : Direction)
    {b : Bridge υ δ} (hsettings : b.settings = c.settings) (run : List (Tick × Operation υ δ)) :
    List.Forall₂ (fun e joined : Entrant =>
        e.packet.Charged c.timingHints (c.crossingTime d) joined.packet)
      (Turn.entrants d (b.record run)) (b.joiners d run) := by
  induction run generalizing b with
  | nil => exact .nil
  | cons call rest ih =>
    obtain ⟨now, operation⟩ := call
    rw [record, Turn.entrants, joiners, entering, List.map_map]
    refine List.rel_append ?_ (ih ((b.settings_perform now operation).trans hsettings))
    rw [List.forall₂_map_left_iff, List.forall₂_map_right_iff]
    refine List.forall₂_same.2 fun p _ => ?_
    have hsame := b.sameHints_relabel d p
    rw [hsettings] at hsame
    exact (BridgeConfig.charged_crossing valid d p).trans_same hsame

/-! ### Charged once -/

omit [Initiator υ] [Target δ] in
/-- The packets that a run lets in for a direction, each with what has become of it: the earliest have
departed and the others wait. -/
def crossings (b : Bridge υ δ) (log : List (Turn υ δ)) (d : Direction) : List (Entrant × Packet) :=
  (Turn.entrants d log).zip (Turn.departures d log ++ (b.queue d).packets)

/-- How a run with the given record charges for crossings. What is said of the packet that was let in
holds of each that was submitted and came back as it any number of times. -/
structure ChargedOnce (b : Bridge υ δ) (c : BridgeConfig) (log : List (Turn υ δ)) : Prop where
  /-- Each packet that has departed or waits crosses once and is charged once. -/
  once : ∀ d, List.Forall₂ (fun e q => e.Crossed d q ∧ ∀ p, Turn.Returned log p e.packet →
      p.Charged c.timingHints (c.crossingTime d) q)
    (Turn.entrants d log) (Turn.departures d log ++ (b.queue d).packets)
  /-- A response that has the hints of a request that crossed comes back charged for both crossings. -/
  roundTrip : ∀ request ∈ b.crossings log .request, ∀ response ∈ b.crossings log .response,
    request.2.SameHints response.1.packet → ∀ p, Turn.Returned log p request.1.packet →
      p.Charged c.timingHints ((c.requestDelay.toNat + c.responseDelay.toNat) * c.clockPeriod.toNat)
        response.2

/-- In every run of a bridge of accepted settings, between agents that hand back unchanged what they
refuse, the hints of a packet are charged once for each crossing. -/
theorem exists_chargedOnce {c : BridgeConfig} (name : String) (valid : c.validate = .ok ())
    (hkeeps : ∀ d, KeepsRefused υ δ d) :
    ∃ b : Bridge υ δ, ofConfig name c = .ok b ∧
      ∀ run, (b.after run).ChargedOnce c (b.record run) := by
  obtain ⟨b, hb, hfresh⟩ := exists_ofConfig name valid
  refine ⟨b, hb, fun run => ?_⟩
  have honce : ∀ d, List.Forall₂ (fun e q => e.Crossed d q ∧
        ∀ p, Turn.Returned (b.record run) p e.packet →
          p.Charged c.timingHints (c.crossingTime d) q)
      (Turn.entrants d (b.record run))
      (Turn.departures d (b.record run) ++ ((b.after run).queue d).packets) := by
    intro d
    have hkept := kept_after hfresh.aligned (hkeeps d) run
    rw [hfresh.packets_eq d] at hkept
    have hjoined := List.Forall₂.mp (fun _ _ => And.intro) (b.relabelled_joiners d run)
      (charged_joiners valid d (settings_of_ofConfig hb) run)
    refine forall₂_chain (fun e joined q hjoin hq => ⟨?_, fun p hreturned => ?_⟩) hjoined hkept
    · exact ⟨joined.packet, hjoin.1.1, hjoin.1.2 ▸ hq⟩
    · obtain rfl := eq_of_returned hreturned
      exact hjoin.2.trans_same hq.sameHints
  refine ⟨honce, fun request hrequest response hresponse hsame p hreturned => ?_⟩
  obtain ⟨-, hout⟩ := (List.forall₂_iff_zip.1 (honce .request)).2 hrequest
  obtain ⟨-, hback⟩ := (List.forall₂_iff_zip.1 (honce .response)).2 hresponse
  rw [Nat.add_mul]
  exact ((hout p hreturned).trans_same hsame).trans (hback _ .first)

/-- Settings with room for one request, and crossings that take 30 and 20 ticks. -/
def tolled : BridgeConfig :=
  { requestDelay := 3, responseDelay := 2, requestCapacity := 1, clockPeriod := 10 }

/-- A read with hints, one of them close to the last tick. -/
def hintedRead : Packet :=
  { Packet.read 2 0 4 0 with firstWordDelay := 5, lastWordDelay := 0xffffffffffffffd7 }

/-- The read with hints is refused while another one waits, and submitted again; the memory refuses it
once; and its answer crosses back. -/
def tolledRead : List (Tick × Operation Generator Memory) :=
  [(0, .bindInitiator {}), (0, .bindTarget balkingMemory), (0, .submit (.read 1 0 4 0)),
    (0, .submit hintedRead), (30, .attempt .request), (30, .submit hintedRead),
    (60, .attempt .request), (70, .retry .request),
    (80, .respond { hintedRead.respond with firstWordDelay := 35, lastWordDelay := 0xfffffffffffffff5 }),
    (100, .attempt .response)]

theorem chargedOnce_tolledRead :
    ∃ b : Bridge Generator Memory, ofConfig "tolled" tolled = .ok b ∧
      (b.after tolledRead).ChargedOnce tolled (b.record tolledRead) ∧
      Turn.Returned (b.record tolledRead) hintedRead hintedRead ∧
      (Turn.departures .request (b.record tolledRead)).map
          (fun p => (p.firstWordDelay, p.lastWordDelay)) =
        [(30, 30), (35, 0xfffffffffffffff5)] ∧
      (Turn.departures .response (b.record tolledRead)).map
          (fun p => (p.firstWordDelay, p.lastWordDelay)) =
        [(55, 0xffffffffffffffff)] := by
  have valid : tolled.validate = .ok () := rfl
  obtain ⟨b, hb, hcharged⟩ := exists_chargedOnce "tolled" valid keepsRefused_generator_memory
  refine ⟨b, hb, hcharged tolledRead, ?_⟩
  obtain rfl := Except.ok.inj hb
  exact ⟨.again .first (List.mem_of_getElem? (i := 3) rfl) rfl rfl, rfl, rfl⟩

end Bridge

end TimedBridge
