import TimedBridge.Proofs.Bridge.FunctionalRead
import TimedBridge.Proofs.Bridge.FunctionalWrite
import TimedBridge.Proofs.TransmitQueue.Passage

/-!
Accesses outside the queues that fail. One that has a tag already is turned away as it came. One that
finds no target comes back with the bridge's tag, so that it cannot be made again, and a functional write
has been laid over the packets that wait (`Bridge.Fails`). The access as it first came can be made again
once a target is bound, and nothing is left of the failure then (`failed_accesses`).
-/

namespace TimedBridge

/-! ### Laying a write over a packet twice -/

theorem overlayAt_overlayAt {bytes patch : List UInt8} {start : Nat}
    (h : start + patch.length ≤ bytes.length) :
    overlayAt (overlayAt bytes start patch) start patch = overlayAt bytes start patch := by
  refine List.ext_getElem? fun i => ?_
  rw [getElem?_overlayAt (by rwa [length_overlayAt h])]
  split
  next hinside => rw [getElem?_overlayAt h, if_pos hinside]
  next => rfl

namespace Packet

variable {access held : Packet}

/-- A write changes a packet that it has been laid over into itself. -/
theorem overlaid?_overlaid {bytes : List UInt8} (h : access.overlaid? held = some bytes) :
    access.overlaid? { held with data := some bytes } = some bytes := by
  rw [overlaid?] at h ⊢
  dsimp only at h
  split at h
  case isFalse => contradiction
  case isTrue hmeets =>
  split at h
  case h_2 => contradiction
  case h_1 source old hsource hold =>
  split at h
  case isFalse => contradiction
  case isTrue hfits =>
  obtain ⟨patch, hpatch, rfl⟩ := Option.map_eq_some_iff.1 h
  have hlength := length_of_bytesAt? hpatch
  have hwithin := hfits
  rw [← hlength] at hwithin
  refine (if_pos (by exact hmeets)).trans ?_
  rw [hsource]
  refine (if_pos (by rwa [length_overlayAt hwithin])).trans ?_
  exact (congrArg (Option.map _) hpatch).trans (congrArg some (overlayAt_overlayAt hwithin))

/-- What a functional access makes of a packet, it leaves so when it is made again. -/
theorem held_snoop_held (access held : Packet) :
    (access.snoop (access.snoop held).held).held = (access.snoop held).held := by
  cases hwrite : access.isWrite with
  | false => rw [held_snoop_of_read hwrite, held_snoop_of_read hwrite]
  | true =>
    rw [snoop_of_isWrite hwrite, snoop_of_isWrite hwrite]
    cases hbytes : access.overlaid? held with
    | none => simp [hbytes]
    | some bytes => simp [overlaid?_overlaid hbytes]

end Packet

/-! ### Queues that do not serve an access -/

namespace TransmitQueue

variable {q q' : TransmitQueue} {access left : Packet}

theorem snoopEntries_of_unserved {entries entries' : List Deferred}
    (h : snoopEntries access entries = (entries', left, false)) :
    entries' = entries.map fun e => { e with packet := (access.snoop e.packet).held } := by
  induction entries generalizing entries' left with
  | nil =>
    cases h
    rfl
  | cons e rest ih =>
    rw [snoopEntries] at h
    dsimp only at h
    split at h
    next => simp at h
    next hserved =>
      rw [Packet.access_snoop (Bool.not_eq_true _ ▸ hserved)] at h
      obtain ⟨rfl, hrest⟩ := Prod.mk.inj h
      exact congrArg (_ :: ·) (ih (Prod.ext rfl hrest))

/-- An access that is not served has met every packet of the queue, and goes on as it came. -/
theorem snoop_of_unserved (h : q.snoop access = (q', left, false)) :
    q' = q.overwrite access ∧ left = access := by
  refine ⟨?_, access_snoop h⟩
  obtain ⟨rfl, hrest⟩ := Prod.mk.inj h
  rw [overwrite, ← snoopEntries_of_unserved (Prod.ext rfl hrest)]

theorem overwrite_overwrite (q : TransmitQueue) (access : Packet) :
    (q.overwrite access).overwrite access = q.overwrite access := by
  have htwice (e : Deferred) : { e with packet :=
      (access.snoop (access.snoop e.packet).held).held } =
        { e with packet := (access.snoop e.packet).held } := by
    rw [Packet.held_snoop_held]
  rw [overwrite, overwrite, List.map_map]
  exact congrArg (fun entries => { q with entries }) (List.map_congr_left fun e _ => htwice e)

/-- Only a write changes packets. -/
theorem overwrite_of_read (h : access.isWrite = false) (q : TransmitQueue) : q.overwrite access = q := by
  have hsame (e : Deferred) : { e with packet := (access.snoop e.packet).held } = e := by
    rw [Packet.held_snoop_of_read h]
  rw [overwrite, List.map_congr_left fun e _ => hsame e, List.map_id']

/-- An access that was not served is not served when it is made again. -/
theorem snoop_overwrite (h : q.snoop access = (q', left, false)) :
    (q.overwrite access).snoop access = (q.overwrite access, access, false) := by
  cases hwrite : access.isWrite with
  | true => rw [snoop_of_isWrite hwrite, overwrite_overwrite]
  | false =>
    obtain ⟨rfl, rfl⟩ := snoop_of_unserved h
    rw [overwrite_of_read hwrite] at h ⊢
    exact h

end TransmitQueue

/-! ### Accesses that fail -/

namespace Bridge

variable {υ δ : Type} [Target δ] {b : Bridge υ δ} {p : Packet}

/-- The bridge with an access laid over the packets that wait. -/
def overlaid (b : Bridge υ δ) (p : Packet) : Bridge υ δ :=
  b.withQueues (b.front.responses.overwrite (b.tagged p)) (b.back.requests.overwrite (b.tagged p))

omit [Target δ] in
/-- Only a write changes what waits. -/
theorem overlaid_of_read (h : p.isWrite = false) : b.overlaid p = b := by
  have hread : (b.tagged p).isWrite = false := h
  rw [overlaid, TransmitQueue.overwrite_of_read hread, TransmitQueue.overwrite_of_read hread]
  rfl

/-- How a packet `p` fails that is given to the bridge `b` for an access outside the queues, and what is
left of the bridge and of the packet. A missing target is not found before the packet has its tag, and
has met what waits if `left` says so. -/
inductive Fails {α : Type} (access : Bridge υ δ → Packet → Access υ δ α) (b left : Bridge υ δ)
    (p : Packet) : BridgeFault → Bridge υ δ × Packet → Prop
  | alreadyTagged {existing : TrafficTag} (htag : p.tag = some existing) :
      Fails access b left p (.alreadyTagged p.id existing) (b, p)
  /-- Once a target is bound, the packet that came back has a tag and is turned away; the packet as it
  first came is served as if nothing had happened. -/
  | unbound (htag : p.tag = none) (hagent : b.back.agent = none)
      (hback : ∀ agent, (access (left.bindTarget agent).1 (b.tagged p)).answer =
        .error (.alreadyTagged p.id b.front.tag))
      (hagain : ∀ agent, access (left.bindTarget agent).1 p = access (b.bindTarget agent).1 p)
      (hserved : ∀ agent, ∃ a, (access (b.bindTarget agent).1 p).answer = .ok a) :
      Fails access b left p (.unconnected .target) (left, b.tagged p)

/-- An atomic access that fails leaves the bridge as it was. -/
theorem fails_atomic {fault : BridgeFault} (h : (b.atomic p).answer = .error fault) :
    Fails atomic b b p fault (b.atomic p).state := by
  have hend := b.atomicAccess_atomic p
  generalize b.atomic p = called at hend h ⊢
  cases hend with
  | alreadyTagged htag =>
    cases h
    exact .alreadyTagged htag
  | unbound htag hagent =>
    cases h
    refine .unbound htag hagent (fun agent => rfl) (fun agent => rfl) fun agent => ?_
    rw [atomic, Packet.withTag, htag]
    exact ⟨_, rfl⟩
  | performed => cases h

/-- An access that is served by none of the queues is handed to the target. -/
theorem functional_of_unserved {responses requests : TransmitQueue} {access left : Packet} {agent : δ}
    (htag : p.tag = none) (hresponses : b.front.responses.snoop (b.tagged p) = (responses, access, false))
    (hrequests : b.back.requests.snoop access = (requests, left, false))
    (htarget : b.back.agent = some agent) :
    b.functional p =
      ⟨((b.withQueues responses requests).withTarget (Target.functional agent left).1,
          (Target.functional agent left).2), [.functional left], .ok ()⟩ := by
  rw [tagged] at hresponses
  simp only [functional, Packet.withTag, htag, snoopResponses, snoopRequests, hresponses, hrequests,
    forwardFunctional, htarget]
  rfl

/-- A functional access that fails has been laid over what waits. -/
theorem fails_functional {fault : BridgeFault} (h : (b.functional p).answer = .error fault) :
    Fails functional b (b.overlaid p) p fault (b.functional p).state := by
  have hend := b.functionalAccess_functional p
  generalize b.functional p = called at hend h ⊢
  cases hend with
  | alreadyTagged htag =>
    cases h
    exact .alreadyTagged htag
  | byResponse => cases h
  | byRequest => cases h
  | performed => cases h
  | unbound htag hresponses hrequests hagent =>
    cases h
    obtain ⟨rfl, rfl⟩ := TransmitQueue.snoop_of_unserved hresponses
    obtain ⟨rfl, rfl⟩ := TransmitQueue.snoop_of_unserved hrequests
    have hfirst (agent : δ) := functional_of_unserved (b := (b.bindTarget agent).1) htag hresponses
      hrequests rfl
    have hagain (agent : δ) := functional_of_unserved (b := ((b.overlaid p).bindTarget agent).1) htag
      (TransmitQueue.snoop_overwrite hresponses) (TransmitQueue.snoop_overwrite hrequests) rfl
    refine .unbound htag hagent (fun agent => rfl) (fun agent => ?_) fun agent => ?_
    · rw [hfirst, hagain]
      rfl
    · rw [hfirst]
      exact ⟨_, rfl⟩

/-- Whatever the bridge has done before, an atomic or functional access that fails leaves no more than this
behind: its tag on the packet, and the bytes of a functional write in the packets that wait. -/
theorem failed_accesses (b : Bridge υ δ) (p : Packet) :
    (∀ fault, (b.atomic p).answer = .error fault → Fails atomic b b p fault (b.atomic p).state) ∧
      (∀ fault, (b.functional p).answer = .error fault →
        Fails functional b (b.overlaid p) p fault (b.functional p).state) ∧
      (p.isWrite = false → b.overlaid p = b) :=
  ⟨fun _ => fails_atomic, fun _ => fails_functional, overlaid_of_read⟩

/-- With no target bound, a write waits. -/
def waitingWrite : List (Tick × Operation Generator Memory) :=
  [(0, .bindInitiator {}), (0, .submit (.write 1 0x100 [1, 1, 1, 1] 0))]

/-- A functional write to two of its bytes. -/
def strandedWrite : Packet := .write 2 0x102 [2, 2] 0

theorem fails_strandedWrite :
    ∃ b : Bridge Generator Memory, ofConfig "bridge" {} = .ok b ∧
      Fails atomic (b.after waitingWrite) (b.after waitingWrite) strandedWrite (.unconnected .target)
        ((b.after waitingWrite).atomic strandedWrite).state ∧
      Fails functional (b.after waitingWrite) ((b.after waitingWrite).overlaid strandedWrite)
        strandedWrite (.unconnected .target)
        ((b.after waitingWrite).functional strandedWrite).state ∧
      ((b.after waitingWrite).overlaid strandedWrite).back.requests.packets.map Packet.data =
        [some [1, 1, 2, 2]] ∧
      (b.after waitingWrite).overlaid (.read 3 0x100 4 0) = b.after waitingWrite := by
  obtain ⟨b, hb, -⟩ : ∃ b : Bridge Generator Memory, _ ∧ b.Fresh {} := exists_ofConfig "bridge" rfl
  refine ⟨b, hb, ?_⟩
  obtain rfl := Except.ok.inj hb
  obtain ⟨hatomic, hfunctional, -⟩ := failed_accesses (after _ waitingWrite) strandedWrite
  obtain ⟨-, -, hread⟩ := failed_accesses (after _ waitingWrite) (.read 3 0x100 4 0)
  exact ⟨hatomic _ rfl, hfunctional _ rfl, by decide +kernel, hread rfl⟩

/-- An access that fails does not always leave the bridge and itself as they were: the functional write has
been laid over the waiting one, and has a tag that it did not have. -/
theorem not_unchanged_strandedWrite :
    ¬ ∀ (name : String) (c : BridgeConfig), c.validate = .ok () →
      ∃ b : Bridge Generator Memory, ofConfig name c = .ok b ∧ ∀ run p fault,
        (((b.after run).atomic p).answer = .error fault →
          ((b.after run).atomic p).state = (b.after run, p)) ∧
        (((b.after run).functional p).answer = .error fault →
          ((b.after run).functional p).state = (b.after run, p)) := by
  intro hunchanged
  obtain ⟨b, hb, hstate⟩ := hunchanged "bridge" {} rfl
  obtain rfl := Except.ok.inj hb
  have hsame := (hstate waitingWrite strandedWrite (.unconnected .target)).2 rfl
  have htag := congrArg (fun state => state.2.tag) hsame
  contradiction

end Bridge

end TimedBridge
