import TimedBridge.Proofs.Bridge.Credit

/-!
Submissions that fail. One that comes too early and one that carries a tag already leave the bridge as
it was. One whose identity is waiting comes to its fault after a response slot has been reserved for
it, and the slot stays reserved (`Bridge.TurnsAway`). Nothing gives it back: what is reserved is what
waits, what is queued, and one slot for each such submission (`exists_turnsAway`).
-/

namespace TimedBridge

namespace Bridge

variable {υ δ : Type} {b : Bridge υ δ} {c : BridgeConfig}

/-- The bridge with one more slot reserved, for which there is no request. -/
def forfeitSlot (b : Bridge υ δ) : Bridge υ δ :=
  { b with front := { b.front with reserved := b.front.reserved + 1 } }

/-- The submission of a packet fails. It has no effects, and the bridge stays as it was, unless the
packet's identity is waiting already. -/
structure TurnsAway (b : Bridge υ δ) (p : Packet) (fault : BridgeFault)
    (called : Call υ δ Admission) : Prop where
  effects : called.effects = []
  cause :
    fault = .requestDuringRetry ∧ b.front.retry = .pending ∨
      (∃ existing, fault = .alreadyTagged p.id existing ∧ p.tag = some existing) ∨
      fault = .duplicateRequest p.id ∧ p.expectsResponse = true ∧ b.table.contains p.id = true
  state : called.state = if fault = .duplicateRequest p.id then b.forfeitSlot else b

theorem turnsAway_submit {now : Tick} {p : Packet} {fault : BridgeFault}
    (h : (b.submit now p).answer = .error fault) : b.TurnsAway p fault (b.submit now p) := by
  have hend := b.submission_submit now p
  generalize b.submit now p = called at hend h ⊢
  cases hend with
  | early hretry =>
    cases h
    exact ⟨rfl, .inl ⟨rfl, hretry⟩, rfl⟩
  | refused => contradiction
  | alreadyTagged hretry hroom htag =>
    cases h
    exact ⟨rfl, .inr (.inl ⟨_, rfl, htag⟩), rfl⟩
  | duplicate hretry hroom htag hexpects hwaiting =>
    cases h
    exact ⟨rfl, .inr (.inr ⟨rfl, hexpects, hwaiting⟩), (if_pos rfl).symm⟩
  | accepted => contradiction

variable [Initiator υ] [Target δ]

/-- Each reserved slot belongs to one waiting request, to one queued response, or to one of the
submissions that were turned away with a slot. A submission that fails is turned away. -/
theorem exists_turnsAway (name : String) (valid : c.validate = .ok ()) :
    ∃ b : Bridge υ δ, ofConfig name c = .ok b ∧ ∀ run,
      (b.after run).table.size + (b.after run).front.responses.size + Turn.forfeits (b.record run) =
          (b.after run).front.reserved ∧
        ∀ now p fault, ((b.after run).submit now p).answer = .error fault →
          (b.after run).TurnsAway p fault ((b.after run).submit now p) := by
  obtain ⟨b, hb, hfresh⟩ := exists_ofConfig name valid
  refine ⟨b, hb, fun run => ⟨?_, fun now p fault hfault => turnsAway_submit hfault⟩⟩
  exact (hfresh.credited_after valid run).balanced.balance

/-- A read is let in and waits. -/
def waitingRead : List (Tick × Operation Generator Memory) :=
  [(0, .bindInitiator {}), (0, .bindTarget readyMemory), (0, .submit (.read 1 0 4 0))]

theorem turnsAway_waitingRead :
    ∃ b : Bridge Generator Memory, ofConfig "bridge" {} = .ok b ∧
      ((b.after waitingRead).submit 0 (.read 1 0 4 0)).answer = .error (.duplicateRequest 1) ∧
      (b.after waitingRead).TurnsAway (.read 1 0 4 0) (.duplicateRequest 1)
        ((b.after waitingRead).submit 0 (.read 1 0 4 0)) := by
  have valid : ({} : BridgeConfig).validate = .ok () := rfl
  obtain ⟨b, hb, hturns⟩ : ∃ b : Bridge Generator Memory, _ := exists_turnsAway "bridge" valid
  have hfault : ((b.after waitingRead).submit 0 (.read 1 0 4 0)).answer =
      .error (.duplicateRequest 1) := by
    obtain rfl := Except.ok.inj hb
    rfl
  exact ⟨b, hb, hfault, (hturns waitingRead).2 _ _ _ hfault⟩

/-- A failed submission does not always leave the bridge as it was: a read that is submitted again while
it waits takes a second slot. -/
theorem not_unchanged_waitingRead :
    ¬ ∀ (name : String) (c : BridgeConfig), c.validate = .ok () →
      ∃ b : Bridge Generator Memory, ofConfig name c = .ok b ∧ ∀ run now p fault,
        ((b.after run).submit now p).answer = .error fault →
          ((b.after run).submit now p).state = b.after run := by
  intro hunchanged
  obtain ⟨b, hb, hstate⟩ := hunchanged "bridge" {} rfl
  obtain rfl := Except.ok.inj hb
  have hsame := hstate waitingRead 0 (.read 1 0 4 0) (.duplicateRequest 1) rfl
  have hreserved := congrArg (fun b => b.front.reserved) hsame
  contradiction

end Bridge

end TimedBridge
