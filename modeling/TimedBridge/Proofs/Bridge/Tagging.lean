import TimedBridge.Proofs.Bridge.Handling

/-!
The tag of a bridge. Whatever reaches the target carries the bridge's tag and had none when it was handed
to the bridge, on the timed path and outside the queues (`TaggedOnce`). A packet that comes with a tag is
turned back before it leaves any trace (`TurnsBack`). A request that is refused comes back as it was
handed in, however often, so submitting it again does not fail for a tag (`eq_of_returned`).
-/

namespace TimedBridge

/-! ### What reaches the target -/

namespace Effect

/-- The packets that effects hand to the target, on whatever path. -/
def handed (effects : List Effect) : List Packet :=
  effects.filterMap fun
    | .offer .request packet _ => some packet
    | .atomic packet => some packet
    | .functional packet => some packet
    | _ => none

/-- The packets that effects hand to the target outside the queues. -/
def accesses (effects : List Effect) : List Packet :=
  effects.filterMap fun
    | .atomic packet => some packet
    | .functional packet => some packet
    | _ => none

variable {effects more : List Effect}

theorem accesses_append : accesses (effects ++ more) = accesses effects ++ accesses more :=
  List.filterMap_append

/-- A packet reaches the target as a request that is offered or outside the queues. -/
theorem mem_handed {p : Packet} (h : p ∈ handed effects) :
    (∃ taken, (p, taken) ∈ offersIn .request effects) ∨ p ∈ accesses effects := by
  obtain ⟨effect, heffect, hp⟩ := List.mem_filterMap.1 h
  cases effect with
  | offer direction packet taken =>
    cases direction with
    | request =>
      cases hp
      exact .inl ⟨taken, mem_offersIn.2 heffect⟩
    | response => contradiction
  | atomic packet => exact .inr (List.mem_filterMap.2 ⟨_, heffect, hp⟩)
  | functional packet => exact .inr (List.mem_filterMap.2 ⟨_, heffect, hp⟩)
  | _ => contradiction

end Effect

namespace TransmitQueue

variable (q : TransmitQueue)

theorem accesses_arm (tick : Tick) : Effect.accesses (q.arm tick).effects = [] := by
  rw [effects_arm]
  split <;> rfl

theorem accesses_armForHead (now : Tick) : Effect.accesses (q.armForHead now).effects = [] := by
  rw [armForHead]
  split
  · rfl
  · exact accesses_arm ..

theorem accesses_push (packet : Packet) (ready : Tick) :
    Effect.accesses (q.push packet ready).effects = [] := by
  by_cases h : q.size < q.capacity
  · rw [push_of_room packet ready h]
    dsimp only
    split
    · exact accesses_arm ..
    · rfl
  · rw [push_of_full packet ready (Nat.not_lt.1 h)]
    rfl

theorem accesses_departure (direction : Direction) (packet : Packet) (now : Tick) :
    Effect.accesses (.offer direction packet true :: (q.armForHead now).effects) = [] :=
  q.accesses_armForHead now

end TransmitQueue

/-- The operation is an access outside the queues with the packet `p`. -/
def Operation.Accesses {υ δ : Type} (operation : Operation υ δ) (p : Packet) : Prop :=
  operation = .atomic p ∨ operation = .functional p

namespace Bridge

variable {υ δ : Type} [Initiator υ] (b : Bridge υ δ) (now : Tick)

theorem accesses_sendOwedRetry : Effect.accesses b.sendOwedRetry.effects = [] := by
  have hend := owedRetry_sendOwedRetry b
  generalize b.sendOwedRetry = called at hend ⊢
  cases hend <;> rfl

/-- Sending the owed retry hands nothing to the target. -/
theorem accesses_after {effects : List Effect} (h : Effect.accesses effects = []) :
    Effect.accesses (b.sendOwedRetry.after effects).effects = [] := by
  rw [Outcome.after, Effect.accesses_append, h, accesses_sendOwedRetry]
  rfl

theorem accesses_trySendResponse : Effect.accesses (b.trySendResponse now).effects = [] := by
  have hend := responseSending_trySendResponse b now
  generalize b.trySendResponse now = called at hend ⊢
  cases hend with
  | early => exact TransmitQueue.accesses_arm ..
  | unreserved => exact TransmitQueue.accesses_departure ..
  | takenFull => exact TransmitQueue.accesses_departure ..
  | taken => exact accesses_after _ (TransmitQueue.accesses_departure ..)
  | _ => rfl

variable [Target δ]

theorem accesses_trySendRequest : Effect.accesses (b.trySendRequest now).effects = [] := by
  have hend := requestSending_trySendRequest b now
  generalize b.trySendRequest now = called at hend ⊢
  cases hend with
  | early => exact TransmitQueue.accesses_arm ..
  | taken => exact accesses_after _ (TransmitQueue.accesses_departure ..)
  | _ => rfl

theorem accesses_trySend (d : Direction) : Effect.accesses (b.trySend now d).effects = [] := by
  cases d with
  | request => exact b.accesses_trySendRequest now
  | response => exact b.accesses_trySendResponse now

/-- What reaches the target outside the queues is the access that the call was made with, tagged. -/
theorem exists_given {operation : Operation υ δ} {p : Packet}
    (h : p ∈ Effect.accesses (b.perform now operation).effects) :
    ∃ given, operation.Accesses given ∧ given.tag = none ∧ p = b.tagged given := by
  have hnone : Effect.accesses (b.perform now operation).effects ≠ [] := List.ne_nil_of_mem h
  cases operation with
  | bindInitiator => contradiction
  | bindTarget => contradiction
  | start =>
    have hend := starting_start b
    simp only [perform] at hnone
    generalize b.start = called at hend hnone
    cases hend <;> contradiction
  | submit q =>
    have hend := submission_submit b now q
    simp only [perform] at hnone
    generalize b.submit now q = called at hend hnone
    cases hend with
    | accepted => exact absurd (TransmitQueue.accesses_push ..) hnone
    | _ => contradiction
  | respond q =>
    have hend := reception_respond b now q
    simp only [perform] at hnone
    generalize b.respond now q = called at hend hnone
    cases hend with
    | queued => exact absurd (TransmitQueue.accesses_push ..) hnone
    | _ => contradiction
  | attempt d =>
    rw [perform_attempt] at hnone
    exact absurd (accesses_trySend _ now d) hnone
  | retry d =>
    rw [perform_retry] at hnone
    split at hnone
    · exact absurd (accesses_trySend _ now d) hnone
    · contradiction
  | atomic q =>
    have hend := atomicAccess_atomic b q
    simp only [perform] at h
    generalize b.atomic q = called at hend h
    cases hend with
    | performed htag => exact ⟨q, .inl rfl, htag, List.mem_singleton.1 h⟩
    | _ => exact absurd h List.not_mem_nil
  | functional q =>
    have hend := functionalAccess_functional b q
    simp only [perform] at h
    generalize b.functional q = called at hend h
    cases hend with
    | performed htag hresponses hrequests =>
      obtain rfl := TransmitQueue.access_snoop hresponses
      obtain rfl := TransmitQueue.access_snoop hrequests
      exact ⟨q, .inr rfl, htag, List.mem_singleton.1 h⟩
    | _ => exact absurd h List.not_mem_nil

end Bridge

/-! ### Tagged once -/

theorem Crossing.tag_charge (c : Crossing) (p : Packet) : (c.charge p).tag = p.tag := by
  unfold charge Hints.charge; split <;> rfl

/-- A request was let in without a tag, and it crosses with the bridge's tag. -/
structure Arrival.Tagged (tag : TrafficTag) (a : Arrival) (e : Deferred) : Prop where
  crossed : a.entrant.Crossed .request e.packet
  untagged : a.entrant.packet.tag = none
  tagged : e.packet.tag = some tag

/-- The packet `p` that a recorded call hands to the target had no tag when it was handed to the bridge:
as a request that was let in, or as the access that the call was made with. -/
inductive Turn.CameUntagged {υ δ : Type} (tag : TrafficTag) (log : List (Turn υ δ)) (turn : Turn υ δ)
    (p : Packet) : Prop
  | timed (e : Entrant) (hmem : e ∈ Turn.entrants .request log) (huntagged : e.packet.tag = none)
      (hcrossed : e.Crossed .request p)
  | access (given : Packet) (hoperation : turn.operation.Accesses given)
      (huntagged : given.tag = none) (hgiven : p = { given with tag := some tag })

namespace Turn

variable {υ δ : Type} {tag : TrafficTag} {log : List (Turn υ δ)} {turn : Turn υ δ} {p : Packet}

theorem mem_entrants_concat {d : Direction} {e : Entrant} (h : e ∈ entrants d log)
    (later : Turn υ δ) :
    ⟨e.packet, e.writes ++ later.writes⟩ ∈ entrants d (log ++ [later]) := by
  rw [← entrant_arrivals] at h ⊢
  obtain ⟨a, ha, rfl⟩ := List.mem_map.1 h
  rw [arrivals_concat, List.map_append]
  exact List.mem_append_left _ (List.mem_map.2 ⟨_, List.mem_map_of_mem ha, rfl⟩)

/-- A further call changes nothing about where a packet came from. -/
theorem CameUntagged.concat (h : turn.CameUntagged tag log p) (later : Turn υ δ) :
    turn.CameUntagged tag (log ++ [later]) p := by
  cases h with
  | timed e hmem huntagged hcrossed =>
    exact .timed _ (mem_entrants_concat hmem later) huntagged (hcrossed.later (.refl _ p))
  | access given hoperation huntagged hgiven => exact .access given hoperation huntagged hgiven

end Turn

namespace Bridge

variable {υ δ : Type}

/-- In a run each request that has departed or waits, and each packet that any call has handed to the
target, carries the tag and came without one. -/
structure TaggedOnce (b : Bridge υ δ) (tag : TrafficTag) (log : List (Turn υ δ)) : Prop where
  timed : List.Forall₂ (Arrival.Tagged tag) (Turn.arrivals .request log)
    (Turn.leavings .request log ++ (b.queue .request).entries)
  handed : ∀ turn ∈ log, ∀ p ∈ Effect.handed turn.effects,
    p.tag = some tag ∧ turn.CameUntagged tag log p

variable {b : Bridge υ δ} {tag : TrafficTag} {log : List (Turn υ δ)}

/-- The head of the queue is one of the requests that were let in. -/
theorem TaggedOnce.head (h : b.TaggedOnce tag log) {head : Deferred} {rest : List Deferred}
    (hentries : (b.queue .request).entries = head :: rest) :
    ∃ a ∈ Turn.arrivals .request log, a.Tagged tag head := by
  have hwaiting := List.forall₂_drop_append _ _ _ h.timed
  rw [hentries] at hwaiting
  obtain ⟨a, others, ha, -, hdrop⟩ := List.forall₂_cons_right_iff.1 hwaiting
  exact ⟨a, List.mem_of_mem_drop (hdrop ▸ List.mem_cons_self ..), ha⟩

variable [Initiator υ] [Target δ]

/-- Only the head of a queue is ever offered. -/
theorem Handling.head_of_offer {d : Direction} {turn : Turn υ δ} {entries : List Deferred}
    (h : b.Handling d turn entries) {p : Packet} {taken : Bool}
    (hoffer : (p, taken) ∈ Effect.offersIn d turn.effects) :
    ∃ head rest, (b.queue d).entries = head :: rest ∧ head.packet = p := by
  cases h with
  | stay hentered hoffers => exact absurd (hoffers ▸ hoffer) List.not_mem_nil
  | join p hentered huntagged hoffers => exact absurd (hoffers ▸ hoffer) List.not_mem_nil
  | send hentered hwrites hcause hentries =>
    generalize (b.queue d).entries = old, Effect.offersIn d turn.effects = offers
      at hentries hoffer ⊢
    cases hentries with
    | none => exact absurd hoffer List.not_mem_nil
    | taken => exact ⟨_, _, rfl, (congrArg Prod.fst (List.mem_singleton.1 hoffer)).symm⟩
    | refused => exact ⟨_, _, rfl, (congrArg Prod.fst (List.mem_singleton.1 hoffer)).symm⟩

/-- Every call keeps the requests tagged once. -/
theorem TaggedOnce.step (h : b.TaggedOnce tag log) (haligned : b.Aligned)
    (htag : b.front.tag = tag) (hkeeps : KeepsRefused υ δ .request) (now : Tick)
    (operation : Operation υ δ) :
    (b.perform now operation).state.TaggedOnce tag (log ++ [b.turn now operation]) := by
  have hhandles := handles_perform now haligned operation .request
  refine ⟨?_, fun turn hturn p hp => ?_⟩
  · refine hhandles.forall₂_arrivals h.timed (.inl hkeeps) ?_ ?_ ?_
    · intro a e e' htagged hheld
      refine ⟨htagged.crossed.later hheld.packet, htagged.untagged, ?_⟩
      rw [hheld.packet.rest]
      exact htagged.tagged
    · intro p _ huntagged
      refine ⟨b.crossed_joining .request now p, huntagged rfl, ?_⟩
      rw [joining, relabel, Crossing.tag_charge, tagged, htag]
    · exact fun a head rest _ _ htagged =>
        ⟨htagged.crossed, htagged.untagged, htagged.tagged⟩
  · rcases List.mem_append.1 hturn with hold | hnew
    · exact (h.handed turn hold p hp).imp_right (·.concat _)
    · obtain rfl := List.mem_singleton.1 hnew
      rcases Effect.mem_handed hp with ⟨taken, hoffer⟩ | haccess
      · obtain ⟨head, rest, hentries, rfl⟩ := hhandles.head_of_offer hoffer
        obtain ⟨a, ha, htagged⟩ := h.head hentries
        refine ⟨htagged.tagged, Turn.CameUntagged.concat ?_ _⟩
        refine .timed a.entrant ?_ htagged.untagged htagged.crossed
        rw [← Turn.entrant_arrivals]
        exact List.mem_map_of_mem ha
      · obtain ⟨given, hoperation, huntagged, rfl⟩ := b.exists_given now haccess
        exact ⟨congrArg some htag, .access given hoperation huntagged (by rw [tagged, htag])⟩

/-! ### Packets that come with a tag -/

/-- A packet that comes with the tag `existing` leaves no trace: a submission has no effects and changes
nothing but that a retry may be owed, and an access outside the queues fails with the bridge and the
packet as they were. -/
structure TurnsBack (b : Bridge υ δ) (now : Tick) (p : Packet) (existing : TrafficTag) : Prop where
  effects : (b.submit now p).effects = []
  state : ∃ retry, (b.submit now p).state = { b with front := { b.front with retry } }
  answer : (b.submit now p).answer = .ok (.refused p) ∨
    (b.submit now p).answer = .error .requestDuringRetry ∨
    (b.submit now p).answer = .error (.alreadyTagged p.id existing)
  atomic : b.atomic p = ⟨(b, p), [], .error (.alreadyTagged p.id existing)⟩
  functional : b.functional p = ⟨(b, p), [], .error (.alreadyTagged p.id existing)⟩

omit [Initiator υ] in
theorem turnsBack (b : Bridge υ δ) (now : Tick) {p : Packet} {existing : TrafficTag}
    (htag : p.tag = some existing) : b.TurnsBack now p existing := by
  have hatomic : b.atomic p = ⟨(b, p), [], .error (.alreadyTagged p.id existing)⟩ := by
    simp only [atomic, Packet.withTag, htag]
  have hfunctional : b.functional p = ⟨(b, p), [], .error (.alreadyTagged p.id existing)⟩ := by
    simp only [functional, Packet.withTag, htag]
  have hend := submission_submit b now p
  generalize hcalled : b.submit now p = called at hend
  cases hend with
  | early =>
    refine ⟨?_, ⟨b.front.retry, ?_⟩, .inr (.inl ?_), hatomic, hfunctional⟩ <;> rw [hcalled]
  | refused =>
    refine ⟨?_, ⟨.pending, ?_⟩, .inl ?_, hatomic, hfunctional⟩ <;> rw [hcalled]
  | alreadyTagged hretry hroom hexisting =>
    obtain rfl := Option.some.inj (htag.symm.trans hexisting)
    refine ⟨?_, ⟨b.front.retry, ?_⟩, .inr (.inr ?_), hatomic, hfunctional⟩ <;> rw [hcalled]
  | duplicate hretry hroom huntagged =>
    rw [htag] at huntagged
    contradiction
  | accepted hretry hroom huntagged =>
    rw [htag] at huntagged
    contradiction

/-! ### Requests that are refused -/

omit [Initiator υ] [Target δ] in
/-- What is refused is handed back as it came. -/
theorem eq_of_refused (b : Bridge υ δ) {now : Tick} {p q : Packet}
    (h : (b.submit now p).answer = .ok (.refused q)) : q = p := by
  have hend := submission_submit b now p
  generalize b.submit now p = called at hend h
  cases hend <;> cases h
  rfl

omit [Initiator υ] [Target δ] in
/-- A submission without a tag does not fail for one. -/
theorem not_alreadyTagged (b : Bridge υ δ) {now : Tick} {p : Packet} (htag : p.tag = none)
    (id : RequestId) (existing : TrafficTag) :
    (b.submit now p).answer ≠ .error (.alreadyTagged id existing) := by
  intro h
  have hend := submission_submit b now p
  generalize b.submit now p = called at hend h
  cases hend with
  | alreadyTagged hretry hroom hexisting =>
    rw [htag] at hexisting
    contradiction
  | _ => cases h

end Bridge

/-- After any number of submissions in a run that were refused, `q` is what has come back of `p`. -/
inductive Turn.Returned {υ δ : Type} (log : List (Turn υ δ)) (p : Packet) : Packet → Prop
  | first : Returned log p p
  | again {q r : Packet} {turn : Turn υ δ} (h : Returned log p q) (hmem : turn ∈ log)
      (hoperation : turn.operation = .submit q)
      (hanswer : turn.answer = .ok (.admission (.refused r))) : Returned log p r

namespace Bridge

variable {υ δ : Type} [Initiator υ] [Target δ]

theorem eq_of_returned {b : Bridge υ δ} {run : List (Tick × Operation υ δ)} {p q : Packet}
    (h : Turn.Returned (b.record run) p q) : q = p := by
  induction h with
  | first => rfl
  | @again q r turn _ hmem hoperation hanswer ih =>
    obtain ⟨before, now, operation, rfl⟩ := exists_of_mem_record hmem
    obtain rfl : operation = .submit q := hoperation
    change (((b.after before).submit now q).answer.map Answer.admission) = _ at hanswer
    cases hsubmit : ((b.after before).submit now q).answer with
    | error fault =>
      rw [hsubmit] at hanswer
      contradiction
    | ok admission =>
      rw [hsubmit] at hanswer
      cases hanswer
      exact (eq_of_refused _ hsubmit).trans ih

/-- In every run of a bridge of accepted settings, in front of a target that hands back unchanged what it
refuses, packets are tagged once; one that comes with a tag is turned back; and a request that is refused
any number of times is as it was, so that it is not then turned back for a tag. -/
theorem exists_taggedOnce {c : BridgeConfig} (name : String) (valid : c.validate = .ok ())
    (hkeeps : KeepsRefused υ δ .request) :
    ∃ b : Bridge υ δ, ofConfig name c = .ok b ∧ ∀ run,
      (b.after run).TaggedOnce c.trafficTag (b.record run) ∧
        (∀ now p existing, p.tag = some existing → (b.after run).TurnsBack now p existing) ∧
        ∀ p q, Turn.Returned (b.record run) p q → p.tag = none →
          q = p ∧ ∀ now id existing,
            ((b.after run).submit now q).answer ≠ .error (.alreadyTagged id existing) := by
  obtain ⟨b, hb, hfresh⟩ := exists_ofConfig name valid
  refine ⟨b, hb, fun run => ⟨?_, fun now p existing htag => turnsBack _ now htag, ?_⟩⟩
  · have hstart : b.TaggedOnce c.trafficTag [] := by
      obtain ⟨capacity, hqueue⟩ := hfresh.queue_eq .request
      refine ⟨?_, fun turn hturn => absurd hturn List.not_mem_nil⟩
      rw [hqueue]
      exact .nil
    have hkept := run_induction
      (P := fun log b => b.Aligned ∧ b.settings = c.settings ∧ b.TaggedOnce c.trafficTag log)
      ⟨hfresh.aligned, settings_of_ofConfig hb, hstart⟩
      (fun log b now operation ⟨haligned, hsettings, hlog⟩ =>
        ⟨haligned.perform now operation, (b.settings_perform now operation).trans hsettings,
          hlog.step haligned (congrArg Settings.tag hsettings) hkeeps now operation⟩) run
    exact hkept.2.2
  · rintro p q hreturned htag
    obtain rfl := eq_of_returned hreturned
    exact ⟨rfl, fun now => not_alreadyTagged _ htag⟩

/-- A bridge with the tag 7 and room for one request. -/
def seventh : BridgeConfig := { trafficTag := 7, requestCapacity := 1 }

/-- A second read is refused while the first one waits. A third one does not wait, and then the first one
leaves. -/
def threeReads : List (Tick × Operation Generator Memory) :=
  [(0, .bindInitiator {}), (0, .bindTarget readyMemory), (0, .submit (.read 1 0 4 0)),
    (0, .submit (.read 2 0 4 0)), (0, .atomic (.read 3 0 4 0)), (1, .attempt .request)]

theorem taggedOnce_threeReads :
    ∃ b : Bridge Generator Memory, ofConfig "seventh" seventh = .ok b ∧
      (b.after threeReads).TaggedOnce 7 (b.record threeReads) ∧
      ((b.record threeReads).flatMap fun turn => Effect.handed turn.effects).map
        (fun p => (p.id, p.tag)) = [(3, some 7), (1, some 7)] ∧
      Turn.Returned (b.record threeReads) (.read 2 0 4 0) (.read 2 0 4 0) ∧
      ((b.after threeReads).submit 1 (.read 2 0 4 0)).answer ≠ .error (.alreadyTagged 2 7) := by
  have valid : seventh.validate = .ok () := rfl
  obtain ⟨b, hb, htagged⟩ :=
    exists_taggedOnce "seventh" valid (keepsRefused_generator_memory .request)
  obtain ⟨honce, -, hagain⟩ := htagged threeReads
  have hreturned : Turn.Returned (b.record threeReads) (.read 2 0 4 0) (.read 2 0 4 0) := by
    obtain rfl := Except.ok.inj hb
    exact .again .first (List.mem_of_getElem? (i := 3) rfl) rfl rfl
  refine ⟨b, hb, honce, ?_, hreturned, (hagain _ _ hreturned rfl).2 1 2 7⟩
  obtain rfl := Except.ok.inj hb
  rfl

end Bridge

end TimedBridge
