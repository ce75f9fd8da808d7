import TimedBridge.Proofs.Bridge.Passage

/-!
The way back. The table knows the identities that were let in once more than they were answered, each
with the route of the latest request (`RequestTable.Tracks`). So a response is let in exactly when its
identity is owed one, it is addressed to where its request came from, and it keeps that address on its
way to the initiator (`exists_returned`); what the target does to the packets that it takes does not
matter.
-/

namespace TimedBridge

namespace Turn

variable {υ δ : Type}

/-- The route of a request that a call lets in under an identity and that will be answered. -/
def asker? (id : RequestId) (turn : Turn υ δ) : Option Route :=
  match turn.operation, turn.answer with
  | .submit p, .ok (.admission .accepted) =>
    if p.id = id ∧ p.expectsResponse = true then some p.source else none
  | _, _ => none

/-- The routes of the requests that a run lets in under an identity and that will be answered, in
order. -/
def askers (id : RequestId) (log : List (Turn υ δ)) : List Route := log.filterMap (asker? id)

/-- Whether a call lets in a response with the given identity. -/
def isReply (id : RequestId) (turn : Turn υ δ) : Bool :=
  match turn.operation, turn.answer with
  | .respond p, .ok _ => p.id = id
  | _, _ => false

/-- The number of responses that a run lets in under an identity. -/
def replies (id : RequestId) (log : List (Turn υ δ)) : Nat := log.countP (isReply id)

variable (id : RequestId) (log : List (Turn υ δ)) (turn : Turn υ δ)

theorem askers_concat : askers id (log ++ [turn]) = askers id log ++ (turn.asker? id).toList := by
  rw [askers, List.filterMap_append]
  cases h : turn.asker? id <;> simp [askers, h]

theorem replies_concat :
    replies id (log ++ [turn]) = replies id log + if turn.isReply id then 1 else 0 := by
  rw [replies, List.countP_append, List.countP_singleton, replies]

/-- A call that is neither a submission nor a response is no part of an exchange. -/
structure Aside (turn : Turn υ δ) : Prop where
  asker : ∀ id, turn.asker? id = none
  reply : ∀ id, turn.isReply id = false

end Turn

/-- The table knows which identities are owed a response after a run: those that were let in once more
than they were answered, each with the route of the latest request. -/
structure RequestTable.Tracks {υ δ : Type} (t : RequestTable) (log : List (Turn υ δ)) : Prop where
  settled : ∀ id, t.route? id = none → (Turn.askers id log).length = Turn.replies id log
  owed : ∀ id route, t.route? id = some route →
    (Turn.askers id log).length = Turn.replies id log + 1 ∧
      (Turn.askers id log).getLast? = some route

namespace RequestTable.Tracks

variable {υ δ : Type} {t t' : RequestTable} {log : List (Turn υ δ)} {turn : Turn υ δ}

/-- An identity is owed one response at most. -/
theorem cases (h : t.Tracks log) (id : RequestId) :
    t.route? id = none ∧ (Turn.askers id log).length = Turn.replies id log ∨
      ∃ route, t.route? id = some route ∧
        (Turn.askers id log).length = Turn.replies id log + 1 ∧
        (Turn.askers id log).getLast? = some route := by
  cases hroute : t.route? id with
  | none => exact .inl ⟨rfl, h.settled id hroute⟩
  | some route => exact .inr ⟨route, rfl, h.owed id route hroute⟩

theorem aside (h : t.Tracks log) (hturn : turn.Aside) : t.Tracks (log ++ [turn]) := by
  refine ⟨fun id hroute => ?_, fun id route hroute => ?_⟩
  · rw [Turn.askers_concat, Turn.replies_concat, hturn.asker, hturn.reply]
    simpa using h.settled id hroute
  · rw [Turn.askers_concat, Turn.replies_concat, hturn.asker, hturn.reply]
    simpa using h.owed id route hroute

/-- A request that will be answered is let in while its identity is owed nothing. -/
theorem save (h : t.Tracks log) {id : RequestId} {route : Route} (hsave : t.save id route = .ok t')
    (hasker : ∀ other, turn.asker? other = if other = id then some route else none)
    (hreply : ∀ other, turn.isReply other = false) : t'.Tracks (log ++ [turn]) := by
  have hnew : t.route? id = none := by
    rw [RequestTable.save] at hsave
    split at hsave
    next => contradiction
    next hwaiting => simpa [contains] using hwaiting
  refine ⟨fun other hroute => ?_, fun other route' hroute => ?_⟩
  · rw [route?_save hsave] at hroute
    split at hroute
    next => contradiction
    next hne =>
      rw [Turn.askers_concat, Turn.replies_concat, hasker, hreply, if_neg hne]
      simpa using h.settled other hroute
  · rw [route?_save hsave] at hroute
    rw [Turn.askers_concat, Turn.replies_concat, hasker, hreply]
    split at hroute
    next heq =>
      obtain rfl := Option.some.inj hroute
      have hsettled := h.settled id hnew
      rw [if_pos heq, heq]
      simpa using hsettled
    next hne =>
      rw [if_neg hne]
      simpa using h.owed other route' hroute

/-- A response is let in, and its identity is owed nothing more. -/
theorem take (h : t.Tracks log) {id : RequestId} {route : Route}
    (htake : t.take id = .ok (route, t')) (hasker : ∀ other, turn.asker? other = none)
    (hreply : ∀ other, turn.isReply other = decide (id = other)) : t'.Tracks (log ++ [turn]) := by
  refine ⟨fun other hroute => ?_, fun other route' hroute => ?_⟩
  · rw [route?_take htake] at hroute
    rw [Turn.askers_concat, Turn.replies_concat, hasker, hreply]
    split at hroute
    next heq =>
      have howed := (h.owed id route (route?_of_take htake)).1
      simpa [heq] using howed
    next hne => simpa [Ne.symm hne] using h.settled other hroute
  · rw [route?_take htake] at hroute
    rw [Turn.askers_concat, Turn.replies_concat, hasker, hreply]
    split at hroute
    next => contradiction
    next hne => simpa [Ne.symm hne] using h.owed other route' hroute

end RequestTable.Tracks

namespace Bridge

variable {υ δ : Type} {b : Bridge υ δ} {log : List (Turn υ δ)}

/-! ### The table -/

theorem table_setQueue (b : Bridge υ δ) (q : TransmitQueue) (d : Direction) :
    (b.setQueue q d).table = b.table := by
  cases d <;> rfl

section Sending

variable [Initiator υ]

theorem table_sendOwedRetry (b : Bridge υ δ) : b.sendOwedRetry.state.table = b.table := by
  have hend := owedRetry_sendOwedRetry b
  generalize b.sendOwedRetry = called at hend ⊢
  cases hend <;> rfl

/-- A departure does not concern the table. -/
theorem table_trySend [Target δ] (b : Bridge υ δ) (now : Tick) (d : Direction) :
    (b.trySend now d).state.table = b.table := by
  cases d with
  | request =>
    have hend := requestSending_trySendRequest b now
    rw [trySend]
    generalize b.trySendRequest now = called at hend ⊢
    cases hend with
    | taken => exact table_sendOwedRetry _
    | _ => rfl
  | response =>
    have hend := responseSending_trySendResponse b now
    rw [trySend]
    generalize b.trySendResponse now = called at hend ⊢
    cases hend with
    | taken => exact table_sendOwedRetry _
    | _ => rfl

end Sending

/-- A response that someone waits for finds room. -/
def HasReplyRoom (b : Bridge υ δ) : Prop :=
  ∀ id route table, b.table.take id = .ok (route, table) →
    b.front.responses.size < b.front.responses.capacity

/-- The slot of a waiting request is one that no queued response has. -/
theorem hasReplyRoom_of_balanced {forfeits : Nat} (h : b.ledger.Balanced forfeits) :
    b.HasReplyRoom := by
  intro id route table htake
  have hwaiting : 0 < b.table.size :=
    Nat.lt_of_lt_of_eq (Nat.succ_pos _) (RequestTable.size_take htake)
  obtain ⟨-, hreserved, hbalance, -⟩ := h
  dsimp only [ledger] at hreserved hbalance
  omega

theorem tracks_submit [Initiator υ] [Target δ] (h : b.table.Tracks log) (now : Tick) (p : Packet) :
    (b.perform now (.submit p)).state.table.Tracks (log ++ [b.turn now (.submit p)]) := by
  have hend := submission_submit b now p
  simp only [turn, perform]
  generalize b.submit now p = called at hend ⊢
  cases hend with
  | accepted hretry hroom htag hsave =>
    cases hexpects : p.expectsResponse with
    | true =>
      rw [if_pos hexpects] at hsave
      refine h.save hsave (fun other => ?_) fun other => rfl
      simp [Outcome.answering, Except.map, Turn.asker?, hexpects, eq_comm]
    | false =>
      -- Nothing will be answered, so nothing is saved.
      rw [if_neg (by simp [hexpects])] at hsave
      obtain rfl := Except.ok.inj hsave
      refine h.aside ⟨fun other => ?_, fun other => rfl⟩
      simp [Outcome.answering, Except.map, Turn.asker?, hexpects]
  | _ => exact h.aside ⟨fun _ => rfl, fun _ => rfl⟩

theorem tracks_respond [Initiator υ] [Target δ] (h : b.table.Tracks log) (hroom : b.HasReplyRoom)
    (now : Tick) (p : Packet) :
    (b.perform now (.respond p)).state.table.Tracks (log ++ [b.turn now (.respond p)]) := by
  have hend := reception_respond b now p
  simp only [turn, perform]
  generalize b.respond now p = called at hend ⊢
  cases hend with
  | unknown => exact h.aside ⟨fun _ => rfl, fun _ => rfl⟩
  | overflow htake hfull => exact absurd (hroom _ _ _ htake) (Nat.not_lt.2 hfull)
  | queued htake => exact h.take htake (fun _ => rfl) fun _ => rfl

variable [Initiator υ] [Target δ]

/-- Every call keeps the table in step with the record. -/
theorem tracks_perform (h : b.table.Tracks log) (hroom : b.HasReplyRoom) (now : Tick)
    (operation : Operation υ δ) :
    (b.perform now operation).state.table.Tracks (log ++ [b.turn now operation]) := by
  have hrest : ∀ turn : Turn υ δ, turn.Aside → b.table.Tracks (log ++ [turn]) :=
    fun _ hturn => h.aside hturn
  cases operation with
  | submit p => exact tracks_submit h now p
  | respond p => exact tracks_respond h hroom now p
  | bindInitiator => exact hrest _ ⟨fun _ => rfl, fun _ => rfl⟩
  | bindTarget => exact hrest _ ⟨fun _ => rfl, fun _ => rfl⟩
  | start =>
    have hturn : (b.turn now .start).Aside := ⟨fun _ => rfl, fun _ => rfl⟩
    have hend := starting_start b
    simp only [perform]
    generalize b.start = called at hend ⊢
    cases hend <;> exact hrest _ hturn
  | attempt d =>
    rw [perform_attempt, Outcome.answering, table_trySend, table_setQueue]
    exact hrest _ ⟨fun _ => rfl, fun _ => rfl⟩
  | retry d =>
    rw [perform_retry]
    split
    · rw [Outcome.answering, table_trySend, table_setQueue]
      exact hrest _ ⟨fun _ => rfl, fun _ => rfl⟩
    · exact hrest _ ⟨fun _ => rfl, fun _ => rfl⟩
  | atomic p =>
    have hturn : (b.turn now (.atomic p)).Aside := ⟨fun _ => rfl, fun _ => rfl⟩
    have hend := atomicAccess_atomic b p
    simp only [perform]
    generalize b.atomic p = called at hend ⊢
    cases hend <;> exact hrest _ hturn
  | functional p =>
    have hturn : (b.turn now (.functional p)).Aside := ⟨fun _ => rfl, fun _ => rfl⟩
    have hend := functionalAccess_functional b p
    simp only [perform]
    generalize b.functional p = called at hend ⊢
    cases hend <;> exact hrest _ hturn

/-! ### Runs -/

/-- The invariant of runs: responses find room, and the table is in step with the record. -/
structure Answerable (c : BridgeConfig) (log : List (Turn υ δ)) (b : Bridge υ δ) : Prop where
  credited : b.Credited c log
  tracks : b.table.Tracks log

variable {c : BridgeConfig}

omit [Initiator υ] [Target δ] in
theorem Fresh.answerable (h : b.Fresh c) (valid : c.validate = .ok ()) : b.Answerable c [] := by
  refine ⟨h.credited valid, ?_⟩
  rw [h.table]
  exact ⟨fun _ _ => rfl, fun _ _ hroute => nomatch hroute⟩

theorem Answerable.perform (h : b.Answerable c log) (now : Tick) (operation : Operation υ δ) :
    (b.perform now operation).state.Answerable c (log ++ [b.turn now operation]) :=
  ⟨h.credited.step now operation,
    tracks_perform h.tracks (hasReplyRoom_of_balanced h.credited.balanced) now operation⟩

theorem Fresh.answerable_after (h : b.Fresh c) (valid : c.validate = .ok ())
    (run : List (Tick × Operation υ δ)) : (b.after run).Answerable c (b.record run) :=
  run_induction (P := fun log b => b.Answerable c log) (h.answerable valid)
    (fun _ _ now operation hb => hb.perform now operation) run

end Bridge

/-! ### Where responses go -/

/-- A response that was let in. -/
structure Reply where
  id : RequestId
  /-- The route of the latest request that was let in under its identity. -/
  route : Option Route

/-- The packet brings the response to where its request came from. -/
structure Reply.BroughtBy (r : Reply) (p : Packet) : Prop where
  id : p.id = r.id
  destination : p.destination = r.route
  known : r.route.isSome = true

/-- The responses that a run lets in after the calls of `past`, in order. -/
def Turn.answered {υ δ : Type} (past : List (Turn υ δ)) : List (Turn υ δ) → List Reply
  | [] => []
  | turn :: rest =>
    (turn.entered .response).map (fun p => ⟨p.id, (askers p.id past).getLast?⟩) ++
      answered (past ++ [turn]) rest

theorem Reply.BroughtBy.of_kept {r : Reply} {e : Entrant} {p : Packet} (h : r.BroughtBy e.packet)
    (hkept : e.Kept p) : r.BroughtBy p := by
  have hrest := hkept.rest
  refine ⟨?_, ?_, h.known⟩
  · rw [hrest]
    exact h.id
  · rw [hrest]
    exact h.destination

namespace Bridge

variable {υ δ : Type} {b : Bridge υ δ} {c : BridgeConfig} {log : List (Turn υ δ)}

/-- A response that is let in joins its queue with the route that the table has for it. -/
theorem broughtBy_relabel (htracks : b.table.Tracks log) {p : Packet} {route : Route}
    (hroute : b.table.route? p.id = some route) :
    Reply.BroughtBy ⟨p.id, (Turn.askers p.id log).getLast?⟩ (b.relabel .response p) := by
  have hlast := (htracks.owed p.id route hroute).2
  refine ⟨b.back.crossing.id_charge p, ?_, ?_⟩
  · exact hroute.trans hlast.symm
  · rw [hlast]
    rfl

/-- A response that nobody waits for is turned away and leaves no trace. -/
theorem respond_of_unknown {p : Packet} (hroute : b.table.route? p.id = none) (now : Tick) :
    b.respond now p = ⟨b, [], .error (.missingRequest p.id)⟩ := by
  have hend := reception_respond b now p
  generalize b.respond now p = called at hend ⊢
  cases hend with
  | unknown => rfl
  | overflow htake => exact nomatch hroute.symm.trans (RequestTable.route?_of_take htake)
  | queued htake => exact nomatch hroute.symm.trans (RequestTable.route?_of_take htake)

/-- A response that is waited for joins the queue with the route of its request. -/
theorem respond_of_known (hroom : b.HasReplyRoom) {p : Packet} {route : Route}
    (hroute : b.table.route? p.id = some route) (now : Tick) :
    (b.respond now p).answer = .ok () ∧
      (b.respond now p).state.front.responses.packets = b.front.responses.packets ++
        [{ b.back.crossing.charge p with destination := some route }] := by
  have hend := reception_respond b now p
  generalize b.respond now p = called at hend ⊢
  cases hend with
  | unknown hunknown => exact nomatch hroute.symm.trans hunknown
  | overflow htake hfull => exact absurd (hroom _ _ _ htake) (Nat.not_lt.2 hfull)
  | queued htake hspace =>
    obtain rfl := Option.some.inj (hroute.symm.trans (RequestTable.route?_of_take htake))
    exact ⟨rfl, TransmitQueue.packets_push _ _ hspace⟩

variable [Initiator υ] [Target δ]

/-- A response is let in only if the table has its route. -/
theorem route?_of_mem_entered {now : Tick} {operation : Operation υ δ} {p : Packet}
    (h : p ∈ (b.turn now operation).entered .response) :
    ∃ route, b.table.route? p.id = some route := by
  cases operation with
  | respond q =>
    have hend := reception_respond b now q
    simp only [turn, perform] at h
    generalize b.respond now q = called at hend h
    cases hend with
    | @queued route table htake hroom =>
      obtain rfl := List.mem_singleton.1 h
      exact ⟨route, RequestTable.route?_of_take htake⟩
    | _ => exact absurd h List.not_mem_nil
  | _ => exact absurd h List.not_mem_nil

theorem broughtBy_joiners (h : b.Answerable c log) (run : List (Tick × Operation υ δ)) :
    List.Forall₂ (fun r e => Reply.BroughtBy r e.packet) (Turn.answered log (b.record run))
      (b.joiners .response run) := by
  induction run generalizing b log with
  | nil => exact .nil
  | cons call rest ih =>
    rw [record, Turn.answered, joiners, entering, List.map_map]
    refine List.rel_append ?_ (ih (h.perform call.1 call.2))
    rw [List.forall₂_map_left_iff, List.forall₂_map_right_iff]
    refine List.forall₂_same.2 fun p hp => ?_
    obtain ⟨route, hroute⟩ := route?_of_mem_entered hp
    exact broughtBy_relabel h.tracks hroute

/-- The exchanges of a run with the given record, and what the bridge at its end does with a
response. -/
structure Returns (log : List (Turn υ δ)) (b : Bridge υ δ) : Prop where
  /-- An identity is owed one response at most. -/
  balance : ∀ id, (Turn.askers id log).length = Turn.replies id log ∨
    (Turn.askers id log).length = Turn.replies id log + 1
  /-- A response is let in exactly when its identity is owed one. -/
  accepted : ∀ now p, (b.respond now p).answer = .ok () ↔
    (Turn.askers p.id log).length = Turn.replies p.id log + 1
  /-- It is queued for the route of the latest request with its identity. -/
  routed : ∀ now p, (b.respond now p).answer = .ok () →
    ∃ route, (Turn.askers p.id log).getLast? = some route ∧
      (b.respond now p).state.front.responses.packets = b.front.responses.packets ++
        [{ b.back.crossing.charge p with destination := some route }]
  /-- Any other response is turned away and leaves no trace. -/
  rejected : ∀ now p, (b.respond now p).answer ≠ .ok () →
    b.respond now p = ⟨b, [], .error (.missingRequest p.id)⟩
  /-- An initiator that hands back unchanged what it refuses is brought each response that was let in,
  in order, at the route of its request. -/
  delivered : KeepsRefused υ δ .response →
    List.Forall₂ Reply.BroughtBy (Turn.answered [] log)
      (Turn.departures .response log ++ b.front.responses.packets)

theorem Answerable.returns (h : b.Answerable c log)
    (hdelivered : KeepsRefused υ δ .response →
      List.Forall₂ Reply.BroughtBy (Turn.answered [] log)
        (Turn.departures .response log ++ b.front.responses.packets)) : b.Returns log := by
  have hroom := hasReplyRoom_of_balanced h.credited.balanced
  refine ⟨fun id => ?_, fun now p => ?_, fun now p hanswer => ?_, fun now p hanswer => ?_,
    hdelivered⟩
  · rcases h.tracks.cases id with ⟨-, hsettled⟩ | ⟨route, -, howed, -⟩
    · exact .inl hsettled
    · exact .inr howed
  · rcases h.tracks.cases p.id with ⟨hroute, hsettled⟩ | ⟨route, hroute, howed, -⟩
    · rw [respond_of_unknown hroute, hsettled]
      simp
    · simp only [(respond_of_known hroom hroute now).1, howed]
  · rcases h.tracks.cases p.id with ⟨hroute, -⟩ | ⟨route, hroute, -, hlast⟩
    · rw [respond_of_unknown hroute] at hanswer
      contradiction
    · exact ⟨route, hlast, (respond_of_known hroom hroute now).2⟩
  · rcases h.tracks.cases p.id with ⟨hroute, -⟩ | ⟨route, hroute, -, -⟩
    · exact respond_of_unknown hroute now
    · exact absurd (respond_of_known hroom hroute now).1 hanswer

/-- In every run of a bridge of accepted settings, whatever its agents do, each request that is let in
is answered at most once, and the response goes to where the request came from. -/
theorem exists_returned (name : String) (valid : c.validate = .ok ()) :
    ∃ b : Bridge υ δ, ofConfig name c = .ok b ∧ ∀ run, (b.after run).Returns (b.record run) := by
  obtain ⟨b, hb, hfresh⟩ := exists_ofConfig name valid
  refine ⟨b, hb, fun run => (hfresh.answerable_after valid run).returns fun hkeeps => ?_⟩
  have hkept := kept_after hfresh.aligned hkeeps run
  rw [hfresh.packets_eq .response] at hkept
  exact forall₂_chain (fun _ _ _ hjoined hp => hjoined.of_kept hp)
    (broughtBy_joiners (hfresh.answerable valid) run) hkept

/-- Two reads are answered out of order by a target that has lost their sources. The identity of the
first one is used again from elsewhere, and answered, and answered once more in vain. -/
def reusedRead : List (Tick × Operation Generator Memory) :=
  [(0, .bindInitiator {}), (0, .bindTarget readyMemory),
    (0, .submit (.read 1 0 4 7)), (1, .attempt .request),
    (1, .submit (.read 2 8 4 8)), (2, .attempt .request),
    (3, .respond (Packet.read 2 8 4 0).respond), (3, .respond (Packet.read 1 0 4 0).respond),
    (4, .attempt .response), (5, .attempt .response),
    (6, .submit (.read 1 0 4 9)), (7, .attempt .request),
    (8, .respond (Packet.read 1 0 4 0).respond), (8, .respond (Packet.read 1 0 4 0).respond)]

theorem returns_reusedRead :
    ∃ b : Bridge Generator Memory, ofConfig "narrow" narrow = .ok b ∧
      (b.after reusedRead).Returns (b.record reusedRead) ∧
      (Turn.departures .response (b.record reusedRead) ++
          (b.after reusedRead).front.responses.packets).map Packet.destination =
        [some 8, some 7, some 9] ∧
      (Turn.askers 1 (b.record reusedRead)).length = 2 ∧
      Turn.replies 1 (b.record reusedRead) = 2 := by
  have valid : narrow.validate = .ok () := rfl
  obtain ⟨b, hb, hreturns⟩ : ∃ b : Bridge Generator Memory, _ := exists_returned "narrow" valid
  refine ⟨b, hb, hreturns reusedRead, ?_⟩
  obtain rfl := Except.ok.inj hb
  exact ⟨rfl, rfl, rfl⟩

end Bridge

end TimedBridge
