import TimedBridge.Proofs.Bridge.FunctionalRead
import TimedBridge.Proofs.Bridge.FunctionalWrite
import TimedBridge.Proofs.Bridge.Passage

/-!
Runs of a bridge with a memory behind it. The memory makes every response, from the bytes that it has
when it completes the request. A response that waits ages: accesses that the memory performs later do
not reach it, but for functional writes, which are laid over it. `Watched` keeps, for each waiting
response, the accesses that it has missed. Wherever none of them stores, the response still carries the
byte of the memory (`Watched.Sound.after`).
-/

namespace TimedBridge

/-! ### Runs -/

/-- Whether a call is not the memory's: it neither binds a target nor brings a response. -/
def Operation.isFrontCall {υ δ : Type} : Operation υ δ → Bool
  | .bindTarget _ | .respond _ => false
  | _ => true

/-- What can happen to a bridge with a memory behind it. -/
inductive Happening (υ : Type) where
  | call (operation : Operation υ Memory) (front : operation.isFrontCall = true)
  /-- The memory completes its oldest request, and the bridge gets the answer. -/
  | complete

/-- The accesses that effects hand to the target and that no waiting packet learns of: all but the
functional writes whose bytes fit. -/
def Effect.unshared (effects : List Effect) : List Packet :=
  effects.filterMap fun
    | .atomic p => some p
    | .functional p => if p.isWrite = true ∧ p.Fitting then none else some p
    | _ => none

/-- A bridge and, for each response that waits, the accesses that the memory has performed since the
response was made and that have not been laid over it. -/
structure Watched (υ : Type) where
  bridge : Bridge υ Memory
  missed : List (List Packet) := []

namespace Watched

variable {υ : Type} [Initiator υ]

/-- What becomes of a bridge when something happens at `now`. -/
def step (w : Watched υ) (now : Tick) : Happening υ → Watched υ
  | .call operation _ =>
    let called := w.bridge.perform now operation
    { bridge := called.state
      missed := (w.missed.drop (Effect.departures .response called.effects).length).map
        (· ++ Effect.unshared called.effects) }
  | .complete =>
    match w.bridge.back.agent with
    | none => w
    | some m =>
      let missed := w.missed.map (· ++ m.inService.take 1)
      match m.completeNext with
      | (none, m) => { bridge := w.bridge.withTarget m, missed }
      | (some answer, m) =>
        let called := (w.bridge.withTarget m).respond now answer
        { bridge := called.state
          missed := if called.answer.isOk then missed ++ [[]] else missed }

/-- The bridge at the end of a run. -/
def after (w : Watched υ) : List (Tick × Happening υ) → Watched υ
  | [] => w
  | (now, happening) :: rest => (w.step now happening).after rest

/-- The response carries the bytes of the memory at the addresses at which no access that it has missed
stores. -/
def UpToDate (m : Memory) (p : Packet) (missed : List Packet) : Prop :=
  p.command.hasData = true → p.Fitting → ∀ (a : Address) byte, p.byteFor? a.toNat = some byte →
    (∀ q ∈ missed, ¬ q.StoresAt a) → m.byteAt a = byte

/-- Each waiting response is up to date. -/
structure Sound (w : Watched υ) : Prop where
  aligned : w.bridge.Aligned
  current : ∃ m, w.bridge.back.agent = some m ∧
    List.Forall₂ (UpToDate m) w.bridge.front.responses.packets w.missed

variable {m m' : Memory} {p p' w : Packet} {missed more : List Packet}

/-! ### What keeps a response up to date -/

/-- A response stays up to date through accesses that it misses and writes that reach it but store where
an access that it misses does. -/
theorem UpToDate.overwritten {writes : List Packet} (h : UpToDate m p missed)
    (hover : p.Overwritten writes p')
    (hmemory : ∀ a, (∀ q ∈ more, ¬ q.StoresAt a) → m'.byteAt a = m.byteAt a)
    (hwrites : ∀ w ∈ writes, ∀ a : Address, w.byteFor? a.toNat ≠ none → ∃ q ∈ more, q.StoresAt a) :
    UpToDate m' p' (missed ++ more) := by
  intro hdata hfits a byte hbyte hclear
  rw [List.forall_mem_append] at hclear
  obtain ⟨hmissed, hmore⟩ := hclear
  have hdata' : p.command.hasData = true := by rwa [hover.rest] at hdata
  rw [hmemory a hmore]
  rcases hover.byte a.toNat with hsame | ⟨w, hw, -, -, hlaid⟩
  · exact h hdata' (hover.fitting_before hfits) a byte (hsame ▸ hbyte) hmissed
  · obtain ⟨q, hq, hstores⟩ := hwrites w hw a (by simp [← hlaid, hbyte])
    exact absurd hstores (hmore q hq)

/-- A functional write whose bytes fit reaches the response as it reaches the memory. -/
theorem UpToDate.snoop (h : UpToDate m p missed) (hwrite : w.isWrite = true) (hw : w.Fitting) :
    UpToDate (m.perform w).1 (w.snoop p).held missed := by
  intro hdata hfits a byte hbyte hclear
  have hover := w.overwritten_snoop p
  have hdata' : p.command.hasData = true := by rwa [hover.rest] at hdata
  have hfits' := hover.fitting_before hfits
  rw [Packet.byteFor?_snoop hwrite hdata' hw hfits', Packet.patched?, Option.map_eq_some_iff] at hbyte
  obtain ⟨old, hold, rfl⟩ := hbyte
  rw [m.byteAt_perform hw, Packet.storedAt?, if_pos hwrite, h hdata' hfits' a old hold hclear]

/-- New labels do not make a response older. -/
theorem UpToDate.relabelled {d : Direction} (h : UpToDate m p missed) (hlabels : p.Relabelled d p') :
    UpToDate m p' missed := by
  rw [hlabels.rest]
  exact h

/-- The answer that the memory has just made is up to date. -/
theorem upToDate_answer (m : Memory) (hexpects : p.expectsResponse = true) :
    UpToDate (m.perform p).1 (m.perform p).2 [] := by
  intro hdata _ a byte hbyte _
  rw [Packet.expectsResponse, Bool.and_eq_true_iff] at hexpects
  cases hcommand : p.command with
  | readRequest =>
    rw [m.perform_of_read hcommand] at hbyte ⊢
    rw [Packet.byteFor?_of_data rfl] at hbyte
    split at hbyte
    next hle =>
      have hlt := (List.getElem?_eq_some_iff.1 hbyte).1
      rw [Memory.read, Memory.length_readFrom] at hlt
      rw [Memory.read, Memory.getElem?_readFrom _ _ hlt, Option.some.injEq] at hbyte
      rw [← hbyte]
      congr 1
      change p.address.toNat ≤ a.toNat at hle
      change a = p.address + UInt64.ofNat (a.toNat - p.address.toNat)
      apply UInt64.toNat_inj.1
      have := a.toNat_lt
      rw [UInt64.toNat_add, UInt64.toNat_ofNat']
      omega
    next => contradiction
  | writeRequest =>
    rw [Memory.perform, hcommand] at hdata
    cases hbytes : p.data <;> simp [hbytes, Packet.respond, hcommand, Command.response?,
      Command.hasData] at hdata
  | writeback => simp [hcommand, Command.needsResponse] at hexpects
  | readResponse => simp [hcommand, Command.needsResponse] at hexpects
  | writeResponse => simp [hcommand, Command.needsResponse] at hexpects

end Watched

/-! ### The memory after a call -/

theorem Memory.byteAt_offer (m : Memory) (p : Packet) : (m.offer p).1.byteAt = m.byteAt := by
  rw [offer]
  dsimp only
  split <;> rfl

namespace Bridge

variable {υ : Type} {b : Bridge υ Memory} {m : Memory}

/-- A call leaves a memory whose bytes differ at most where an access stores that was handed to it and
that no waiting packet has learnt of. -/
def Reaches {α : Type} (m : Memory) (called : Call υ Memory α) : Prop :=
  ∃ m', called.state.back.agent = some m' ∧
    ∀ a, (∀ q ∈ Effect.unshared called.effects, ¬ q.StoresAt a) → m'.byteAt a = m.byteAt a

theorem Reaches.of_agent {α : Type} {called : Call υ Memory α}
    (h : called.state.back.agent = some m) : Reaches m called :=
  ⟨m, h, fun _ _ => rfl⟩

variable [Initiator υ]

theorem back_sendOwedRetry (b : Bridge υ Memory) : b.sendOwedRetry.state.back = b.back := by
  have hend := owedRetry_sendOwedRetry b
  generalize b.sendOwedRetry = called at hend ⊢
  cases hend <;> rfl

theorem back_trySendResponse (b : Bridge υ Memory) (now : Tick) :
    (b.trySendResponse now).state.back = b.back := by
  have hend := responseSending_trySendResponse b now
  generalize b.trySendResponse now = called at hend ⊢
  cases hend with
  | taken => exact back_sendOwedRetry _
  | _ => rfl

theorem reaches_trySendRequest (htarget : b.back.agent = some m) (now : Tick) :
    Reaches m (b.trySendRequest now) := by
  have hend := requestSending_trySendRequest b now
  generalize b.trySendRequest now = called at hend ⊢
  cases hend with
  | unbound hagent => exact .of_agent htarget
  | empty => exact .of_agent htarget
  | early hagent =>
    obtain rfl := Option.some.inj (htarget.symm.trans hagent)
    exact .of_agent rfl
  | refused hagent h hdue hoffer =>
    obtain rfl := Option.some.inj (htarget.symm.trans hagent)
    refine ⟨_, rfl, fun a _ => ?_⟩
    rw [← m.byteAt_offer, show m.offer _ = _ from hoffer]
  | @taken agent agent' head rest hagent h hdue hoffer =>
    obtain rfl := Option.some.inj (htarget.symm.trans hagent)
    refine ⟨agent', congrArg Back.agent (back_sendOwedRetry _), fun a _ => ?_⟩
    rw [← m.byteAt_offer, show m.offer _ = _ from hoffer]

theorem reaches_trySend (htarget : b.back.agent = some m) (now : Tick) (d : Direction) :
    Reaches m (b.trySend now d) := by
  cases d with
  | request => exact reaches_trySendRequest htarget now
  | response => exact .of_agent ((congrArg Back.agent (back_trySendResponse b now)).trans htarget)

/-- A functional write that is laid over the waiting packets as it reaches the memory. -/
def Laid (operation : Operation υ Memory) : Prop :=
  ∃ w, operation = .functional w ∧ w.isWrite = true ∧ w.Fitting ∧ w.tag = none

theorem reaches_functional (htarget : b.back.agent = some m) {p : Packet}
    (hlaid : ¬ Laid (υ := υ) (.functional p)) (now : Tick) :
    Reaches m (b.perform now (.functional p)) := by
  have hend := functionalAccess_functional b p
  simp only [perform]
  generalize b.functional p = called at hend ⊢
  cases hend with
  | alreadyTagged => exact .of_agent htarget
  | byResponse => exact .of_agent htarget
  | byRequest => exact .of_agent htarget
  | unbound => exact .of_agent htarget
  | @performed _ _ _ _ _ _ agent' htag hresponses hrequests hagent hperform =>
    obtain rfl := Option.some.inj (htarget.symm.trans hagent)
    obtain rfl := TransmitQueue.access_snoop hresponses
    obtain rfl := TransmitQueue.access_snoop hrequests
    refine ⟨_, rfl, fun a hclear => ?_⟩
    have hbytes : (m.perform (b.tagged p)).1 = agent' := congrArg Prod.fst hperform
    have hmissed : ¬ ((b.tagged p).isWrite = true ∧ (b.tagged p).Fitting) :=
      fun h => hlaid ⟨p, rfl, h.1, h.2, htag⟩
    rw [← hbytes]
    refine m.byteAt_perform_of_apart (hclear (b.tagged p) ?_)
    simp [Effect.unshared, Outcome.answering, Outcome.within, hmissed]

/-- Every call but the memory's own and the functional writes that are laid over waiting packets. -/
theorem reaches_perform (htarget : b.back.agent = some m) (now : Tick)
    {operation : Operation υ Memory} (hfront : operation.isFrontCall = true)
    (hlaid : ¬ Laid operation) : Reaches m (b.perform now operation) := by
  cases operation with
  | bindInitiator => exact .of_agent htarget
  | bindTarget => contradiction
  | respond => contradiction
  | start =>
    have hend := starting_start b
    simp only [perform]
    generalize b.start = called at hend ⊢
    cases hend <;> exact .of_agent htarget
  | submit p =>
    have hend := submission_submit b now p
    simp only [perform]
    generalize b.submit now p = called at hend ⊢
    cases hend <;> exact .of_agent htarget
  | attempt d =>
    rw [perform_attempt]
    have htarget' : (b.setQueue (b.queue d).attemptDue d).back.agent = some m := by
      cases d <;> exact htarget
    exact reaches_trySend htarget' now d
  | retry d =>
    rw [perform_retry]
    split
    next =>
      have htarget' :
          (b.setQueue { b.queue d with awaitingRetry := false } d).back.agent = some m := by
        cases d <;> exact htarget
      exact reaches_trySend htarget' now d
    next => exact .of_agent htarget
  | atomic p =>
    have hend := atomicAccess_atomic b p
    simp only [perform]
    generalize b.atomic p = called at hend ⊢
    cases hend with
    | alreadyTagged => exact .of_agent htarget
    | unbound => exact .of_agent htarget
    | @performed agent agent' answered latency htag hagent hperform =>
      obtain rfl := Option.some.inj (htarget.symm.trans hagent)
      refine ⟨_, rfl, fun a hclear => ?_⟩
      have hbytes : (m.perform (b.tagged p)).1 = agent' := congrArg Prod.fst hperform
      rw [← hbytes]
      exact m.byteAt_perform_of_apart (hclear (b.tagged p) List.mem_cons_self)
  | functional p => exact reaches_functional htarget hlaid now

end Bridge

/-! ### Runs keep the waiting responses up to date -/

namespace Watched

variable {υ : Type} [Initiator υ] {w : Watched υ}

/-- A functional write is laid over the waiting responses as it reaches the memory. -/
theorem Sound.laid (h : w.Sound) (now : Tick) {operation : Operation υ Memory}
    (front : operation.isFrontCall = true) (hlaid : Bridge.Laid operation) :
    (w.step now (.call operation front)).Sound := by
  refine ⟨h.aligned.perform now operation, ?_⟩
  obtain ⟨m, htarget, hcurrent⟩ := h.current
  obtain ⟨p, rfl, hwrite, hfits, htag⟩ := hlaid
  have hwrite' : (w.bridge.tagged p).isWrite = true := hwrite
  have hfits' : (w.bridge.tagged p).Fitting := hfits
  simp only [step, Bridge.perform, Bridge.functional_of_isWrite htarget hwrite htag]
  refine ⟨_, rfl, ?_⟩
  change List.Forall₂ _ (w.bridge.front.responses.overwrite _).packets _
  rw [TransmitQueue.packets_overwrite, List.forall₂_map_left_iff, List.forall₂_map_right_iff]
  refine hcurrent.imp fun q missed hq => ?_
  have hnone : Effect.unshared [.functional (w.bridge.tagged p)] = [] := by
    simp [Effect.unshared, hwrite', hfits']
  change UpToDate _ _ (missed ++ Effect.unshared [.functional (w.bridge.tagged p)])
  rw [hnone, List.append_nil]
  exact hq.snoop hwrite' hfits'

/-- The functional write of a call that is not laid over the waiting responses is one that they miss. -/
theorem exists_unshared_of_mem_writes {b : Bridge υ Memory} {m : Memory}
    (htarget : b.back.agent = some m) (now : Tick) {operation : Operation υ Memory}
    (hlaid : ¬ Bridge.Laid operation) {p : Packet} (hp : p ∈ (b.turn now operation).writes)
    {a : Address} (hbyte : p.byteFor? a.toNat ≠ none) :
    ∃ q ∈ Effect.unshared (b.perform now operation).effects, q.StoresAt a := by
  cases operation with
  | functional access =>
    simp only [Bridge.turn, Turn.writes] at hp
    split at hp
    next htag =>
      rw [Packet.asWrite] at hp
      split at hp
      next hwrite =>
        obtain rfl := List.mem_singleton.1 hp
        obtain ⟨byte, hsome⟩ := Option.ne_none_iff_exists'.1 hbyte
        have hstores : (b.tagged p).StoresAt a := Packet.storesAt_of_byteFor? hwrite hsome
        refine ⟨b.tagged p, ?_, hstores⟩
        have hmissed : ¬ ((b.tagged p).isWrite = true ∧ (b.tagged p).Fitting) :=
          fun h => hlaid ⟨p, rfl, h.1, h.2, htag⟩
        simp [Bridge.perform, Bridge.functional_of_isWrite htarget hwrite htag, Effect.unshared,
          Outcome.answering, Outcome.within, hmissed]
      next => exact absurd hp List.not_mem_nil
    next => exact absurd hp List.not_mem_nil
  | _ => exact absurd hp List.not_mem_nil

/-- A response that is still waiting after a call has missed what the call did to the memory. -/
theorem Sound.missed (h : w.Sound) (hkeeps : Bridge.KeepsRefused υ Memory .response) (now : Tick)
    {operation : Operation υ Memory} (front : operation.isFrontCall = true)
    (hlaid : ¬ Bridge.Laid operation) : (w.step now (.call operation front)).Sound := by
  refine ⟨h.aligned.perform now operation, ?_⟩
  obtain ⟨m, htarget, hcurrent⟩ := h.current
  obtain ⟨m', htarget', hmemory⟩ := Bridge.reaches_perform htarget now front hlaid
  refine ⟨m', htarget', ?_⟩
  have horder := (Bridge.passesTurn h.aligned now operation .response).order hkeeps
  have hentering : w.bridge.entering now operation .response = [] := by
    cases operation with
    | respond => contradiction
    | _ => rfl
  rw [hentering, List.append_nil] at horder
  -- Each packet that was waiting, departed or not, is paired with what it has missed so far.
  have hpaired := forall₂_chain
    (R := fun p q => Packet.Overwritten (w.bridge.turn now operation).writes q p)
    (T := fun p missed =>
      UpToDate m' p (missed ++ Effect.unshared (w.bridge.perform now operation).effects))
    (fun p q missed hover hq => hq.overwritten hover hmemory fun p hp a hbyte =>
      exists_unshared_of_mem_writes htarget now hlaid hp hbyte)
    horder.flip hcurrent
  have hwaiting := List.forall₂_drop
    (Effect.departures .response (w.bridge.perform now operation).effects).length hpaired
  rw [List.drop_left] at hwaiting
  exact List.forall₂_map_right_iff.2 hwaiting

/-- An answer that the bridge gets joins the waiting responses, or is lost. -/
theorem sound_respond {b : Bridge υ Memory} {m : Memory} {answer : Packet}
    {missed : List (List Packet)} (haligned : b.Aligned) (htarget : b.back.agent = some m)
    (hcurrent : List.Forall₂ (UpToDate m) b.front.responses.packets missed)
    (hanswer : UpToDate m answer []) (now : Tick) :
    Sound ⟨(b.respond now answer).state,
      if (b.respond now answer).answer.isOk then missed ++ [[]] else missed⟩ := by
  refine ⟨haligned.perform now (.respond answer), m, ?_⟩
  have hend := Bridge.reception_respond b now answer
  generalize b.respond now answer = called at hend ⊢
  cases hend with
  | unknown => exact ⟨htarget, hcurrent⟩
  | overflow => exact ⟨htarget, hcurrent⟩
  | @queued route table htake hroom =>
    refine ⟨htarget, ?_⟩
    have hpackets := TransmitQueue.packets_push
      { b.back.crossing.charge answer with destination := some route } (b.back.crossing.readyAt now)
      hroom
    change List.Forall₂ _ (b.pushResponse now answer route).state.packets (missed ++ [[]])
    rw [Bridge.pushResponse, hpackets]
    have hlabels := b.relabelled_relabel .response answer
    rw [Bridge.relabel, RequestTable.route?_of_take htake] at hlabels
    exact List.rel_append hcurrent (.cons (hanswer.relabelled hlabels) .nil)

/-- A request that the memory completes is one that the waiting responses miss. Its answer, if it joins
them, is up to date. -/
theorem Sound.complete (h : w.Sound) (now : Tick) : (w.step now .complete).Sound := by
  obtain ⟨m, htarget, hcurrent⟩ := h.current
  have hmissing (p : Packet) (rest : List Packet) :
      List.Forall₂ (UpToDate ({ m with inService := rest }.perform p).1)
        w.bridge.front.responses.packets (w.missed.map (· ++ [p])) := by
    rw [List.forall₂_map_right_iff]
    refine hcurrent.imp fun q missed hq => hq.overwritten (.refl [] q) (fun a hclear => ?_) nofun
    exact Memory.byteAt_perform_of_apart _ (hclear p List.mem_cons_self)
  rw [Watched.step, htarget]
  dsimp only
  rw [Memory.completeNext]
  cases hservice : m.inService with
  | nil =>
    refine ⟨h.aligned, m, rfl, ?_⟩
    simpa [Bridge.withTarget] using hcurrent
  | cons p rest =>
    dsimp only
    cases hexpects : p.expectsResponse with
    | false =>
      exact ⟨h.aligned, _, rfl, hmissing p rest⟩
    | true =>
      exact sound_respond (b := w.bridge.withTarget _) h.aligned rfl (hmissing p rest)
        (upToDate_answer _ hexpects) now

/-- Whatever happens, each waiting response stays up to date. -/
theorem Sound.step (h : w.Sound) (hkeeps : Bridge.KeepsRefused υ Memory .response) (now : Tick)
    (happening : Happening υ) : (w.step now happening).Sound := by
  cases happening with
  | complete => exact h.complete now
  | call operation front =>
    by_cases hlaid : Bridge.Laid operation
    · exact h.laid now front hlaid
    · exact h.missed hkeeps now front hlaid

theorem Sound.after (h : w.Sound) (hkeeps : Bridge.KeepsRefused υ Memory .response)
    (run : List (Tick × Happening υ)) : (w.after run).Sound := by
  induction run generalizing w with
  | nil => exact h
  | cons call rest ih => exact ih (h.step hkeeps call.1 call.2)

end Watched

end TimedBridge
