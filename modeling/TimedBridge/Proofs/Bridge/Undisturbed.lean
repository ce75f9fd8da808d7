import TimedBridge.Proofs.Bridge.Guise
import TimedBridge.Proofs.Simulation.Agents

/-!
Accesses outside the queues do not disturb timed traffic. Of two runs of a bridge, one has the calls of
the other and more atomic and functional accesses among them. If what the agents answer to timed offers
does not depend on these accesses, both runs give the same answers to the timed calls, hand the same
packets over at the same ticks and ask for the same attempts to send, and the bridge goes through the
same states (`Bridge.undisturbed`). They are the same but for the bytes of packets; with no write among
the further accesses, the bytes are the same too.
-/

namespace TimedBridge

/-! ### What agents answer -/

/-- What an initiator can be told. -/
inductive Notice where
  | offer (packet : Packet)
  | retry
  | advertise (ranges : List AddressRange)

/-- What an initiator answers to the offers among what it is told. -/
def Initiator.answers {υ : Type} [Initiator υ] : υ → List Notice → List Admission
  | _, [] => []
  | agent, .offer p :: rest =>
    (Initiator.offerResponse agent p).2 :: answers (Initiator.offerResponse agent p).1 rest
  | agent, .retry :: rest => answers (Initiator.retryRequest agent) rest
  | agent, .advertise ranges :: rest => answers (Initiator.advertise agent ranges) rest

/-- What a target answers to timed offers, one after another. -/
def Target.answers {δ : Type} [Target δ] : δ → List Packet → List Admission
  | _, [] => []
  | agent, p :: rest =>
    (Target.offerRequest agent p).2 :: answers (Target.offerRequest agent p).1 rest

/-- All that an agent will answer, known in advance. -/
structure Script (μ : Type) where
  answers : List μ → List Admission

namespace Script

variable {μ : Type}

/-- What is left of a script after a message. -/
def after (s : Script μ) (message : μ) : Script μ := ⟨fun rest => s.answers (message :: rest)⟩

/-- The answer to a message, and what is left of the script. -/
def next (s : Script μ) (message : μ) : Script μ × Admission :=
  (⟨fun rest => (s.answers (message :: rest)).tail⟩, (s.answers [message]).headD .accepted)

/-- An agent that answers alike whether or not it is told the message as it was, answers as its script
does. -/
theorem next_of_blind {answers later : List μ → List Admission} {message : μ} {first : Admission}
    {see : μ → μ} {seen : Admission → Admission}
    (hfirst : ∀ rest, answers (message :: rest) = first :: later rest)
    (hblind : ∀ messages, (answers (messages.map see)).map seen = (answers messages).map seen)
    (hsee : see (see message) = see message) :
    (⟨fun messages => (answers messages).map seen⟩ : Script μ).next (see message) =
      (⟨fun messages => (later messages).map seen⟩, seen first) := by
  have hanswers (rest : List μ) :
      (answers (see message :: rest)).map seen = seen first :: (later rest).map seen := by
    rw [← hblind, List.map_cons, hsee, ← List.map_cons, hblind, hfirst, List.map_cons]
  simp only [next, hanswers, List.tail_cons, List.headD_cons]

end Script

instance : Initiator (Script Notice) where
  offerResponse s p := s.next (.offer p)
  retryRequest s := s.after .retry
  advertise s ranges := s.after (.advertise ranges)

instance : Target (Script Packet) where
  offerRequest s p := s.next p
  atomic s p := (s, p, 0)
  functional s p := (s, p)

/-! ### Two levels of detail -/

/-- In what detail two runs are compared. -/
inductive Detail where
  | everything
  /-- The bytes of a packet are not compared, only how many there are. -/
  | allButBytes

namespace Detail

/-- What is to be seen of packets. -/
def guise : Detail → Guise
  | everything => { rename := id, injective := Function.injective_id, recast := id }
  | allButBytes => {
      rename := id
      injective := Function.injective_id
      recast := fun bytes => List.replicate bytes.length 0 }

end Detail

namespace Guise

variable (g : Guise)

def notice : Notice → Notice
  | .offer p => .offer (g.packet p)
  | .retry => .retry
  | .advertise ranges => .advertise ranges

end Guise

/-- The agents' answers to timed offers do not depend on accesses outside the queues, nor on what the
guise hides of the packets that they are offered. -/
structure Impartial (g : Guise) (υ δ : Type) [Initiator υ] [Target δ] : Prop where
  initiator : ∀ (agent : υ) notices,
    (Initiator.answers agent (notices.map g.notice)).map g.admission =
      (Initiator.answers agent notices).map g.admission
  target : ∀ (agent : δ) offers,
    (Target.answers agent (offers.map g.packet)).map g.admission =
      (Target.answers agent offers).map g.admission
  atomic : ∀ (agent : δ) p offers,
    (Target.answers (Target.atomic agent p).1 offers).map g.admission =
      (Target.answers agent offers).map g.admission
  functional : ∀ (agent : δ) p offers,
    (Target.answers (Target.functional agent p).1 offers).map g.admission =
      (Target.answers agent offers).map g.admission

namespace Detail

variable (detail : Detail)

theorem packet_packet (p : Packet) :
    detail.guise.packet (detail.guise.packet p) = detail.guise.packet p := by
  cases detail with
  | everything => simp [guise, Guise.packet]
  | allButBytes => simp [guise, Guise.packet, Function.comp_def]

theorem notice_notice (notice : Notice) :
    detail.guise.notice (detail.guise.notice notice) = detail.guise.notice notice := by
  cases notice with
  | offer p => exact congrArg Notice.offer (detail.packet_packet p)
  | retry => rfl
  | advertise ranges => rfl

variable {υ δ : Type} [Initiator υ] [Target δ] {detail}

/-- What agents look like of which only their answers are known. -/
def look (hpeers : Impartial detail.guise υ δ) : Look υ (Script Notice) δ (Script Packet) where
  toGuise := detail.guise
  initiator agent := ⟨fun notices => (Initiator.answers agent notices).map detail.guise.admission⟩
  target agent := ⟨fun offers => (Target.answers agent offers).map detail.guise.admission⟩
  offerResponse agent p :=
    have hfirst (rest : List Notice) : Initiator.answers agent (.offer p :: rest) =
        (Initiator.offerResponse agent p).2 ::
          Initiator.answers (Initiator.offerResponse agent p).1 rest := rfl
    Script.next_of_blind hfirst (hpeers.initiator agent) (detail.notice_notice (.offer p))
  retryRequest _ := rfl
  advertise _ _ := rfl
  offerRequest agent p :=
    have hfirst (rest : List Packet) : Target.answers agent (p :: rest) =
        (Target.offerRequest agent p).2 :: Target.answers (Target.offerRequest agent p).1 rest := rfl
    Script.next_of_blind hfirst (hpeers.target agent) (detail.packet_packet p)

theorem steady_look (hpeers : Impartial detail.guise υ δ) : (look hpeers).Steady where
  atomic agent p := congrArg Script.mk (funext (hpeers.atomic agent p))
  functional agent p := congrArg Script.mk (funext (hpeers.functional agent p))

end Detail

/-! ### Two runs -/

/-- A run, and a run that has its calls, in the guise, with more accesses outside the queues among them
that the guise overlooks. -/
inductive Inserted {υ δ : Type} (g : Guise) :
    List (Tick × Operation υ δ) → List (Tick × Operation υ δ) → Prop
  | nil : Inserted g [] []
  | keep (now : Tick) {operation operation' : Operation υ δ} {run run' : List (Tick × Operation υ δ)}
      (hsame : operation.recast id id g.packet = operation'.recast id id g.packet)
      (hrest : Inserted g run run') : Inserted g ((now, operation) :: run) ((now, operation') :: run')
  | insert (now : Tick) {operation : Operation υ δ} {run run' : List (Tick × Operation υ δ)}
      (hoverlooked : g.Overlooks operation) (hrest : Inserted g run run') :
      Inserted g run ((now, operation) :: run')

/-- Whether an effect is one on timed traffic. -/
def Effect.isTimed : Effect → Bool
  | .atomic _ | .functional _ => false
  | _ => true

/-- When a call was made, what it did and what it answered, in a guise. -/
def Guise.turn {υ δ : Type} (g : Guise) (t : Turn υ δ) :
    Tick × List Effect × Except BridgeFault Answer :=
  (t.now, t.effects.map g.effect, g.answer g.reply t.answer)

namespace Bridge

variable {υ δ : Type} [Initiator υ] [Target δ]

/-- What the timed calls of a run did and answered, in a guise. -/
def timedTurns (g : Guise) (b : Bridge υ δ) (run : List (Tick × Operation υ δ)) :
    List (Tick × List Effect × Except BridgeFault Answer) :=
  ((b.record run).filter fun t => t.operation.isTimed).map g.turn

/-- What all the calls of a run did to timed traffic, with the ticks: the packets handed over, the
attempts to send asked for, and the retries sent. -/
def traffic (g : Guise) (b : Bridge υ δ) (run : List (Tick × Operation υ δ)) : List (Tick × Effect) :=
  ((b.record run).map g.turn).flatMap fun t => (t.2.1.filter Effect.isTimed).map (t.1, ·)

/-- Two bridges are in the same state, but for their agents and for what is not compared of waiting
packets. -/
structure Agrees (g : Guise) (b b' : Bridge υ δ) : Prop where
  reserved : b'.front.reserved = b.front.reserved
  retry : b'.front.retry = b.front.retry
  table : b'.table = b.table
  queues : ∀ d, g.queue (b'.queue d) = g.queue (b.queue d)

/-- The timed traffic of two runs is the same. -/
structure Undisturbed (g : Guise) (b : Bridge υ δ) (run run' : List (Tick × Operation υ δ)) : Prop where
  turns : b.timedTurns g run' = b.timedTurns g run
  traffic : b.traffic g run' = b.traffic g run
  /-- Whenever the run with more calls has got somewhere, the other one has got there too. -/
  throughout : ∀ before', before' <+: run' →
    ∃ before, before <+: run ∧ Inserted g before before' ∧ (b.after before).Agrees g (b.after before')
  reached : ∀ before, before <+: run →
    ∃ before', before' <+: run' ∧ Inserted g before before' ∧ (b.after before).Agrees g (b.after before')
  ends : (b.after run).Agrees g (b.after run')

end Bridge

/-! ### Calls in both runs -/

namespace Operation

variable {υ υ' δ δ' : Type}

theorem isTimed_recast (operation : Operation υ δ) (initiator : υ → υ') (target : δ → δ')
    (packet : Packet → Packet) :
    (operation.recast initiator target packet).isTimed = operation.isTimed := by
  cases operation <;> rfl

theorem recast_recast (operation : Operation υ δ) (initiator : υ → υ') (target : δ → δ')
    {first packet : Packet → Packet} (hpacket : ∀ p, packet (first p) = packet p) :
    (operation.recast id id first).recast initiator target packet =
      operation.recast initiator target packet := by
  cases operation <;> simp [recast, hpacket]

end Operation

namespace Bridge

variable {υ δ : Type} [Initiator υ] [Target δ]

theorem timedTurns_cons (g : Guise) (b : Bridge υ δ) (now : Tick) (operation : Operation υ δ)
    (run : List (Tick × Operation υ δ)) :
    b.timedTurns g ((now, operation) :: run) =
      (if operation.isTimed then [g.turn (b.turn now operation)] else []) ++
        (b.perform now operation).state.timedTurns g run := by
  rw [timedTurns, record, List.filter_cons]
  change List.map g.turn (if operation.isTimed = true then _ else _) = _
  cases operation.isTimed <;> rfl

theorem traffic_cons (g : Guise) (b : Bridge υ δ) (now : Tick) (operation : Operation υ δ)
    (run : List (Tick × Operation υ δ)) :
    b.traffic g ((now, operation) :: run) =
      (((b.perform now operation).effects.map g.effect).filter Effect.isTimed).map (now, ·) ++
        (b.perform now operation).state.traffic g run := by
  rw [traffic, record, List.map_cons, List.flatMap_cons]
  rfl

/-- An access outside the queues does nothing to timed traffic. -/
theorem untimed_perform (b : Bridge υ δ) (now : Tick) {operation : Operation υ δ}
    (huntimed : operation.isTimed = false) (g : Guise) :
    ((b.perform now operation).effects.map g.effect).filter Effect.isTimed = [] := by
  cases operation with
  | atomic p =>
    have hend := b.atomicAccess_atomic p
    rw [perform]
    dsimp only [Outcome.answering, Outcome.within]
    generalize b.atomic p = called at hend ⊢
    cases hend <;> rfl
  | functional p =>
    have hend := b.functionalAccess_functional p
    rw [perform]
    dsimp only [Outcome.answering, Outcome.within]
    generalize b.functional p = called at hend ⊢
    cases hend <;> rfl
  | _ => contradiction

end Bridge

namespace Detail

variable {υ δ : Type} [Initiator υ] [Target δ] {detail : Detail}

theorem packet_everything (p : Packet) : everything.guise.packet p = p := by
  simp [guise, Guise.packet]

theorem queue_everything (q : TransmitQueue) : everything.guise.queue q = q := by
  have hentry : everything.guise.entry = id := by
    funext e
    rw [Guise.entry, packet_everything]
    rfl
  rw [Guise.queue, hentry, List.map_id]

theorem hidesBytes_allButBytes : allButBytes.guise.HidesBytes := by
  intro bytes bytes' hlength
  change List.replicate bytes.length 0 = List.replicate bytes'.length 0
  rw [hlength]

theorem table_guise (t : RequestTable) : detail.guise.table t = t := by
  have hkeyed : (detail.guise.keyed : RequestId × Route → RequestId × Route) = id := by
    cases detail <;> rfl
  simp [Guise.table, hkeyed]

variable {b b' : Bridge υ δ}

omit [Initiator υ] [Target δ] in
/-- Compared in every detail, the queues are equal. -/
theorem queue_eq_of_agrees (h : b.Agrees everything.guise b') (d : Direction) :
    b'.queue d = b.queue d := by
  rw [← queue_everything (b'.queue d), h.queues d, queue_everything]

variable {hpeers : Impartial detail.guise υ δ}

theorem agrees_of_bridge_eq (h : (look hpeers).bridge b' = (look hpeers).bridge b) :
    b.Agrees detail.guise b' := by
  have htable : detail.guise.table b'.table = detail.guise.table b.table := congrArg Bridge.table h
  rw [table_guise, table_guise] at htable
  refine ⟨congrArg (·.front.reserved) h, congrArg (·.front.retry) h, htable, ?_⟩
  rintro (_ | _)
  · exact congrArg (·.back.requests) h
  · exact congrArg (·.front.responses) h

variable (now : Tick) {operation operation' : Operation υ δ}

/-- A timed call that is made in both runs comes to the same. -/
theorem call_eq (hbridge : (look hpeers).bridge b' = (look hpeers).bridge b)
    (hsame : operation.recast id id detail.guise.packet = operation'.recast id id detail.guise.packet)
    (htimed : operation.isTimed = true) :
    (look hpeers).call detail.guise.reply (b'.perform now operation') =
      (look hpeers).call detail.guise.reply (b.perform now operation) := by
  have htimed' : operation'.isTimed = true := by
    rw [← operation'.isTimed_recast id id detail.guise.packet, ← hsame, operation.isTimed_recast, htimed]
  have hrecast (o : Operation υ δ) : (o.recast id id detail.guise.packet).recast
      (look hpeers).initiator (look hpeers).target (look hpeers).packet = (look hpeers).operation o :=
    o.recast_recast _ _ detail.packet_packet
  have hlook : (look hpeers).operation operation' = (look hpeers).operation operation := by
    rw [← hrecast, ← hrecast, hsame]
  have hcall := (look hpeers).perform_bridge b now htimed
  have hcall' := (look hpeers).perform_bridge b' now htimed'
  rw [hlook, hbridge] at hcall'
  exact hcall'.symm.trans hcall

/-- A functional access that is made in both runs finds the same packets, and changes the same. -/
theorem bridge_functional_eq (hbridge : (look hpeers).bridge b' = (look hpeers).bridge b)
    (heverything : detail = .everything) (p : Packet) :
    (look hpeers).bridge (b'.functional p).state.1 = (look hpeers).bridge (b.functional p).state.1 := by
  subst heverything
  have hagrees := agrees_of_bridge_eq hbridge
  have hrequests : b'.back.requests = b.back.requests := queue_eq_of_agrees hagrees .request
  have hresponses : b'.front.responses = b.front.responses := queue_eq_of_agrees hagrees .response
  have htag : b'.front.tag = b.front.tag := congrArg (·.front.tag) hbridge
  have hsnooped : b'.snooped p = b.snooped p := by
    rw [Bridge.snooped, Bridge.snooped, Bridge.tagged, Bridge.tagged, hrequests, hresponses, htag]
  rw [(steady_look hpeers).bridge_functional, (steady_look hpeers).bridge_functional, hbridge, hsnooped]
  have hqueues := congrArg (fun seen : Bridge (Script Notice) (Script Packet) =>
    seen.withQueues ((look hpeers).queue (b.snooped p).1) ((look hpeers).queue (b.snooped p).2)) hbridge
  split
  next => rfl
  next => exact hqueues

/-- An access outside the queues that is made in both runs leaves the bridge alike in both. -/
theorem state_eq_of_untimed (hbridge : (look hpeers).bridge b' = (look hpeers).bridge b)
    (hsame : operation.recast id id detail.guise.packet = operation'.recast id id detail.guise.packet)
    (huntimed : operation.isTimed = false) :
    (look hpeers).bridge (b'.perform now operation').state =
      (look hpeers).bridge (b.perform now operation).state := by
  have hsteady := steady_look hpeers
  cases operation with
  | atomic p =>
    cases operation' with
    | atomic p' =>
      exact (hsteady.bridge_atomic b' p').trans (hbridge.trans (hsteady.bridge_atomic b p).symm)
    | _ => contradiction
  | functional p =>
    cases operation' with
    | functional p' =>
      cases detail with
      | everything =>
        obtain rfl : p = p' := by
          simpa [Operation.recast, packet_everything] using hsame
        exact bridge_functional_eq hbridge rfl p
      | allButBytes =>
        have hleft := hsteady.bridge_perform b' now
          (show allButBytes.guise.Overlooks (.functional p') from .inr hidesBytes_allButBytes)
        have hright := hsteady.bridge_perform b now
          (show allButBytes.guise.Overlooks (.functional p) from .inr hidesBytes_allButBytes)
        exact hleft.trans (hbridge.trans hright.symm)
    | _ => contradiction
  | _ => contradiction

omit [Initiator υ] [Target δ] in
theorem isTimed_of_overlooks {g : Guise} (h : g.Overlooks operation) : operation.isTimed = false := by
  cases operation with
  | atomic => rfl
  | functional => rfl
  | _ => exact h.elim

variable (hpeers) in
/-- What two runs are alike in when their bridges start alike. -/
theorem alike_of_inserted {run run' : List (Tick × Operation υ δ)}
    (h : Inserted detail.guise run run') (hbridge : (look hpeers).bridge b' = (look hpeers).bridge b) :
    (look hpeers).bridge (b'.after run') = (look hpeers).bridge (b.after run) ∧
      b'.timedTurns detail.guise run' = b.timedTurns detail.guise run ∧
      b'.traffic detail.guise run' = b.traffic detail.guise run := by
  induction h generalizing b b' with
  | nil => exact ⟨hbridge, rfl, rfl⟩
  | @insert now operation run run' hoverlooked _ ih =>
    have huntimed : operation.isTimed = false := isTimed_of_overlooks hoverlooked
    have hstays := (steady_look hpeers).bridge_perform b' now hoverlooked
    obtain ⟨hends, hturns, htraffic⟩ := ih (hstays.trans hbridge)
    refine ⟨hends, ?_, ?_⟩
    · rw [Bridge.timedTurns_cons, huntimed]
      exact hturns
    · rw [Bridge.traffic_cons, b'.untimed_perform now huntimed]
      exact htraffic
  | @keep now operation operation' run run' hsame _ ih =>
    have hkind : operation'.isTimed = operation.isTimed := by
      rw [← operation'.isTimed_recast id id detail.guise.packet, ← hsame, operation.isTimed_recast]
    cases htimed : operation.isTimed with
    | true =>
      have hcall := call_eq now hbridge hsame htimed
      have heffects : (b'.perform now operation').effects.map detail.guise.effect =
          (b.perform now operation).effects.map detail.guise.effect := congrArg Outcome.effects hcall
      have hanswer : detail.guise.answer detail.guise.reply (b'.perform now operation').answer =
          detail.guise.answer detail.guise.reply (b.perform now operation).answer :=
        congrArg Outcome.answer hcall
      obtain ⟨hends, hturns, htraffic⟩ := ih (congrArg Outcome.state hcall)
      refine ⟨hends, ?_, ?_⟩
      · rw [Bridge.timedTurns_cons, Bridge.timedTurns_cons, hkind, hturns, Guise.turn, Guise.turn,
          Bridge.turn, Bridge.turn]
        dsimp only
        rw [heffects, hanswer]
      · rw [Bridge.traffic_cons, Bridge.traffic_cons, htraffic, heffects]
    | false =>
      have hstate := state_eq_of_untimed now hbridge hsame htimed
      obtain ⟨hends, hturns, htraffic⟩ := ih hstate
      refine ⟨hends, ?_, ?_⟩
      · rw [Bridge.timedTurns_cons, Bridge.timedTurns_cons, hkind, htimed, hturns]
        rfl
      · rw [Bridge.traffic_cons, Bridge.traffic_cons, htraffic,
          b.untimed_perform now htimed, b'.untimed_perform now (hkind.trans htimed)]

end Detail

/-! ### Beginnings of runs -/

namespace Inserted

variable {υ δ : Type} {g : Guise} {run run' before before' : List (Tick × Operation υ δ)}

/-- What the longer run has done by some time, the shorter one has done by some time. -/
theorem exists_shorter (h : Inserted g run run') (hbegins : before' <+: run') :
    ∃ before, before <+: run ∧ Inserted g before before' := by
  induction h generalizing before' with
  | nil =>
    obtain rfl := List.prefix_nil.1 hbegins
    exact ⟨[], List.nil_prefix, .nil⟩
  | keep now hsame _ ih =>
    rcases List.prefix_cons_iff.1 hbegins with rfl | ⟨rest', rfl, hrest⟩
    · exact ⟨[], List.nil_prefix, .nil⟩
    · obtain ⟨rest, hbegins', hinserted⟩ := ih hrest
      exact ⟨_ :: rest, List.cons_prefix_cons.2 ⟨rfl, hbegins'⟩, .keep now hsame hinserted⟩
  | insert now hoverlooked _ ih =>
    rcases List.prefix_cons_iff.1 hbegins with rfl | ⟨rest', rfl, hrest⟩
    · exact ⟨[], List.nil_prefix, .nil⟩
    · obtain ⟨rest, hbegins', hinserted⟩ := ih hrest
      exact ⟨rest, hbegins', .insert now hoverlooked hinserted⟩

theorem exists_longer (h : Inserted g run run') (hbegins : before <+: run) :
    ∃ before', before' <+: run' ∧ Inserted g before before' := by
  induction h generalizing before with
  | nil =>
    obtain rfl := List.prefix_nil.1 hbegins
    exact ⟨[], List.nil_prefix, .nil⟩
  | keep now hsame _ ih =>
    rcases List.prefix_cons_iff.1 hbegins with rfl | ⟨rest, rfl, hrest⟩
    · exact ⟨[], List.nil_prefix, .nil⟩
    · obtain ⟨rest', hbegins', hinserted⟩ := ih hrest
      exact ⟨_ :: rest', List.cons_prefix_cons.2 ⟨rfl, hbegins'⟩, .keep now hsame hinserted⟩
  | insert now hoverlooked _ ih =>
    obtain ⟨rest', hbegins', hinserted⟩ := ih hbegins
    exact ⟨_ :: rest', List.cons_prefix_cons.2 ⟨rfl, hbegins'⟩, .insert now hoverlooked hinserted⟩

end Inserted

namespace Bridge

variable {υ δ : Type} [Initiator υ] [Target δ]

/-- Accesses outside the queues do not disturb timed traffic: whatever the state of a bridge, and wherever
among the calls of a run more such accesses are made, the timed calls answer and do the same at the same
ticks, and the bridge goes through the same states. If the accesses may be writes, the bytes of packets
are left out of account, but not how many there are. -/
theorem undisturbed {detail : Detail} (hpeers : Impartial detail.guise υ δ) (b : Bridge υ δ)
    {run run' : List (Tick × Operation υ δ)} (h : Inserted detail.guise run run') :
    b.Undisturbed detail.guise run run' := by
  have hagrees {before before' : List (Tick × Operation υ δ)}
      (hinserted : Inserted detail.guise before before') :
      (b.after before).Agrees detail.guise (b.after before') :=
    Detail.agrees_of_bridge_eq (Detail.alike_of_inserted hpeers hinserted rfl).1
  obtain ⟨-, hturns, htraffic⟩ := Detail.alike_of_inserted hpeers h rfl
  refine ⟨hturns, htraffic, fun before' hbegins => ?_, fun before hbegins => ?_, hagrees h⟩
  · obtain ⟨before, hbegins', hinserted⟩ := h.exists_shorter hbegins
    exact ⟨before, hbegins', hinserted, hagrees hinserted⟩
  · obtain ⟨before', hbegins', hinserted⟩ := h.exists_longer hbegins
    exact ⟨before', hbegins', hinserted, hagrees hinserted⟩

end Bridge

/-! ### A generator and a memory -/

theorem Generator.answers_notice (guise : Guise) (g g' : Generator) (notices : List Notice) :
    Initiator.answers g (notices.map guise.notice) = Initiator.answers g' notices := by
  induction notices generalizing g g' with
  | nil => rfl
  | cons notice rest ih =>
    cases notice with
    | offer p => exact congrArg (Admission.accepted :: ·) (ih _ _)
    | retry => exact ih _ _
    | advertise ranges => exact ih _ _

/-- What a memory answers depends on the number of its offers only. -/
theorem Memory.answers_eq {g : Guise} {f : Packet → Packet} (hf : ∀ p, g.packet (f p) = g.packet p)
    {m m' : Memory} (hoffered : m.offered = m'.offered) (hevery : m.refuseEvery = m'.refuseEvery)
    (offers : List Packet) :
    (Target.answers m (offers.map f)).map g.admission =
      (Target.answers m' offers).map g.admission := by
  induction offers generalizing m m' with
  | nil => rfl
  | cons p rest ih =>
    rw [List.map_cons, Target.answers, Target.answers, List.map_cons, List.map_cons]
    by_cases hrefuses : Refuses m.refuseEvery (m.offered + 1)
    · rw [show Target.offerRequest m (f p) = _ from offer_of_refuses hrefuses]
      rw [hoffered, hevery] at hrefuses
      rw [show Target.offerRequest m' p = _ from offer_of_refuses hrefuses]
      refine List.cons_eq_cons.2 ⟨congrArg Admission.refused (hf p), ih ?_ hevery⟩
      exact congrArg (· + 1) hoffered
    · rw [show Target.offerRequest m (f p) = _ from offer_of_takes hrefuses]
      rw [hoffered, hevery] at hrefuses
      rw [show Target.offerRequest m' p = _ from offer_of_takes hrefuses]
      refine List.cons_eq_cons.2 ⟨rfl, ih ?_ hevery⟩
      exact congrArg (· + 1) hoffered

theorem Memory.answers_perform (g : Guise) (m : Memory) (p : Packet) (offers : List Packet) :
    (Target.answers (m.perform p).1 offers).map g.admission =
      (Target.answers m offers).map g.admission := by
  have hoffered : (m.perform p).1.offered = m.offered := by rw [m.perform_eq p]
  have hevery : (m.perform p).1.refuseEvery = m.refuseEvery := by rw [m.perform_eq p]
  have hanswers := answers_eq (g := g) (f := id) (fun _ => rfl) hoffered hevery offers
  rwa [List.map_id] at hanswers

theorem impartial_memory (detail : Detail) : Impartial detail.guise Generator Memory where
  initiator g notices := by rw [Generator.answers_notice detail.guise g g]
  target _ offers := Memory.answers_eq detail.packet_packet rfl rfl offers
  atomic m p offers := m.answers_perform detail.guise p offers
  functional m p offers := m.answers_perform detail.guise p offers

namespace Bridge

/-- A write that waits for the target, leaves for it, and is answered. -/
def answeredWrite : List (Tick × Operation Generator Memory) := [
  (0, .submit (.write 1 0 [1, 2, 3, 4] 0)),
  (1, .attempt .request),
  (2, .respond (Packet.write 1 0 [1, 2, 3, 4] 0).respond),
  (3, .attempt .response)]

/-- The same write, over which another one is laid while it waits, and an atomic read. -/
def overlaidWrite : List (Tick × Operation Generator Memory) := [
  (0, .submit (.write 1 0 [1, 2, 3, 4] 0)),
  (0, .functional (.write 2 0 [5, 6] 0)),
  (1, .attempt .request),
  (2, .atomic (.read 3 0 4 0)),
  (2, .respond (Packet.write 1 0 [1, 2, 3, 4] 0).respond),
  (3, .attempt .response)]

theorem undisturbed_overlaidWrite :
    ∃ b : Bridge Generator Memory,
      connected "bridge" {} {} { latency := 0, refuseEvery := 0 } = .ok b ∧
      b.Undisturbed Detail.allButBytes.guise answeredWrite overlaidWrite ∧
      (b.after (answeredWrite.take 1)).back.requests.packets.map Packet.data = [some [1, 2, 3, 4]] ∧
      (b.after (overlaidWrite.take 2)).back.requests.packets.map Packet.data = [some [5, 6, 3, 4]] := by
  obtain ⟨b, hb, -⟩ := exists_connected (υ := Generator) (δ := Memory) (c := {}) "bridge" rfl {}
    { latency := 0, refuseEvery := 0 }
  have hinserted : Inserted Detail.allButBytes.guise answeredWrite overlaidWrite :=
    .keep 0 rfl (.insert 0 (.inr Detail.hidesBytes_allButBytes) (.keep 1 rfl (.insert 2 trivial
      (.keep 2 rfl (.keep 3 rfl .nil)))))
  have hbytes : (connected "bridge" {} {} { latency := 0, refuseEvery := 0 } :
      Except BridgeFault (Bridge Generator Memory)).map (fun b =>
        ((b.after (answeredWrite.take 1)).back.requests.packets.map Packet.data,
          (b.after (overlaidWrite.take 2)).back.requests.packets.map Packet.data)) =
      .ok ([some [1, 2, 3, 4]], [some [5, 6, 3, 4]]) := by
    decide +kernel
  rw [hb] at hbytes
  obtain ⟨hbefore, hafter⟩ := Prod.mk.inj (Except.ok.inj hbytes)
  exact ⟨b, hb, undisturbed (impartial_memory .allButBytes) b hinserted, hbefore, hafter⟩

end Bridge

end TimedBridge
