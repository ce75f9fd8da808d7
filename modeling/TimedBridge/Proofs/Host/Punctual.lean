import TimedBridge.Proofs.Agenda
import TimedBridge.Proofs.Bridge.Handling
import TimedBridge.Proofs.Clock
import TimedBridge.Proofs.Host
import TimedBridge.Proofs.TransmitQueue.Prompt

/-!
A bridge whose host makes its attempts when they come due. As long as the agent at the end of a
direction refuses nothing, each packet leaves in that direction at the very tick that its crossing takes
it to, and none waits beyond that tick (`Host.exists_onTime`). Only the head of a queue has an attempt
scheduled; that nobody is late rests on the order of the ticks at which the waiting packets may leave,
and on time that never passes a scheduled attempt.
-/

namespace TimedBridge

namespace Agenda

variable {ε : Type} {a a' : Agenda (HostEvent ε)} {tick : Tick} {event : HostEvent ε} {d : Direction}

theorem now_scheduleSends (a : Agenda (HostEvent ε)) (asked : List (Tick × Direction)) :
    (a.scheduleSends asked).now = a.now := by
  induction asked generalizing a with
  | nil => rfl
  | cons ask rest ih => exact ih _

theorem eq_of_mem_dues {e : Entry (HostEvent ε)} {due : Tick} (h : due ∈ e.dues d) : due = e.due := by
  rw [Entry.dues] at h
  split at h
  next =>
    split at h
    next => exact List.mem_singleton.1 h
    next => exact absurd h List.not_mem_nil
  next => exact absurd h List.not_mem_nil

/-- The next event is not after any attempt that is scheduled. -/
theorem le_due_of_pop (h : a.pop? = some (tick, event, a')) {due : Tick} (hdue : due ∈ a.dues d) :
    tick ≤ due := by
  obtain ⟨hnow, hdues⟩ := dues_of_pop h d
  rw [hdues] at hdue
  rcases List.mem_append.1 hdue with hfirst | hrest
  · exact eq_of_mem_dues hfirst ▸ UInt64.le_refl tick
  · obtain ⟨e, he, hdue⟩ := List.mem_flatMap.1 hrest
    exact hnow ▸ eq_of_mem_dues hdue ▸ (a'.current e he).1

theorem now_le_of_pop (h : a.pop? = some (tick, event, a')) : a.now ≤ tick := by
  obtain ⟨serial, hpending, -⟩ := pending_of_pop h
  exact (a.current _ (hpending ▸ List.mem_cons_self ..)).1

theorem dues_subset_of_pop (h : a.pop? = some (tick, event, a')) (d : Direction) :
    a'.dues d ⊆ a.dues d := by
  rw [(dues_of_pop h d).2]
  exact List.subset_append_right ..

end Agenda

/-! ### What is claimed -/

/-- The packet `e` is the one that arrived, and the tick with it is the one that its crossing takes it
to. -/
structure Arrival.Timely (c : BridgeConfig) (d : Direction) (a : Arrival) (e : Deferred) : Prop where
  crossed : a.entrant.Crossed d e.packet
  tick : e.ready = c.clock.edgeAfter a.tick (c.delay d)

/-- The agent at the end of a direction refuses nothing in a run. -/
def Turn.Unrefused {υ δ : Type} (d : Direction) (log : List (Turn υ δ)) : Prop :=
  ∀ turn ∈ log, ∀ offer ∈ Effect.offersIn d turn.effects, offer.2 = true

instance {υ δ : Type} (d : Direction) (log : List (Turn υ δ)) : Decidable (Turn.Unrefused d log) :=
  inferInstanceAs (Decidable (∀ turn ∈ log, ∀ offer ∈ Effect.offersIn d turn.effects, offer.2 = true))

namespace Bridge

variable {υ δ : Type} [Initiator υ] [Target δ]

theorem record_append (b : Bridge υ δ) (run more : List (Tick × Operation υ δ)) :
    b.record (run ++ more) = b.record run ++ (b.after run).record more := by
  induction run generalizing b with
  | nil => rfl
  | cons call run ih => exact congrArg _ (ih _)

/-- A queue that awaits no retry and is refused nothing awaits none after a call either, and the call
asks for attempts for its head only. -/
theorem content_perform {b : Bridge υ δ} (hwired : b.Wired) (now : Tick) (operation : Operation υ δ)
    {d : Direction} (hq : (b.queue d).awaitingRetry = false)
    (htaken : ∀ offer ∈ Effect.offersIn d (b.perform now operation).effects, offer.2 = true) :
    ((b.perform now operation).state.queue d).awaitingRetry = false ∧
      ((b.perform now operation).state.queue d).ForHead now
        (Effect.asksFor d (b.perform now operation).effects) := by
  by_cases hattempt : ∃ sending, operation = .attempt sending
  · obtain ⟨sending, rfl⟩ := hattempt
    by_cases hd : d = sending
    · subst hd
      have hsending := sending_attempt hwired now d
      refine ⟨hsending.content hq fun packet hmem => ?_, hsending.forHead⟩
      rw [show (b.queue d).attemptDue.direction = d from hwired.direction d] at hmem
      exact nomatch htaken _ (Effect.mem_offersIn.2 (Effect.mem_offers.1 hmem))
    · obtain ⟨hqueue, hasks⟩ := other_attempt hwired now hd
      rw [hqueue, hasks]
      exact ⟨hq, TransmitQueue.forHead_nil _ _⟩
  · have hmoves := moves_perform hwired now (not_exists.1 hattempt) d
    exact ⟨hmoves.content hq, hmoves.forHead hq⟩

end Bridge

namespace Host

variable {υ δ ε : Type}

/-- The calls on the bridge that an action comes to, and when. -/
def called (s : Host υ δ ε) : Action υ δ ε → List (Tick × Operation υ δ)
  | .call operation => [(s.agenda.now, operation)]
  | .schedule _ _ => []
  | .next =>
    match s.agenda.pop? with
    | some (tick, .send d, _) => [(tick, .attempt d)]
    | _ => []

/-- In a direction each packet has left, or waits to leave, at the tick that its crossing takes it to,
and none of those that wait has been passed by time. -/
structure OnTime (s : Host υ δ ε) (c : BridgeConfig) (d : Direction) (log : List (Turn υ δ)) :
    Prop where
  passage : List.Forall₂ (Arrival.Timely c d) (Turn.arrivals d log)
    (Turn.leavings d log ++ (s.bridge.queue d).entries)
  ahead : ∀ e ∈ (s.bridge.queue d).entries, s.agenda.now ≤ e.ready

/-! ### The invariant -/

/-- The invariant of a host whose agent at the end of a direction has refused nothing. -/
structure Punctual (s : Host υ δ ε) (c : BridgeConfig) (d : Direction) (log : List (Turn υ δ)) :
    Prop where
  settings : s.bridge.settings = c.settings
  prompt : (s.bridge.queue d).Prompt s.agenda.now (c.clock.edgeAfter s.agenda.now (c.delay d))
    (s.agenda.dues d)
  passage : List.Forall₂ (Arrival.Timely c d) (Turn.arrivals d log)
    (Turn.leavings d log ++ (s.bridge.queue d).entries)

variable {c : BridgeConfig} {d : Direction} {log : List (Turn υ δ)} {s : Host υ δ ε}

theorem Punctual.start {name : String} {initiator : υ} {target : δ} {b : Bridge υ δ}
    (hb : Bridge.connected name c initiator target = .ok b) (hfresh : b.Fresh c) (d : Direction) :
    (start b : Host υ δ ε).Punctual c d [] := by
  obtain ⟨capacity, hqueue⟩ := hfresh.queue_eq d
  have hentries : (b.queue d).entries = [] := by rw [hqueue]
  refine ⟨Bridge.settings_of_connected hb, ⟨by rw [Host.start, hqueue], ?_, ?_, ?_, ?_⟩, ?_⟩
  all_goals rw [Host.start, hentries]
  · exact .nil
  · exact fun _ hmem => absurd hmem List.not_mem_nil
  · exact fun _ hmem => absurd hmem List.not_mem_nil
  · exact nofun
  · exact .nil

/-- While a packet waits, an attempt is scheduled, so time does not pass the tick from which the head may
leave. -/
theorem Punctual.pop (h : s.Punctual c d log)
    (hawake : (s.bridge.queue d).AwakeOnce (s.agenda.dues d)) {tick : Tick} {event : HostEvent ε}
    {agenda : Agenda (HostEvent ε)} (hpop : s.agenda.pop? = some (tick, event, agenda)) :
    Punctual { s with agenda } c d log := by
  have hnow : agenda.now = tick := (Agenda.dues_of_pop hpop d).1
  refine ⟨h.settings, h.prompt.later ?_ ?_ (Agenda.dues_subset_of_pop hpop d), h.passage⟩
  · exact c.clock.edgeAfter_mono (hnow ▸ Agenda.now_le_of_pop hpop) _
  · intro ready hready
    have hentries : (s.bridge.queue d).entries ≠ [] := by
      intro hnil
      rw [hnil] at hready
      contradiction
    -- The one attempt that is scheduled is for the head, and the next event does not come after it.
    have hcount := hawake.count
    rw [hawake.busy hentries, h.prompt.content] at hcount
    obtain ⟨due, hdues⟩ := List.length_eq_one_iff.1 hcount
    have hmem : due ∈ s.agenda.dues d := hdues ▸ List.mem_singleton_self due
    exact hnow ▸ UInt64.le_trans (Agenda.le_due_of_pop hpop hmem) (h.prompt.due ready hready due hmem)

theorem Punctual.onTime (h : s.Punctual c d log) : s.OnTime c d log :=
  ⟨h.passage, fun e he => h.prompt.ahead e.ready (List.mem_map_of_mem he)⟩

/-! ### The run of the bridge -/

variable [Initiator υ] [Target δ]

/-- The run of the bridge that a sequence of actions comes to. -/
def calls (s : Host υ δ ε) : List (Action υ δ ε) → List (Tick × Operation υ δ)
  | [] => []
  | action :: rest => s.called action ++ (s.act action).calls rest

theorem bridge_act (s : Host υ δ ε) (action : Action υ δ ε) :
    (s.act action).bridge = s.bridge.after (s.called action) := by
  cases action with
  | call operation => rfl
  | schedule event tick => rfl
  | next =>
    rw [act, next, called]
    cases hpop : s.agenda.pop? with
    | none => rfl
    | some popped =>
      obtain ⟨tick, event, agenda⟩ := popped
      cases event with
      | other event => rfl
      | send d =>
        have hnow := (Agenda.dues_of_pop hpop d).1
        simp only [call, hnow]
        rfl

theorem bridge_after (s : Host υ δ ε) (actions : List (Action υ δ ε)) :
    (s.after actions).bridge = s.bridge.after (s.calls actions) := by
  induction actions generalizing s with
  | nil => rfl
  | cons action rest ih =>
    rw [calls, Bridge.after_append, ← bridge_act]
    exact ih _

/-- What holds at the start and is kept by each action, with the calls that it comes to added to the
record, holds at the end. -/
theorem run_induction {P : List (Turn υ δ) → Host υ δ ε → Prop} {s : Host υ δ ε}
    {actions : List (Action υ δ ε)} (start : P [] s)
    (step : ∀ log s, ∀ action ∈ actions, P log s →
      P (log ++ s.bridge.record (s.called action)) (s.act action)) :
    P (s.bridge.record (s.calls actions)) (s.after actions) := by
  suffices h : ∀ log, P log s → P (log ++ s.bridge.record (s.calls actions)) (s.after actions) from
    h [] start
  clear start
  induction actions generalizing s with
  | nil =>
    intro log h
    rw [calls, Bridge.record, List.append_nil]
    exact h
  | cons action rest ih =>
    intro log h
    have hfirst := step log s action (List.mem_cons_self ..) h
    have hrest := ih (fun log s action hmem => step log s action (.tail _ hmem)) _ hfirst
    rw [calls, Bridge.record_append, ← bridge_act, ← List.append_assoc]
    exact hrest

/-! ### Calls -/

/-- A call keeps the invariant; an attempt is made only when no other one is scheduled. -/
theorem Punctual.call (h : s.Punctual c d log) (hwired : s.bridge.Wired) {operation : Operation υ δ}
    (hidle : (s.bridge.queue d).entries = [] → s.agenda.dues d = [])
    (hsend : operation = .attempt d → s.agenda.dues d = [])
    (htaken : ∀ offer ∈ Effect.offersIn d (s.bridge.turn s.agenda.now operation).effects,
      offer.2 = true) :
    (s.call operation).Punctual c d (log ++ [s.bridge.turn s.agenda.now operation]) := by
  have hhandles := Bridge.handles_perform s.agenda.now hwired.direction operation d
  have hready : ((s.bridge.settings.crossing d).readyAt s.agenda.now) =
      c.clock.edgeAfter s.agenda.now (c.delay d) := by
    rw [h.settings]
    rfl
  have hlatest := c.clock.le_edgeAfter s.agenda.now (c.delay d)
  obtain ⟨hcontent, hasks⟩ :=
    Bridge.content_perform hwired s.agenda.now operation h.prompt.content htaken
  refine ⟨(Bridge.settings_perform ..).trans h.settings, ?_, ?_⟩
  · refine TransmitQueue.Prompt.perm ?_ (s.dues_call operation d).symm
    rw [Host.call, Agenda.now_scheduleSends]
    cases hhandles with
    | stay hentered hoffers hentries =>
      exact h.prompt.stay hcontent (Deferred.ready_of_held hentries) hasks
    | join p hentered huntagged hoffers hentries =>
      refine h.prompt.join hcontent ?_ hlatest hidle hasks
      rw [hentries, List.map_append, ← hready]
      rfl
    | send hentered hwrites hcause hentries =>
      have hdues : s.agenda.dues d = [] := by
        rcases hcause with hattempt | ⟨-, hawaiting⟩
        · exact hsend hattempt
        · rw [h.prompt.content] at hawaiting
          contradiction
      have hprompt := h.prompt
      rw [hdues] at hprompt ⊢
      generalize hold : (s.bridge.queue d).entries = old,
        hnew : ((s.bridge.perform _ _).state.queue d).entries = new, Effect.offersIn d _ = offers
        at hentries htaken
      cases hentries with
      | none => exact hprompt.stay hcontent (by rw [hold]; exact congrArg _ hnew) hasks
      | taken hdue => exact hprompt.leave hcontent (by rw [hold]; exact congrArg _ hnew.symm) hasks
      | refused hdue => exact nomatch htaken _ (List.mem_singleton_self _)
  · refine hhandles.forall₂_arrivals h.passage (.inr htaken) ?_ ?_ ?_
    · intro a e e' htimely hheld
      exact ⟨htimely.crossed.later hheld.packet, hheld.ready.trans htimely.tick⟩
    · exact fun p _ _ => ⟨s.bridge.crossed_joining d _ p, hready⟩
    · -- The head may leave now, and now has not passed the tick from which it may.
      intro a head rest hentries hdue htimely
      have hahead := h.prompt.ahead head.ready
        (by rw [hentries]; exact List.mem_cons_self ..)
      exact ⟨htimely.crossed, (UInt64.le_antisymm hahead hdue).trans htimely.tick⟩

theorem Punctual.act (h : s.Punctual c d log) (htended : s.TendedOnce) {action : Action υ δ ε}
    (hattempt : ∀ d, action ≠ .call (.attempt d))
    (htaken : Turn.Unrefused d (s.bridge.record (s.called action))) :
    (s.act action).Punctual c d (log ++ s.bridge.record (s.called action)) := by
  have hawake := htended.awake d
  have hidle : (s.bridge.queue d).entries = [] → s.agenda.dues d = [] := fun hnil =>
    hawake.dues_eq_nil (hawake.idle hnil).1
  cases action with
  | call operation =>
    refine h.call htended.wired hidle (fun heq => ?_) (htaken _ (List.mem_singleton_self _))
    exact absurd (congrArg Action.call heq) (hattempt d)
  | schedule event tick =>
    rw [called, Bridge.record, List.append_nil]
    exact ⟨h.settings, h.prompt.perm (s.agenda.dues_schedule (.other event) tick d).symm, h.passage⟩
  | next =>
    rw [Host.act, Host.next, called]
    rw [called] at htaken
    cases hpop : s.agenda.pop? with
    | none =>
      rw [Bridge.record, List.append_nil]
      exact h
    | some popped =>
      obtain ⟨tick, event, agenda⟩ := popped
      have hlater := h.pop hawake hpop
      cases event with
      | other event =>
        rw [Bridge.record, List.append_nil]
        exact hlater
      | send sending =>
        rw [hpop] at htaken
        dsimp only at htaken ⊢
        obtain rfl := (Agenda.dues_of_pop hpop d).1
        refine hlater.call htended.wired (fun hnil => ?_) (fun heq => ?_)
          (htaken _ (List.mem_singleton_self _))
        · exact List.eq_nil_of_subset_nil (hidle hnil ▸ Agenda.dues_subset_of_pop hpop d)
        · obtain rfl : sending = d := Operation.attempt.inj heq
          exact (htended.due hpop).1

/-- As long as the agent refuses nothing, every sequence of actions keeps the invariant. -/
theorem punctual_after {name : String} {initiator : υ} {target : δ} {b : Bridge υ δ}
    (hb : Bridge.connected name c initiator target = .ok b) (hfresh : b.Fresh c)
    (hconnected : b.isConnected = true) {actions : List (Action υ δ ε)}
    (hattempt : ∀ action ∈ actions, ∀ d, action ≠ .call (.attempt d)) (d : Direction)
    (htaken : Turn.Unrefused d (b.record ((start b).calls actions))) :
    ((start b).after actions).Punctual c d (b.record ((start b).calls actions)) := by
  suffices hkept : ((start b).after actions).TendedOnce ∧
      (Turn.Unrefused d (b.record ((start b).calls actions)) →
        ((start b).after actions).Punctual c d (b.record ((start b).calls actions))) from
    hkept.2 htaken
  refine run_induction (P := fun log s => s.TendedOnce ∧ (Turn.Unrefused d log → s.Punctual c d log))
    ⟨⟨hfresh.wired hconnected, hfresh.awakeOnce⟩, fun _ => .start hb hfresh d⟩ ?_
  intro log s action hmem ⟨htended, hpunctual⟩
  refine ⟨htended.act (hattempt action hmem), fun hlog => ?_⟩
  obtain ⟨hbefore, hnow⟩ := List.forall_mem_append.1 hlog
  exact (hpunctual hbefore).act htended (hattempt action hmem) hnow

/-- A host that starts with a bridge of accepted settings whose agents are bound and with an empty agenda
carries out a run of that bridge. If it makes attempts only when they come due, and the agent at the end
of a direction refuses nothing, then the packets of that direction are on time. -/
theorem exists_onTime (name : String) (valid : c.validate = .ok ()) (initiator : υ) (target : δ) :
    ∃ b, Bridge.connected name c initiator target = .ok b ∧
      ∀ actions : List (Action υ δ ε),
        ((start b).after actions).bridge = b.after ((start b).calls actions) ∧
          ((∀ action ∈ actions, ∀ d, action ≠ .call (.attempt d)) →
            ∀ d, Turn.Unrefused d (b.record ((start b).calls actions)) →
              ((start b).after actions).OnTime c d (b.record ((start b).calls actions))) := by
  obtain ⟨b, hb, hfresh, hconnected⟩ := Bridge.exists_connected name valid initiator target
  refine ⟨b, hb, fun actions => ⟨bridge_after _ actions, fun hattempt d htaken => ?_⟩⟩
  exact (punctual_after hb hfresh hconnected hattempt d htaken).onTime

/-- A bridge with an edge every third tick, where requests take two cycles to cross. -/
def slow : BridgeConfig := { clockPeriod := 3, requestDelay := 2 }

/-- Two reads are submitted between two edges, and their attempts come due. -/
def twoReads : List (Action Generator Memory Unit) :=
  [.schedule () 4, .next, .call (.submit (.read 1 0 4 0)), .call (.submit (.read 2 8 4 0)), .next,
    .next]

theorem onTime_twoReads :
    ∃ b, Bridge.connected "slow" slow ({} : Generator) Bridge.readyMemory = .ok b ∧
      ((start b).after twoReads).OnTime slow .request (b.record ((start b).calls twoReads)) ∧
      (Turn.leavings .request (b.record ((start b).calls twoReads))).map Deferred.ready =
        [12, 12] := by
  have valid : slow.validate = .ok () := rfl
  obtain ⟨b, hb, hpunctual⟩ := exists_onTime "slow" valid ({} : Generator) Bridge.readyMemory
  have hattempt : ∀ action ∈ twoReads, ∀ d, action ≠ .call (.attempt d) := by
    intro action hmem d heq
    rw [heq] at hmem
    simp [twoReads] at hmem
  have htaken : Turn.Unrefused .request (b.record ((start b).calls twoReads)) := by
    obtain rfl := Except.ok.inj hb
    decide
  refine ⟨b, hb, (hpunctual twoReads).2 hattempt .request htaken, ?_⟩
  obtain rfl := Except.ok.inj hb
  rfl

end Host

end TimedBridge
