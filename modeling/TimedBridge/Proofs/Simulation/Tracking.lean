import TimedBridge.Proofs.Bridge.Handling
import TimedBridge.Proofs.Simulation.Bookkeeping
import TimedBridge.Proofs.Simulation.Transit

/-!
A simulation keeps track of the accesses in transit. Each call on the bridge carries at most one of them
on, an event issues some or carries one (`moves_dispatch`), and looking after the agents counts the
responses that have arrived (`counts_lookAfter`).
-/

namespace TimedBridge

open Relation (ReflTransGen)

/-! ### Calls on the bridge -/

namespace Bridge

variable {b : Bridge Generator Memory} {g : Generator} {m : Memory} {v : Transit} {notes : Notes}
  {scheduled : List Tick}

/-- The accesses in transit through a bridge between a generator and a memory; completions of what the
memory has taken last are still to be scheduled. -/
def transit (b : Bridge Generator Memory) (g : Generator) (m : Memory) (notes : Notes)
    (scheduled : List Tick) : Transit where
  toNotes := notes
  outward := b.front.crossing
  homeward := b.back.crossing
  latency := m.latency
  unissued := g.pending.map fun i => i.packet.id
  requests := b.back.requests.waiting
  serving := m.inService.map Packet.id
  completions := scheduled ++ List.replicate m.newlyAccepted (cappedAdd notes.now m.latency)
  responses := b.front.responses.waiting
  arrived := g.responses.map Packet.id

/-- The bridge is between a generator and a memory, with the given accesses in transit. -/
def Tracks (b : Bridge Generator Memory) (notes : Notes) (scheduled : List Tick) (v : Transit) :
    Prop :=
  ∃ g m, b.front.agent = some g ∧ b.back.agent = some m ∧ b.transit g m notes scheduled = v

theorem Tracks.notes_eq (h : b.Tracks notes scheduled v) : v.toNotes = notes := by
  obtain ⟨g, m, -, -, rfl⟩ := h
  rfl

/-- What is noted beside a bridge does not concern it. -/
theorem Tracks.noted (h : b.Tracks notes scheduled v) (notes' : Notes) (hnow : notes'.now = notes.now) :
    b.Tracks notes' scheduled { v with toNotes := notes' } := by
  obtain ⟨g, m, hinitiator, htarget, rfl⟩ := h
  refine ⟨g, m, hinitiator, htarget, ?_⟩
  rw [transit, hnow]
  rfl

/-! ### Packets leave -/

theorem Tracks.sendOwedRetry (h : b.Tracks notes scheduled v) :
    b.sendOwedRetry.state.Tracks notes scheduled v := by
  obtain ⟨g, m, hinitiator, htarget, rfl⟩ := h
  rw [(sendOwedRetry_of_bound hinitiator).1, wake]
  split
  next => exact ⟨g, m, hinitiator, htarget, rfl⟩
  next => exact ⟨_, m, rfl, htarget, rfl⟩

/-- The bridge tracks what it did, or the oldest access has gone on. -/
def Carries (b : Bridge Generator Memory) (notes : Notes) (scheduled : List Tick) (v : Transit) :
    Prop :=
  ∃ v', b.Tracks notes scheduled v' ∧ (v' = v ∨ v.Carries v')

theorem Tracks.stays (h : b.Tracks notes scheduled v) : b.Carries notes scheduled v :=
  ⟨v, h, .inl rfl⟩

/-- The memory takes the oldest request, or nothing goes on. -/
theorem Tracks.trySendRequest (h : b.Tracks notes scheduled v) :
    (b.trySendRequest notes.now).state.Carries notes scheduled v := by
  obtain ⟨g, m, hinitiator, htarget, rfl⟩ := h
  have hend := b.requestSending_trySendRequest notes.now
  generalize b.trySendRequest notes.now = called at hend ⊢
  cases hend with
  | unbound hagent => simp [htarget] at hagent
  | empty hagent hentries => exact Tracks.stays ⟨g, m, hinitiator, htarget, rfl⟩
  | early hagent hentries hearly =>
    obtain rfl := Option.some.inj (htarget.symm.trans hagent)
    refine Tracks.stays ⟨g, m, hinitiator, rfl, ?_⟩
    simp only [transit, setBack, TransmitQueue.waiting, TransmitQueue.entries_arm]
  | @refused agent agent' head rest packet hagent hentries hdue hoffer =>
    obtain rfl := Option.some.inj (htarget.symm.trans hagent)
    obtain ⟨-, rfl, rfl⟩ := Memory.refuses_of_offer_refused hoffer
    refine Tracks.stays ⟨g, _, hinitiator, rfl, ?_⟩
    simp only [transit, setBack, TransmitQueue.waiting, hentries, List.map_cons]
  | @taken agent agent' head rest hagent hentries hdue hoffer =>
    obtain rfl := Option.some.inj (htarget.symm.trans hagent)
    have hrequests : (b.transit g m notes scheduled).requests =
        head.waiting :: rest.map Deferred.waiting :=
      congrArg (List.map Deferred.waiting) hentries
    obtain ⟨-, rfl⟩ := Memory.takes_of_offer_accepted hoffer
    refine ⟨_, Tracks.sendOwedRetry ⟨g, _, hinitiator, rfl, ?_⟩, .inr (.taken hrequests hdue)⟩
    simp only [transit, setBack, TransmitQueue.waiting, TransmitQueue.entries_armForHead,
      List.map_append, List.replicate_succ', List.append_assoc]
    rfl

/-- The generator takes the oldest response. -/
theorem carries_departure (htarget : b.back.agent = some m) {head : Deferred} {rest : List Deferred}
    (hentries : b.front.responses.entries = head :: rest) (hdue : head.ready ≤ notes.now) :
    ∃ v', (b.setFront ({ b.front.responses with entries := rest }.armForHead notes.now).state
      { g with responses := g.responses ++ [head.packet] }).Tracks notes scheduled v' ∧
        (b.transit g m notes scheduled).Carries v' := by
  have hresponses : (b.transit g m notes scheduled).responses =
      head.waiting :: rest.map Deferred.waiting :=
    congrArg (List.map Deferred.waiting) hentries
  refine ⟨_, ⟨_, m, rfl, htarget, ?_⟩, .returned hresponses hdue⟩
  simp only [transit, setFront, TransmitQueue.waiting, TransmitQueue.entries_armForHead,
    List.map_append]
  rfl

/-- The generator takes the oldest response, or nothing goes on. -/
theorem Tracks.trySendResponse (h : b.Tracks notes scheduled v) :
    (b.trySendResponse notes.now).state.Carries notes scheduled v := by
  obtain ⟨g, m, hinitiator, htarget, rfl⟩ := h
  have hend := b.responseSending_trySendResponse notes.now
  generalize b.trySendResponse notes.now = called at hend ⊢
  cases hend with
  | unbound hagent => simp [hinitiator] at hagent
  | empty hagent hentries => exact Tracks.stays ⟨g, m, hinitiator, htarget, rfl⟩
  | early hagent hentries hearly =>
    obtain rfl := Option.some.inj (hinitiator.symm.trans hagent)
    refine Tracks.stays ⟨g, m, rfl, htarget, ?_⟩
    simp only [transit, setFront, TransmitQueue.waiting, TransmitQueue.entries_arm]
  | refused hagent hentries hdue hoffer => simp [Initiator.offerResponse] at hoffer
  | unreserved hagent hentries hdue hoffer hreserved =>
    obtain rfl := Option.some.inj (hinitiator.symm.trans hagent)
    obtain ⟨rfl, -⟩ := Prod.mk.inj hoffer
    obtain ⟨v', htracks, hcarries⟩ := carries_departure htarget hentries hdue
    exact ⟨v', htracks, .inr hcarries⟩
  | takenFull hagent hentries hdue hoffer hreserved hfull =>
    obtain rfl := Option.some.inj (hinitiator.symm.trans hagent)
    obtain ⟨rfl, -⟩ := Prod.mk.inj hoffer
    obtain ⟨v', htracks, hcarries⟩ := carries_departure htarget hentries hdue
    exact ⟨v', htracks, .inr hcarries⟩
  | @taken _ _ _ _ reserved hagent hentries hdue hoffer hreserved hfull =>
    obtain rfl := Option.some.inj (hinitiator.symm.trans hagent)
    obtain ⟨rfl, -⟩ := Prod.mk.inj hoffer
    obtain ⟨v', htracks, hcarries⟩ := carries_departure htarget hentries hdue
    exact ⟨v', Tracks.sendOwedRetry (b := (b.setFront _ _).releaseSlot reserved) htracks, .inr hcarries⟩

theorem Tracks.attempt (h : b.Tracks notes scheduled v) (d : Direction) :
    (b.attempt notes.now d).state.Carries notes scheduled v := by
  cases d with
  | request =>
    have hdue : { b with back := { b.back with requests := b.back.requests.attemptDue } }.Tracks notes
        scheduled v := h
    exact hdue.trySendRequest
  | response =>
    have hdue : { b with front := { b.front with responses := b.front.responses.attemptDue } }.Tracks
        notes scheduled v := h
    exact hdue.trySendResponse

theorem Tracks.requestRetry (h : b.Tracks notes scheduled v) :
    (b.requestRetry notes.now).state.Carries notes scheduled v := by
  rw [Bridge.requestRetry, TransmitQueue.takeRetry]
  split
  next heq =>
    split at heq
    next => contradiction
    next => exact h.stays
  next heq =>
    split at heq
    next =>
      cases heq
      have htaken : { b with back := { b.back with
          requests := { b.back.requests with awaitingRetry := false } } }.Tracks notes scheduled v := h
      exact htaken.trySendRequest
    next => contradiction

/-! ### Packets come -/

/-- The memory answers. -/
theorem Tracks.respond {p : Packet} (h : b.Tracks notes scheduled v)
    (hok : (b.respond notes.now p).answer = .ok ()) :
    (b.respond notes.now p).state.Tracks notes scheduled
      { v with responses := v.responses ++ [⟨p.id, v.homeward.readyAt notes.now⟩] } := by
  obtain ⟨g, m, hinitiator, htarget, rfl⟩ := h
  have hend := b.reception_respond notes.now p
  generalize b.respond notes.now p = called at hend hok ⊢
  cases hend with
  | unknown => contradiction
  | overflow => contradiction
  | queued htake hroom =>
    refine ⟨g, m, hinitiator, htarget, ?_⟩
    simp only [transit, pushResponse, TransmitQueue.waiting_push _ _ hroom, Crossing.id_charge]

/-- A timed access is handed back. -/
theorem Tracks.submit_refused {p q : Packet} (h : b.Tracks notes scheduled v)
    (hrefused : (b.submit notes.now p).answer = .ok (.refused q)) :
    q = p ∧ (b.submit notes.now p).state.Tracks notes scheduled v := by
  obtain ⟨g, m, hinitiator, htarget, rfl⟩ := h
  have hend := b.submission_submit notes.now p
  generalize b.submit notes.now p = called at hend hrefused ⊢
  cases hend with
  | early => contradiction
  | refused =>
    cases hrefused
    exact ⟨rfl, g, m, hinitiator, htarget, rfl⟩
  | alreadyTagged => contradiction
  | duplicate => contradiction
  | accepted => cases hrefused

/-- A timed access is let in. -/
theorem Tracks.submit_accepted {p : Packet} (h : b.Tracks notes scheduled v)
    (haccepted : (b.submit notes.now p).answer = .ok .accepted) :
    (b.submit notes.now p).state.Tracks notes scheduled
      { v with requests := v.requests ++ [⟨p.id, v.outward.readyAt notes.now⟩] } := by
  obtain ⟨g, m, hinitiator, htarget, rfl⟩ := h
  have hend := b.submission_submit notes.now p
  generalize b.submit notes.now p = called at hend haccepted ⊢
  cases hend with
  | early => contradiction
  | refused => cases haccepted
  | alreadyTagged => contradiction
  | duplicate => contradiction
  | accepted hretry hroom htag hsave =>
    refine ⟨g, m, hinitiator, htarget, ?_⟩
    simp only [transit, pushRequest, TransmitQueue.waiting_push _ _ hroom.1, Crossing.id_charge]

/-- A generator that has been handed its access back has it to issue again. -/
theorem Tracks.stall (h : b.Tracks notes scheduled v) {g : Generator}
    (hinitiator : b.front.agent = some g) (i : Issue) :
    (b.withInitiator (g.stall i)).Tracks notes scheduled
      { v with unissued := i.packet.id :: v.unissued } := by
  obtain ⟨g', m, hinitiator', htarget, rfl⟩ := h
  obtain rfl := Option.some.inj (hinitiator.symm.trans hinitiator')
  exact ⟨_, m, rfl, htarget, rfl⟩

/-- A generator from which the next access has been taken has the others to issue. -/
theorem Tracks.next (h : b.Tracks notes scheduled v) {g : Generator}
    (hinitiator : b.front.agent = some g) {i : Issue} {rest : List Issue}
    (hpending : g.pending = i :: rest) :
    ∃ u : Transit, (b.withInitiator { g with pending := rest }).Tracks notes scheduled u ∧
      v = { u with unissued := i.packet.id :: u.unissued } := by
  obtain ⟨g', m, hinitiator', htarget, rfl⟩ := h
  obtain rfl := Option.some.inj (hinitiator.symm.trans hinitiator')
  refine ⟨_, ⟨_, m, rfl, htarget, rfl⟩, ?_⟩
  rw [transit, hpending]
  rfl

/-! ### Accesses that are made at once -/

/-- An access that is made at once changes no more than bytes. -/
theorem tracks_performed {responses requests : TransmitQueue} {p : Packet} {m' : Memory}
    (hresponses : responses.waiting = b.front.responses.waiting)
    (hrequests : requests.waiting = b.back.requests.waiting) (hm : (m.perform p).1 = m')
    (hinitiator : b.front.agent = some g) :
    ((b.withQueues responses requests).withTarget m').Tracks notes scheduled
      (b.transit g m notes scheduled) := by
  refine ⟨g, m', hinitiator, rfl, ?_⟩
  rw [← hm, m.perform_eq p]
  simp only [transit, withTarget, withQueues, hresponses, hrequests]

theorem Tracks.atomic {p : Packet} {latency : Tick} (h : b.Tracks notes scheduled v)
    (hok : (b.atomic p).answer = .ok latency) :
    (b.atomic p).state.1.Tracks notes scheduled v := by
  obtain ⟨g, m, hinitiator, htarget, rfl⟩ := h
  have hend := b.atomicAccess_atomic p
  generalize b.atomic p = called at hend hok ⊢
  cases hend with
  | alreadyTagged => contradiction
  | unbound => contradiction
  | performed htag hagent hperform =>
    obtain rfl := Option.some.inj (htarget.symm.trans hagent)
    exact tracks_performed rfl rfl (congrArg Prod.fst hperform) hinitiator

theorem Tracks.functional {p : Packet} (h : b.Tracks notes scheduled v)
    (hok : (b.functional p).answer = .ok ()) :
    (b.functional p).state.1.Tracks notes scheduled v := by
  obtain ⟨g, m, hinitiator, htarget, rfl⟩ := h
  have hend := b.functionalAccess_functional p
  generalize b.functional p = called at hend hok ⊢
  cases hend with
  | alreadyTagged => contradiction
  | byResponse htag hresponses =>
    refine ⟨g, m, hinitiator, htarget, ?_⟩
    simp only [transit, withQueues, TransmitQueue.waiting_snoop hresponses]
  | byRequest htag hresponses hrequests =>
    refine ⟨g, m, hinitiator, htarget, ?_⟩
    simp only [transit, withQueues, TransmitQueue.waiting_snoop hresponses,
      TransmitQueue.waiting_snoop hrequests]
  | unbound => contradiction
  | performed htag hresponses hrequests hagent hperform =>
    obtain rfl := Option.some.inj (htarget.symm.trans hagent)
    exact tracks_performed (TransmitQueue.waiting_snoop hresponses)
      (TransmitQueue.waiting_snoop hrequests) (congrArg Prod.fst hperform) hinitiator

end Bridge

/-! ### Accesses are issued -/

namespace Simulation

variable {s s' : Simulation} {v : Transit}

/-- What a simulation notes about its accesses, beside those that have been let in. -/
def notes (s : Simulation) (admitted : List (RequestId × Tick)) : Notes where
  now := s.now
  admitted
  completed := s.report.completed
  maxLatency := s.report.maxLatency

/-- The simulation has the given accesses in transit, and knows no others that are to be answered. -/
def Tracks (s : Simulation) (v : Transit) : Prop :=
  ∃ admitted, s.issuedAt ⊆ admitted ∧
    s.bridge.Tracks (s.notes admitted) (s.agenda.times .complete) v

theorem Tracks.now_eq (h : s.Tracks v) : v.now = s.now := by
  obtain ⟨admitted, -, htracks⟩ := h
  exact congrArg Notes.now htracks.notes_eq

theorem Tracks.report_eq (h : s.Tracks v) :
    v.completed = s.report.completed ∧ v.maxLatency = s.report.maxLatency := by
  obtain ⟨admitted, -, htracks⟩ := h
  exact ⟨congrArg Notes.completed htracks.notes_eq, congrArg Notes.maxLatency htracks.notes_eq⟩

/-- What else is scheduled does not concern the accesses in transit. -/
theorem Tracks.of_agenda (h : s.Tracks v) {agenda : Agenda SimEvent} (hnow : agenda.now = s.now)
    (htimes : agenda.times .complete = s.agenda.times .complete) : { s with agenda }.Tracks v := by
  obtain ⟨admitted, hknown, htracks⟩ := h
  refine ⟨admitted, hknown, ?_⟩
  have hnotes : { s with agenda }.notes admitted = s.notes admitted := by
    simp only [notes, now] at hnow ⊢
    rw [hnow]
  rw [hnotes]
  exact htimes ▸ htracks

theorem Tracks.schedule (h : s.Tracks v) {event : SimEvent} (hevent : event ≠ .complete)
    (tick : Tick) : (s.schedule event tick).Tracks v :=
  h.of_agenda rfl (Agenda.times_schedule_of_ne hevent ..)

theorem Tracks.scheduleAsked (h : s.Tracks v) (effects : List Effect) :
    (s.scheduleAsked effects).Tracks v := by
  rw [Simulation.scheduleAsked]
  induction Effect.asked effects generalizing s with
  | nil => exact h
  | cons ask rest ih => exact ih (h.schedule (by simp) ask.1)

theorem tracks_armIssue (h : s.Tracks v) : s.armIssue.1.Tracks v := by
  rw [armIssue]
  split
  next => exact h
  next =>
    split
    next => exact h
    next tick _ =>
      dsimp only
      split
      next => exact h
      next => exact Tracks.schedule (s := { s with armed := _ }) h (by decide) _

/-- To take over what a call has left behind is to take over its bridge, and to schedule. -/
theorem tracks_adopt {α : Type} {o : Outcome (Bridge Generator Memory) α}
    (h : { s with bridge := o.state }.Tracks v) : (s.adopt o).Tracks v :=
  h.scheduleAsked o.effects

/-- The report may count other things. -/
theorem Tracks.count (h : s.Tracks v) {f : Report → Report}
    (hcompleted : (f s.report).completed = s.report.completed)
    (hlatency : (f s.report).maxLatency = s.report.maxLatency) : (s.count f).Tracks v := by
  obtain ⟨admitted, hknown, htracks⟩ := h
  refine ⟨admitted, hknown, ?_⟩
  have hnotes : (s.count f).notes admitted = s.notes admitted := by
    simp only [notes, Simulation.count, hcompleted, hlatency]
    rfl
  rw [hnotes]
  exact htracks

/-- An access that has been let in may become known. -/
theorem Tracks.know (h : s.Tracks v) {e : RequestId × Tick} (he : e ∈ v.admitted) :
    { s with issuedAt := s.issuedAt ++ [e] }.Tracks v := by
  obtain ⟨admitted, hknown, htracks⟩ := h
  have hadmitted : v.admitted = admitted := congrArg Notes.admitted htracks.notes_eq
  refine ⟨admitted, List.append_subset.2 ⟨hknown, ?_⟩, htracks⟩
  exact List.cons_subset.2 ⟨hadmitted ▸ he, List.nil_subset _⟩

/-- A timed access is let in, or it goes back to the generator. -/
theorem issues_issueTimed {i : Issue} (h : s.Tracks v) (hok : s.issueTimed i = (s', .ok ())) :
    ∃ v', s'.Tracks v' ∧
      ReflTransGen Transit.Issues { v with unissued := i.packet.id :: v.unissued } v' := by
  obtain ⟨admitted, hknown, htracks⟩ := h
  obtain ⟨g, m, -, -, rfl⟩ := id htracks
  rw [issueTimed] at hok
  dsimp only at hok
  split at hok
  next => cases hok
  next haccepted =>
    refine ⟨_, ?_, .single (.admitted rfl)⟩
    have hlet := (htracks.submit_accepted haccepted).noted
      (s.notes (admitted ++ [(i.packet.id, s.now)])) rfl
    have hadopted := tracks_adopt (o := s.bridge.submit s.now i.packet)
      ⟨_, List.subset_append_of_subset_left _ hknown, hlet⟩
    have hcounted := hadopted.count (f := fun r => { r with issued := r.issued + 1 }) rfl rfl
    obtain rfl := congrArg Prod.fst hok
    dsimp only
    split
    next => exact hcounted.know (List.mem_append_right _ (List.mem_singleton_self _))
    next => exact hcounted
  next packet hrefused =>
    refine ⟨_, ?_, .refl⟩
    obtain ⟨rfl, hback⟩ := htracks.submit_refused hrefused
    have hadopted := tracks_adopt (o := s.bridge.submit s.now i.packet) ⟨_, hknown, hback⟩
    obtain ⟨known, hknown', g', m', hinitiator, -⟩ := id hadopted
    rw [generator_of_bound (by exact hinitiator)] at hok
    obtain rfl := congrArg Prod.fst hok
    obtain ⟨admitted', hknown', hadopted⟩ :=
      hadopted.count (f := fun r => { r with refused := r.refused + 1 }) rfl rfl
    exact ⟨admitted', hknown', hadopted.stall hinitiator { i with tick := s.now }⟩

theorem tracks_issueAtomic {p : Packet} (h : s.Tracks v) (hok : s.issueAtomic p = (s', .ok ())) :
    s'.Tracks v := by
  obtain ⟨admitted, hknown, htracks⟩ := h
  rw [issueAtomic] at hok
  split at hok
  next => cases hok
  next latency hanswer =>
    obtain rfl := congrArg Prod.fst hok
    have hadopted := tracks_adopt (o := (s.bridge.atomic p).within Prod.fst)
      ⟨admitted, hknown, htracks.atomic hanswer⟩
    exact hadopted.count rfl rfl

theorem tracks_issueFunctional {p : Packet} (h : s.Tracks v)
    (hok : s.issueFunctional p = (s', .ok ())) : s'.Tracks v := by
  obtain ⟨admitted, hknown, htracks⟩ := h
  rw [issueFunctional] at hok
  split at hok
  next => cases hok
  next hanswer =>
    obtain rfl := congrArg Prod.fst hok
    have hadopted := tracks_adopt (o := (s.bridge.functional p).within Prod.fst)
      ⟨admitted, hknown, htracks.functional hanswer⟩
    exact hadopted.count rfl rfl

/-- An access is issued, or it stays the next one. -/
theorem issues_issueOne {i : Issue} (h : s.Tracks v) (hok : s.issueOne i = (s', .ok ())) :
    ∃ v', s'.Tracks v' ∧
      ReflTransGen Transit.Issues { v with unissued := i.packet.id :: v.unissued } v' := by
  rw [issueOne] at hok
  split at hok
  next =>
    split at hok
    next => exact issues_issueTimed h hok
    next => exact ⟨v, tracks_issueAtomic h hok, .single (.gone rfl)⟩
    next => exact ⟨v, tracks_issueFunctional h hok, .single (.gone rfl)⟩
  next =>
    obtain rfl := congrArg Prod.fst hok
    exact ⟨v, h.count rfl rfl, .single (.gone rfl)⟩

/-- The accesses that are due are issued one after another. -/
theorem issues_issueDue (n : Nat) (h : s.Tracks v) (hok : s.issueDue n = (s', .ok ())) :
    ∃ v', s'.Tracks v' ∧ ReflTransGen Transit.Issues v v' := by
  induction n generalizing s v with
  | zero =>
    obtain rfl := congrArg Prod.fst hok
    exact ⟨v, h, .refl⟩
  | succ n ih =>
    obtain ⟨admitted, hknown, htracks⟩ := id h
    obtain ⟨g, m, hinitiator, -⟩ := id htracks
    rw [issueDue, generator_of_bound hinitiator] at hok
    split at hok
    next =>
      obtain rfl := congrArg Prod.fst hok
      exact ⟨v, h, .refl⟩
    next heq => cases heq
    next heq =>
      cases heq
      split at hok
      next =>
        obtain rfl := congrArg Prod.fst hok
        exact ⟨v, h, .refl⟩
      next i g' hnext =>
        obtain ⟨rest, hpending, rfl⟩ := eq_of_nextDue? hnext
        obtain ⟨u, htaken, rfl⟩ := htracks.next hinitiator hpending
        split at hok
        next => cases hok
        next s₁ hone =>
          have hleft : (s.withGenerator { g with pending := rest }).Tracks u :=
            ⟨admitted, hknown, htaken⟩
          obtain ⟨v₁, htracks₁, hissues₁⟩ := issues_issueOne hleft hone
          obtain ⟨v', htracks', hissues'⟩ := ih htracks₁ hok
          exact ⟨v', htracks', hissues₁.trans hissues'⟩

theorem issues_issue (h : s.Tracks v) (hok : s.issue = (s', .ok ())) :
    ∃ v', s'.Tracks v' ∧ ReflTransGen Transit.Issues v v' := by
  obtain ⟨admitted, -, g, m, hinitiator, -⟩ := id h
  obtain ⟨t, hdue, harm⟩ := exists_due_of_issue hinitiator hok
  have hdisarmed : s.disarmed.Tracks v := by
    rw [disarmed]
    split <;> exact h
  obtain ⟨v', htracks, hissues⟩ := issues_issueDue _ hdisarmed hdue
  refine ⟨v', ?_, hissues⟩
  have harmed := tracks_armIssue htracks
  rwa [harm] at harmed

/-! ### Events -/

/-- The memory completes its oldest request and answers it, if an answer is expected. -/
theorem carries_completeOldest {times : List Tick} (h : s.Tracks { v with completions := times })
    (hcompletions : v.completions = v.now :: times)
    (haligned : v.serving.length = v.completions.length)
    (hok : s.completeOldest = (s', .ok ())) : ∃ v', s'.Tracks v' ∧ v.Carries v' := by
  obtain ⟨admitted, hknown, g, m, hinitiator, htarget, heq⟩ := h
  have hserving : v.serving = m.inService.map Packet.id := (congrArg Transit.serving heq).symm
  rw [hcompletions, hserving, List.length_map] at haligned
  have hmemory := memory_of_bound htarget
  rw [completeOldest, hmemory] at hok
  cases hservice : m.inService with
  | nil =>
    rw [hservice] at haligned
    contradiction
  | cons p rest =>
    rw [hservice] at hserving
    have hperformed : (s.withMemory ({ m with inService := rest }.perform p).1).bridge.Tracks
        (s.notes admitted) (s.agenda.times .complete)
        { v with completions := times, serving := rest.map Packet.id } := by
      refine ⟨g, _, hinitiator, rfl, ?_⟩
      rw [Memory.perform_eq]
      exact congrArg (fun u : Transit => { u with serving := rest.map Packet.id }) heq
    simp only [completeNext_cons hservice] at hok
    cases hexpects : p.expectsResponse with
    | false =>
      simp only [hexpects] at hok
      obtain rfl := congrArg Prod.fst hok
      refine ⟨_, ⟨admitted, hknown, hperformed⟩, ?_⟩
      have hcarries := Transit.Carries.performed false hserving hcompletions
      rwa [if_neg (by decide), List.append_nil] at hcarries
    | true =>
      simp only [hexpects, if_true] at hok
      obtain ⟨hanswer, -⟩ := eq_of_finish hok
      have hid := Memory.id_perform { m with inService := rest } p
      obtain rfl := congrArg Prod.fst hok
      have hanswered := hperformed.respond hanswer
      rw [hid] at hanswered
      refine ⟨_, tracks_adopt ⟨admitted, hknown, hanswered⟩, ?_⟩
      have hnow : (s.notes admitted).now = v.now := congrArg Notes.now (congrArg Transit.toNotes heq)
      rw [hnow]
      exact .performed true hserving hcompletions

/-- What is in transit when an event has come due. -/
theorem Tracks.popped (h : s.Tracks v) {m : Memory} (htarget : s.bridge.back.agent = some m)
    (hlooked : m.newlyAccepted = 0) {tick : Tick} {event : SimEvent} {agenda : Agenda SimEvent}
    (hpop : s.agenda.pop? = some (tick, event, agenda)) :
    v.completions = s.agenda.times .complete ∧
      { s with agenda }.Tracks { v.later tick with completions := agenda.times .complete } := by
  obtain ⟨admitted, hknown, g, m', hinitiator, htarget', rfl⟩ := h
  obtain rfl := Option.some.inj (htarget.symm.trans htarget')
  obtain ⟨-, -, hnow, -⟩ := Agenda.pending_of_pop hpop
  refine ⟨?_, admitted, hknown, g, m, hinitiator, htarget, ?_⟩
  · rw [Bridge.transit, hlooked]
    exact List.append_nil _
  · simp only [Bridge.transit, Transit.later, notes, now, hlooked, hnow, List.replicate_zero,
      List.append_nil]

/-- What a call on the bridge has carried on, the event that makes it has. -/
theorem moves_finish {tick : Tick} (h : s.Tracks (v.later tick)) {o : Call Generator Memory Unit}
    (hcarries : ∀ {admitted u}, s.bridge.Tracks (s.notes admitted) (s.agenda.times .complete) u →
      o.state.Carries (s.notes admitted) (s.agenda.times .complete) u)
    (hok : s.finish o = (s', .ok ())) : ∃ v', s'.Tracks v' ∧ v.Moves tick v' := by
  obtain ⟨admitted, hknown, htracks⟩ := h
  obtain ⟨v', htracks', hmoved⟩ := hcarries htracks
  obtain rfl := congrArg Prod.fst hok
  refine ⟨v', tracks_adopt ⟨admitted, hknown, htracks'⟩, ?_⟩
  rcases hmoved with rfl | hmoved
  · exact .stays
  · exact .carries hmoved

/-- What an event that is carried out without a fault does with the accesses in transit. -/
theorem moves_dispatch (h : s.Tracks v) {m : Memory} (htarget : s.bridge.back.agent = some m)
    (hlooked : m.newlyAccepted = 0) (haligned : v.serving.length = v.completions.length)
    {tick : Tick} {event : SimEvent} {agenda : Agenda SimEvent}
    (hpop : s.agenda.pop? = some (tick, event, agenda))
    (hok : { s with agenda }.dispatch event = (s', .ok ())) :
    ∃ v', s'.Tracks v' ∧ v.Moves tick v' := by
  obtain ⟨hcompletions, hpopped⟩ := h.popped htarget hlooked hpop
  have htimes := Agenda.times_of_pop hpop .complete
  rw [← hcompletions] at htimes
  cases event with
  | send d =>
    rw [if_neg (by simp)] at htimes
    rw [← htimes] at hpopped
    exact moves_finish hpopped (fun hu => hu.attempt d) hok
  | memoryRetry =>
    rw [if_neg (by simp)] at htimes
    rw [← htimes] at hpopped
    exact moves_finish hpopped (fun hu => hu.requestRetry) hok
  | issue =>
    rw [if_neg (by simp)] at htimes
    rw [← htimes] at hpopped
    obtain ⟨v', htracks, hissues⟩ := issues_issue hpopped hok
    exact ⟨v', htracks, .issues hissues⟩
  | complete =>
    rw [if_pos rfl] at htimes
    obtain ⟨v', htracks, hcarries⟩ := carries_completeOldest hpopped htimes haligned hok
    exact ⟨v', htracks, .carries hcarries⟩

/-! ### Looking after the agents -/

/-- Completions that are scheduled last are those that were still to be scheduled. -/
theorem tracks_schedules {admitted : List (RequestId × Tick)} {tick : Tick} (l : List Nat)
    (hknown : s.issuedAt ⊆ admitted)
    (htracks : s.bridge.Tracks (s.notes admitted)
      (s.agenda.times .complete ++ List.replicate l.length tick) v)
    (hdue : ∀ t ∈ s.agenda.times .complete, t ≤ tick) (hnow : s.now ≤ tick) :
    (l.foldl (fun s _ => s.schedule .complete tick) s).Tracks v := by
  induction l generalizing s with
  | nil =>
    rw [List.length_nil, List.replicate_zero, List.append_nil] at htracks
    exact ⟨admitted, hknown, htracks⟩
  | cons _ rest ih =>
    have htimes : (s.schedule .complete tick).agenda.times .complete =
        s.agenda.times .complete ++ [tick] := Agenda.times_schedule_of_le hdue hnow
    refine ih hknown ?_ ?_ hnow
    · rw [htimes, List.append_assoc]
      exact htracks
    · rw [htimes]
      intro t ht
      rcases List.mem_append.1 ht with ht | ht
      · exact hdue t ht
      · exact List.mem_singleton.1 ht ▸ UInt64.le_refl _

/-- Looking after the memory schedules the completions that it needs. -/
theorem tracks_lookAfterMemory (h : s.Tracks v)
    (hdue : ∀ t ∈ v.completions, t ≤ cappedAdd v.now v.latency)
    (hok : s.lookAfterMemory = (s', .ok ())) : s'.Tracks v := by
  obtain ⟨admitted, hknown, g, m, hinitiator, htarget, rfl⟩ := h
  have hlooked : (s.withMemory m.rested).bridge.Tracks (s.notes admitted)
      (s.agenda.times .complete ++
        List.replicate (List.range m.newlyAccepted).length (cappedAdd s.now m.latency))
      (s.bridge.transit g m (s.notes admitted) (s.agenda.times .complete)) := by
    refine ⟨g, m.rested, hinitiator, rfl, ?_⟩
    rw [List.length_range, Bridge.transit, show m.rested.newlyAccepted = 0 from rfl,
      List.replicate_zero, List.append_nil]
    rfl
  have hscheduled := tracks_schedules (s := s.withMemory m.rested) (List.range m.newlyAccepted) hknown
    hlooked (fun t ht => hdue t (List.mem_append_left _ ht)) (le_cappedAdd ..)
  rw [lookAfterMemory_of_bound (memory_of_bound htarget) rfl] at hok
  obtain rfl := congrArg Prod.fst hok
  dsimp only
  split
  next => exact hscheduled.schedule (by decide) _
  next => exact hscheduled

/-- A response that is looked at is counted, or its access is not known. -/
theorem tracks_countResponse (h : s.Tracks v) (p : Packet) :
    ∃ v', (s.countResponse p).Tracks v' ∧ v'.arrived = v.arrived ∧ ∀ later,
      { v with arrived := p.id :: later }.Counts { v' with arrived := later } := by
  obtain ⟨admitted, hknown, htracks⟩ := h
  obtain ⟨g, m, -, -, rfl⟩ := id htracks
  rw [countResponse]
  split
  next => exact ⟨_, ⟨admitted, hknown, htracks⟩, rfl, fun later => .ignored rfl⟩
  next issued hlookup =>
    have hissued : (p.id, issued) ∈ s.issuedAt := by
      obtain ⟨before, rest, heq, -⟩ := List.lookup_eq_some_iff.1 hlookup
      rw [heq]
      exact List.mem_append_right _ List.mem_cons_self
    have hcounted := htracks.noted
      { s.notes admitted with
        completed := s.report.completed + 1
        maxLatency := max s.report.maxLatency (flooredSub s.now issued) } rfl
    refine ⟨_, ⟨admitted, fun e he => hknown (List.mem_filter.1 he).1, hcounted⟩, rfl, fun later => ?_⟩
    exact .counted rfl (hknown hissued)

theorem counts_responses (h : s.Tracks v) (responses : List Packet) :
    ∃ v', (responses.foldl countResponse s).Tracks v' ∧
      ReflTransGen Transit.Counts
        { v with arrived := responses.map Packet.id ++ v.arrived } v' := by
  induction responses generalizing s v with
  | nil => exact ⟨v, h, .refl⟩
  | cons p rest ih =>
    obtain ⟨v₁, htracks₁, harrived, hcounts⟩ := tracks_countResponse h p
    obtain ⟨v', htracks', hcounts'⟩ := ih htracks₁
    rw [harrived] at hcounts'
    exact ⟨v', htracks', .head (hcounts _) hcounts'⟩

/-- Looking after the generator counts the responses that have arrived. -/
theorem counts_lookAfterGenerator (h : s.Tracks v) (hok : s.lookAfterGenerator = (s', .ok ())) :
    ∃ v', s'.Tracks v' ∧ ReflTransGen Transit.Counts v v' := by
  obtain ⟨admitted, hknown, g, m, hinitiator, htarget, rfl⟩ := h
  rw [lookAfterGenerator_of_bound (generator_of_bound hinitiator) rfl] at hok
  have hlooked : (s.withGenerator g.rested).Tracks
      { s.bridge.transit g m (s.notes admitted) (s.agenda.times .complete) with arrived := [] } :=
    ⟨admitted, hknown, _, m, rfl, htarget, rfl⟩
  obtain ⟨v', htracks, hcounts⟩ := counts_responses hlooked g.responses
  rw [List.append_nil] at hcounts
  obtain rfl := congrArg Prod.fst hok
  refine ⟨v', ?_, hcounts⟩
  dsimp only
  split
  next => exact htracks.schedule (by decide) _
  next => exact htracks

/-- Looking after the agents counts the responses that have arrived. -/
theorem counts_lookAfter (h : s.Tracks v) (hdue : ∀ t ∈ v.completions, t ≤ cappedAdd v.now v.latency)
    (hok : s.lookAfter = (s', .ok ())) :
    ∃ v', s'.Tracks v' ∧ ReflTransGen Transit.Counts v v' := by
  rw [lookAfter] at hok
  split at hok
  next => cases hok
  next s₁ hmemory => exact counts_lookAfterGenerator (tracks_lookAfterMemory h hdue hmemory) hok

/-! ### Steps -/

/-- The packets that the next event lets in, each with the tick at which it does. -/
def admitted (s : Simulation) : List (RequestId × Tick) :=
  (s.step.1.bridge.back.requests.packets.drop s.bridge.back.requests.size).map fun p =>
    (p.id, s.step.1.now)

variable {g : Generator} {m : Memory}

theorem Tracks.requests_eq (h : s.Tracks v) : v.requests = s.bridge.back.requests.waiting := by
  obtain ⟨admitted, -, g, m, -, -, rfl⟩ := h
  rfl

theorem Tracks.arrived_eq (h : s.Tracks v) (hinitiator : s.bridge.front.agent = some g) :
    v.arrived = g.responses.map Packet.id := by
  obtain ⟨admitted, -, g', m, hinitiator', -, rfl⟩ := h
  obtain rfl := Option.some.inj (hinitiator.symm.trans hinitiator')
  rfl

/-- A step moves the accesses in transit, lets in what it moves there, and counts the responses that it
brings. -/
theorem Running.transit_of_step (h : s.Running g m) (htracks : s.Tracks v) (htimely : v.Timely)
    (hstep : s.step = (s', .ok true)) :
    ∃ v₁ v', v.now ≤ s'.now ∧ v.Moves s'.now v₁ ∧ v₁.arrived = s.brought.map Packet.id ∧
      ReflTransGen Transit.Counts v₁ v' ∧ s'.Tracks v' ∧ v'.admitted = v.admitted ++ s.admitted := by
  obtain ⟨tick, event, agenda, s₁, hpop, hdispatch, hlooked⟩ := exists_of_step hstep
  obtain ⟨v₁, htracks₁, hmoves⟩ := moves_dispatch htracks h.joins.target h.quiet.newlyAccepted
    htimely.serving.length_eq hpop hdispatch
  have hlater : v.now ≤ tick := by
    obtain ⟨serial, hpending, -⟩ := Agenda.pending_of_pop hpop
    rw [htracks.now_eq]
    exact (s.agenda.current _ (hpending ▸ List.mem_cons_self)).1
  have hdue := (hmoves.timely hlater htimely).completions
  obtain ⟨v', htracks', hcounts⟩ := counts_lookAfter htracks₁ hdue hlooked
  obtain ⟨-, hnow, hrequests, hadmitted⟩ := Transit.rest_of_counts hcounts
  obtain rfl : s'.now = tick := by rw [← htracks'.now_eq, hnow, hmoves.now_eq]
  have harrived : v₁.arrived = s.brought.map Packet.id := by
    obtain ⟨known, -, g₁, m₁, hinitiator₁, -⟩ := id htracks₁
    rw [htracks₁.arrived_eq hinitiator₁, brought, hpop]
    dsimp only
    rw [hdispatch]
    dsimp only
    rw [hinitiator₁]
  refine ⟨v₁, v', hlater, hmoves, harrived, hcounts, htracks', ?_⟩
  rw [hadmitted, hmoves.admitted_eq, admitted, hstep, hmoves.now_eq, ← hrequests,
    htracks'.requests_eq, htracks.requests_eq, TransmitQueue.waiting, TransmitQueue.waiting,
    List.length_map, ← List.map_drop, List.map_map, TransmitQueue.packets, ← List.map_drop,
    List.map_map]
  rfl

end Simulation

end TimedBridge
