import Mathlib.Data.List.Nodup
import Mathlib.Logic.Relation
import TimedBridge.Bridge.Basic
import TimedBridge.Proofs.Clock
import TimedBridge.Proofs.TransmitQueue.Passage

/-!
The accesses of a simulation in transit, each with the tick that it waits for. An access is let in, is
taken by the memory, is performed, and comes back; each of these makes it wait for a later tick, by the
length of a crossing or by the memory's latency. So wherever it is, its tick tells how long ago it can
have been let in at most (`Transit.Timely`), and a response that is counted took no less than the whole
way.
-/

namespace TimedBridge

open Relation (ReflTransGen)

/-- What is noted about accesses in transit. -/
structure Notes where
  now : Tick
  /-- The timed accesses that have been let in so far, each with the tick at which it was. -/
  admitted : List (RequestId × Tick)
  /-- The number of the responses that have been counted. -/
  completed : Nat
  /-- The longest time that one of them took. -/
  maxLatency : Tick

/-- Where the accesses of a simulation are, and the ticks that they wait for. -/
structure Transit extends Notes where
  /-- The crossing of requests. -/
  outward : Crossing
  /-- The crossing of responses. -/
  homeward : Crossing
  /-- The latency of the memory. -/
  latency : Tick
  /-- The accesses not yet issued. -/
  unissued : List RequestId
  requests : List Waiting
  /-- The requests that the memory has taken. -/
  serving : List RequestId
  /-- The ticks at which they are completed. -/
  completions : List Tick
  responses : List Waiting
  /-- The responses that have arrived and have not been looked at. -/
  arrived : List RequestId

namespace Transit

/-- The next access is issued. -/
inductive Issues (v : Transit) : Transit → Prop
  /-- It is dropped or made at once. -/
  | gone {id : RequestId} {rest : List RequestId} (hunissued : v.unissued = id :: rest) :
      Issues v { v with unissued := rest }
  | admitted {id : RequestId} {rest : List RequestId} (hunissued : v.unissued = id :: rest) :
      Issues v
        { v with
          unissued := rest
          admitted := v.admitted ++ [(id, v.now)]
          requests := v.requests ++ [⟨id, v.outward.readyAt v.now⟩] }

/-- The oldest of the accesses that have come to a stage goes on to the next one. -/
inductive Carries (v : Transit) : Transit → Prop
  /-- The memory takes a request. -/
  | taken {w : Waiting} {rest : List Waiting} (hrequests : v.requests = w :: rest)
      (hdue : w.due ≤ v.now) :
      Carries v
        { v with
          requests := rest
          serving := v.serving ++ [w.id]
          completions := v.completions ++ [cappedAdd v.now v.latency] }
  /-- The memory completes a request, and answers it if an answer is expected. -/
  | performed {id : RequestId} {rest : List RequestId} {times : List Tick} (answered : Bool)
      (hserving : v.serving = id :: rest) (hcompletions : v.completions = v.now :: times) :
      Carries v
        { v with
          serving := rest
          completions := times
          responses := v.responses ++
            if answered then [⟨id, v.homeward.readyAt v.now⟩] else [] }
  /-- The generator takes a response. -/
  | returned {w : Waiting} {rest : List Waiting} (hresponses : v.responses = w :: rest)
      (hdue : w.due ≤ v.now) :
      Carries v { v with responses := rest, arrived := v.arrived ++ [w.id] }

/-- A response that has arrived is looked at. -/
inductive Counts (v : Transit) : Transit → Prop
  /-- It is counted with the time since its access was let in. -/
  | counted {id : RequestId} {rest : List RequestId} {t : Tick} (harrived : v.arrived = id :: rest)
      (hadmitted : (id, t) ∈ v.admitted) :
      Counts v
        { v with
          arrived := rest
          completed := v.completed + 1
          maxLatency := max v.maxLatency (flooredSub v.now t) }
  | ignored {id : RequestId} {rest : List RequestId} (harrived : v.arrived = id :: rest) :
      Counts v { v with arrived := rest }

/-- The time has come to a tick. -/
def later (v : Transit) (tick : Tick) : Transit := { v with now := tick }

/-- What an event that comes due at a tick can do. -/
inductive Moves (v : Transit) (tick : Tick) : Transit → Prop
  | stays : Moves v tick (v.later tick)
  | carries {v' : Transit} (h : (v.later tick).Carries v') : Moves v tick v'
  | issues {v' : Transit} (h : ReflTransGen Issues (v.later tick) v') : Moves v tick v'

/-! ### No access is ahead of its time -/

/-- The time from when an access is let in until its response comes back, at least. -/
def roundTrip (v : Transit) : Nat :=
  v.outward.delayTicks.toNat + v.latency.toNat + v.homeward.delayTicks.toNat

/-- The tick is at least `way` ticks after the access was let in, or it is the last one. -/
def Since (v : Transit) (way : Nat) (id : RequestId) (tick : Tick) : Prop :=
  ∃ t, (id, t) ∈ v.admitted ∧ min (t.toNat + way) 0xffffffffffffffff ≤ tick.toNat

/-- The accesses are apart, and what each one waits for comes no earlier than the way to there takes. -/
structure Timely (v : Transit) : Prop where
  distinct : (v.admitted.map Prod.fst ++ v.unissued).Nodup
  requests : ∀ w ∈ v.requests, v.Since v.outward.delayTicks.toNat w.id w.due
  serving : List.Forall₂ (v.Since (v.outward.delayTicks.toNat + v.latency.toNat)) v.serving
    v.completions
  /-- What the memory takes now is not completed before what it has taken. -/
  completions : ∀ t ∈ v.completions, t ≤ cappedAdd v.now v.latency
  responses : ∀ w ∈ v.responses, v.Since v.roundTrip w.id w.due
  arrived : ∀ id ∈ v.arrived, v.Since v.roundTrip id v.now
  counted : v.now.toNat < 0xffffffffffffffff → 0 < v.completed → v.roundTrip ≤ v.maxLatency.toNat
  longest : v.maxLatency ≤ v.now

variable {v v' : Transit} {id : RequestId} {tick tick' : Tick} {way : Nat}

/-- A crossing takes at least its delay. -/
theorem delayTicks_le_readyAt (c : Crossing) (now : Tick) :
    min (now.toNat + c.delayTicks.toNat) 0xffffffffffffffff ≤ (c.readyAt now).toNat := by
  have hedge := c.clock.le_exactEdge now.toNat
  rw [Crossing.readyAt, Clock.toNat_edgeAfter, Clock.exactEdgeAfter, Crossing.delayTicks, Clock.ticks,
    toNat_cappedMul]
  omega

/-- What has gone on by `more` ticks, or to the last tick, is that much further on its way. -/
theorem Since.further (h : v.Since way id tick) (more : Nat)
    (htick : min (tick.toNat + more) 0xffffffffffffffff ≤ tick'.toNat) :
    v.Since (way + more) id tick' := by
  obtain ⟨t, hadmitted, hle⟩ := h
  exact ⟨t, hadmitted, by omega⟩

theorem Since.later (h : v.Since way id tick) (htick : tick ≤ tick') : v.Since way id tick' := by
  have hle := UInt64.le_iff_toNat_le.1 htick
  have hmax := tick.toNat_lt
  exact h.further 0 (by omega)

theorem Since.mono (h : v.Since way id tick) (hadmitted : v.admitted ⊆ v'.admitted) :
    v'.Since way id tick := by
  obtain ⟨t, hmem, hle⟩ := h
  exact ⟨t, hadmitted hmem, hle⟩

/-- The tick at which an access was let in is the only one. -/
theorem eq_of_admitted (hdistinct : (v.admitted.map Prod.fst ++ v.unissued).Nodup) {t t' : Tick}
    (ht : (id, t) ∈ v.admitted) (ht' : (id, t') ∈ v.admitted) : t = t' :=
  congrArg Prod.snd (List.inj_on_of_nodup_map (List.nodup_append.1 hdistinct).1 ht ht' rfl)

/-! ### What the moves keep -/

theorem Timely.later (h : v.Timely) (htick : v.now ≤ tick) : (v.later tick).Timely where
  distinct := h.distinct
  requests := h.requests
  serving := h.serving
  completions t ht := by
    have hle := h.completions t ht
    simp only [UInt64.le_iff_toNat_le, toNat_cappedAdd] at hle htick ⊢
    change _ ≤ min (tick.toNat + v.latency.toNat) _
    omega
  responses := h.responses
  arrived id hid := (h.arrived id hid).later htick
  counted hlast := h.counted (Nat.lt_of_le_of_lt (UInt64.le_iff_toNat_le.1 htick) hlast)
  longest := UInt64.le_trans h.longest htick

theorem Issues.timely (hissues : v.Issues v') (h : v.Timely) : v'.Timely := by
  obtain ⟨hdistinct, hrequests, hserving, hcompletions, hresponses, harrived, hcounted, hlongest⟩ := h
  cases hissues with
  | @gone id rest hunissued =>
    refine ⟨?_, hrequests, hserving, hcompletions, hresponses, harrived, hcounted, hlongest⟩
    rw [hunissued] at hdistinct
    exact hdistinct.sublist ((List.sublist_cons_self id rest).append_left _)
  | @admitted id rest hunissued =>
    have hsub : v.admitted ⊆ v.admitted ++ [(id, v.now)] := List.subset_append_left ..
    refine ⟨?_, ?_, hserving.imp fun _ _ h => h.mono hsub, hcompletions,
      fun w hw => (hresponses w hw).mono hsub, fun i hi => (harrived i hi).mono hsub, hcounted,
      hlongest⟩
    · rw [hunissued] at hdistinct
      simpa only [List.map_append, List.map_singleton, List.append_assoc, List.singleton_append]
        using hdistinct
    · intro w hw
      rcases List.mem_append.1 hw with hw | hw
      · exact (hrequests w hw).mono hsub
      · obtain rfl := List.mem_singleton.1 hw
        exact ⟨v.now, List.mem_append_right _ (List.mem_singleton_self _),
          delayTicks_le_readyAt v.outward v.now⟩

theorem Carries.timely (hcarries : v.Carries v') (h : v.Timely) : v'.Timely := by
  obtain ⟨hdistinct, hrequests, hserving, hcompletions, hresponses, harrived, hcounted, hlongest⟩ := h
  cases hcarries with
  | @taken w rest hqueued hdue =>
    rw [hqueued] at hrequests
    obtain ⟨hhead, hrest⟩ := List.forall_mem_cons.1 hrequests
    refine ⟨hdistinct, hrest, List.rel_append hserving (.cons ?_ .nil), ?_, hresponses, harrived,
      hcounted, hlongest⟩
    · exact (hhead.later hdue).further _ (Nat.le_of_eq (toNat_cappedAdd ..).symm)
    · intro t ht
      rcases List.mem_append.1 ht with ht | ht
      · exact hcompletions t ht
      · obtain rfl := List.mem_singleton.1 ht
        exact UInt64.le_refl _
  | @performed id rest times answered hqueued htimes =>
    rw [hqueued, htimes] at hserving
    rw [htimes] at hcompletions
    cases hserving with
    | cons hhead htail =>
      refine ⟨hdistinct, hrequests, htail, fun t ht => hcompletions t (.tail _ ht), ?_, harrived,
        hcounted, hlongest⟩
      intro w hw
      rcases List.mem_append.1 hw with hw | hw
      · exact hresponses w hw
      · cases answered with
        | false => cases hw
        | true =>
          obtain rfl := List.mem_singleton.1 hw
          exact hhead.further _ (delayTicks_le_readyAt v.homeward v.now)
  | @returned w rest hqueued hdue =>
    rw [hqueued] at hresponses
    obtain ⟨hhead, hrest⟩ := List.forall_mem_cons.1 hresponses
    refine ⟨hdistinct, hrequests, hserving, hcompletions, hrest, ?_, hcounted, hlongest⟩
    intro id hid
    rcases List.mem_append.1 hid with hid | hid
    · exact harrived id hid
    · obtain rfl := List.mem_singleton.1 hid
      exact hhead.later hdue

theorem Counts.timely (hcounts : v.Counts v') (h : v.Timely) : v'.Timely := by
  obtain ⟨hdistinct, hrequests, hserving, hcompletions, hresponses, harrived, hcounted, hlongest⟩ := h
  cases hcounts with
  | @counted id rest t hqueued hadmitted =>
    rw [hqueued] at harrived
    obtain ⟨⟨t', hadmitted', hle⟩, hrest⟩ := List.forall_mem_cons.1 harrived
    obtain rfl := eq_of_admitted hdistinct hadmitted' hadmitted
    refine ⟨hdistinct, hrequests, hserving, hcompletions, hresponses, hrest, fun hlast _ => ?_, ?_⟩
    · change v.now.toNat < _ at hlast
      rw [toNat_max, toNat_flooredSub]
      change v.roundTrip ≤ _
      omega
    · rw [UInt64.le_iff_toNat_le] at hlongest ⊢
      rw [toNat_max, toNat_flooredSub]
      change max _ (v.now.toNat - _) ≤ v.now.toNat
      omega
  | @ignored id rest hqueued =>
    rw [hqueued] at harrived
    exact ⟨hdistinct, hrequests, hserving, hcompletions, hresponses,
      (List.forall_mem_cons.1 harrived).2, hcounted, hlongest⟩

theorem Moves.timely (hmoves : v.Moves tick v') (htick : v.now ≤ tick) (h : v.Timely) :
    v'.Timely := by
  cases hmoves with
  | stays => exact h.later htick
  | carries hcarries => exact hcarries.timely (h.later htick)
  | issues hissues =>
    induction hissues with
    | refl => exact h.later htick
    | tail _ hissued ih => exact hissued.timely ih

/-- However many responses are looked at, no access is ahead of its time. -/
theorem Timely.counts (h : v.Timely) (hcounts : ReflTransGen Counts v v') : v'.Timely := by
  induction hcounts with
  | refl => exact h
  | tail _ hcounted ih => exact hcounted.timely ih

/-! ### Who is let in -/

/-- What is issued and let in joins the requests. -/
theorem admitted_of_issues (hissues : ReflTransGen Issues v v') :
    ∃ joined : List Waiting, v'.requests = v.requests ++ joined ∧
      v'.admitted = v.admitted ++ joined.map (fun w => (w.id, v.now)) ∧ v'.now = v.now := by
  induction hissues with
  | refl => exact ⟨[], by simp⟩
  | @tail u _ _ hissued ih =>
    obtain ⟨joined, hrequests, hadmitted, hnow⟩ := ih
    cases hissued with
    | gone => exact ⟨joined, hrequests, hadmitted, hnow⟩
    | @admitted id =>
      refine ⟨joined ++ [⟨id, u.outward.readyAt u.now⟩], ?_, ?_, hnow⟩
      · rw [hrequests, List.append_assoc]
      · rw [hadmitted, hnow, List.map_append, List.append_assoc]
        rfl

/-- The accesses that an event lets in are the requests beyond those that waited before. -/
theorem Moves.admitted_eq (hmoves : v.Moves tick v') :
    v'.admitted = v.admitted ++ (v'.requests.drop v.requests.length).map fun w => (w.id, v'.now) := by
  cases hmoves with
  | stays => simp [Transit.later]
  | carries hcarries =>
    have hnone : v'.requests.drop v.requests.length = [] ∧ v'.admitted = v.admitted := by
      cases hcarries with
      | taken hrequests =>
        change v.requests = _ at hrequests
        refine ⟨List.drop_eq_nil_of_le ?_, rfl⟩
        rw [hrequests]
        exact Nat.le_succ _
      | performed => exact ⟨List.drop_length, rfl⟩
      | returned => exact ⟨List.drop_length, rfl⟩
    rw [hnone.1, hnone.2]
    exact (List.append_nil _).symm
  | issues hissues =>
    obtain ⟨joined, hrequests, hadmitted, hnow⟩ := admitted_of_issues hissues
    rw [hrequests, hadmitted, hnow]
    change _ = v.admitted ++ ((v.requests ++ joined).drop v.requests.length).map _
    rw [List.drop_left]
    rfl

/-! ### What stays -/

/-- An event leaves the lengths of the way, and counts nothing itself. -/
theorem Moves.rest_eq (hmoves : v.Moves tick v') :
    v'.roundTrip = v.roundTrip ∧ v'.completed = v.completed := by
  cases hmoves with
  | stays => exact ⟨rfl, rfl⟩
  | carries hcarries => cases hcarries <;> exact ⟨rfl, rfl⟩
  | issues hissues =>
    induction hissues with
    | refl => exact ⟨rfl, rfl⟩
    | tail _ hissued ih =>
      obtain ⟨hroundTrip, hcompleted⟩ := ih
      rw [← hroundTrip, ← hcompleted]
      cases hissued <;> exact ⟨rfl, rfl⟩

theorem Moves.now_eq (hmoves : v.Moves tick v') : v'.now = tick := by
  cases hmoves with
  | stays => rfl
  | carries hcarries => cases hcarries <;> rfl
  | issues hissues =>
    obtain ⟨joined, -, -, hnow⟩ := admitted_of_issues hissues
    exact hnow

/-- Looking at responses leaves the time, the requests and those that were let in. -/
theorem rest_of_counts (hcounts : ReflTransGen Counts v v') :
    v'.roundTrip = v.roundTrip ∧ v'.now = v.now ∧ v'.requests = v.requests ∧
      v'.admitted = v.admitted := by
  induction hcounts with
  | refl => exact ⟨rfl, rfl, rfl, rfl⟩
  | tail _ hcounted ih =>
    obtain ⟨hroundTrip, hnow, hrequests, hadmitted⟩ := ih
    rw [← hroundTrip, ← hnow, ← hrequests, ← hadmitted]
    cases hcounted <;> exact ⟨rfl, rfl, rfl, rfl⟩

/-- No more is counted than has arrived. -/
theorem completed_le_of_counts (hcounts : ReflTransGen Counts v v') :
    v'.completed + v'.arrived.length ≤ v.completed + v.arrived.length := by
  induction hcounts with
  | refl => exact Nat.le_refl _
  | tail _ hcounted ih =>
    refine Nat.le_trans ?_ ih
    cases hcounted with
    | counted harrived =>
      rw [harrived, List.length_cons]
      exact Nat.le_of_eq (Nat.succ_add_eq_add_succ ..)
    | ignored harrived =>
      rw [harrived]
      exact Nat.le_succ _

end Transit

end TimedBridge
