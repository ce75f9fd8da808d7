import TimedBridge.Fault

/-!
The requests that wait for a response, each with the route that its response has to take back. An
identity is in the table at most once.
-/

namespace TimedBridge

/-- The waiting requests, in the order in which they were saved. -/
structure RequestTable where
  entries : List (RequestId × Route) := []
  distinct : (entries.map Prod.fst).Nodup := by simp
  deriving DecidableEq, Repr

namespace RequestTable

/-- The route saved for a request. -/
def route? (t : RequestTable) (id : RequestId) : Option Route := t.entries.lookup id

/-- Whether a request is waiting. -/
def contains (t : RequestTable) (id : RequestId) : Bool := (t.route? id).isSome

/-- The number of waiting requests. -/
def size (t : RequestTable) : Nat := t.entries.length

/-- Whether no request is waiting. -/
def isEmpty (t : RequestTable) : Bool := t.entries.isEmpty

theorem contains_iff_mem {t : RequestTable} {id : RequestId} :
    t.contains id = true ↔ id ∈ t.entries.map Prod.fst := by
  rw [contains, route?]
  induction t.entries with
  | nil => simp
  | cons e rest ih =>
    rw [List.lookup_cons, List.map_cons, List.mem_cons, ← ih]
    by_cases h : id = e.1
    · simp [h]
    · rw [beq_eq_false_iff_ne.2 h]
      simp [h]

/-- Saves the route of a request that is not waiting yet. -/
def save (t : RequestTable) (id : RequestId) (route : Route) : Except BridgeFault RequestTable :=
  if h : t.contains id then .error (.duplicateRequest id)
  else .ok {
    entries := t.entries ++ [(id, route)]
    distinct := by
      rw [contains_iff_mem] at h
      rw [List.map_append, List.nodup_append]
      refine ⟨t.distinct, by simp, fun a ha b hb heq => h ?_⟩
      rw [List.map_singleton, List.mem_singleton] at hb
      rwa [← show b = id from hb, ← heq] }

/-- Takes a waiting request out of the table and gives its route. -/
def take (t : RequestTable) (id : RequestId) : Except BridgeFault (Route × RequestTable) :=
  match t.route? id with
  | none => .error (.missingRequest id)
  | some route => .ok (route, {
      entries := t.entries.filter fun e => e.1 != id
      distinct := t.distinct.sublist (List.filter_sublist.map _) })

/-! ### The routes after an operation -/

variable {t t' : RequestTable} {id : RequestId} {route : Route}

theorem route?_save (h : t.save id route = .ok t') (other : RequestId) :
    t'.route? other = if other = id then some route else t.route? other := by
  rw [save] at h
  split at h
  · contradiction
  · rename_i hc
    cases h
    rw [route?, List.lookup_append]
    change (t.route? other).or _ = _
    split
    · rename_i heq
      rw [heq, Option.not_isSome_iff_eq_none.1 hc]
      simp
    · rename_i hne
      rw [List.lookup_cons, beq_eq_false_iff_ne.2 hne]
      simp

theorem ids_save (h : t.save id route = .ok t') :
    t'.entries.map Prod.fst = t.entries.map Prod.fst ++ [id] := by
  rw [save] at h
  split at h
  · contradiction
  · cases h
    exact List.map_append

theorem size_save (h : t.save id route = .ok t') : t'.size = t.size + 1 := by
  rw [save] at h
  split at h
  · contradiction
  · cases h
    simp [size]

theorem route?_of_take (h : t.take id = .ok (route, t')) : t.route? id = some route := by
  rw [take] at h
  split at h
  · contradiction
  · rename_i hr
    cases h
    exact hr

theorem route?_take (h : t.take id = .ok (route, t')) (other : RequestId) :
    t'.route? other = if other = id then none else t.route? other := by
  rw [take] at h
  split at h
  · contradiction
  · cases h
    simp only [route?]
    induction t.entries with
    | nil => simp
    | cons e rest ih =>
      by_cases he : e.1 = id
      · rw [List.filter_cons_of_neg (by simp [he]), ih, List.lookup_cons]
        split
        · rfl
        · rename_i hne
          rw [beq_eq_false_iff_ne.2 (he ▸ hne)]
      · rw [List.filter_cons_of_pos (by simp [he]), List.lookup_cons, List.lookup_cons, ih]
        by_cases ho : other = e.1
        · simp [ho, he]
        · simp [beq_eq_false_iff_ne.2 ho]

theorem ids_take (h : t.take id = .ok (route, t')) :
    t'.entries.map Prod.fst = (t.entries.map Prod.fst).filter (· != id) := by
  rw [take] at h
  split at h
  · contradiction
  · cases h
    rw [List.filter_map]
    rfl

theorem size_take (h : t.take id = .ok (route, t')) : t'.size + 1 = t.size := by
  rw [take] at h
  split at h
  · contradiction
  · rename_i hr
    cases h
    have hmem := contains_iff_mem.1 (show t.contains id = true by rw [contains, hr]; rfl)
    have hdistinct := t.distinct
    simp only [size]
    clear hr
    generalize t.entries = entries at hmem hdistinct
    induction entries with
    | nil => contradiction
    | cons e rest ih =>
      rw [List.map_cons, List.nodup_cons] at hdistinct
      by_cases he : e.1 = id
      · have hall : rest.filter (fun e => e.1 != id) = rest :=
          List.filter_eq_self.2 fun x hx => bne_iff_ne.2 fun heq =>
            hdistinct.1 (he ▸ heq ▸ List.mem_map_of_mem hx)
        rw [List.filter_cons_of_neg (by simp [he]), hall, List.length_cons]
      · rw [List.map_cons, List.mem_cons] at hmem
        rw [List.filter_cons_of_pos (by simp [he]), List.length_cons, List.length_cons,
          ih (hmem.resolve_left fun heq => he heq.symm) hdistinct.2]

/-- A route that has been saved can be taken out again, and then the table is as it was. -/
theorem take_save (h : t.save id route = .ok t') : t'.take id = .ok (route, t) := by
  have hroute : t'.route? id = some route := by rw [route?_save h, if_pos rfl]
  rw [save] at h
  split at h
  · contradiction
  · rename_i hwaiting
    have hothers : ∀ e ∈ t.entries, (e.1 != id) = true := fun e he => bne_iff_ne.2 fun heq =>
      hwaiting (contains_iff_mem.2 (heq ▸ List.mem_map_of_mem he))
    have hentries : t'.entries.filter (fun e => e.1 != id) = t.entries := by
      rw [← Except.ok.inj h, List.filter_append, List.filter_eq_self.2 hothers]
      simp
    obtain ⟨entries, distinct⟩ := t
    subst hentries
    rw [take, hroute]

end RequestTable

end TimedBridge
