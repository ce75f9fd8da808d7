import Mathlib.Data.List.Basic
import TimedBridge.Json.Record
import TimedBridge.Proofs.Json.Document

/-!
What readers make of whole values. A regular reader takes all the tokens of a value or finds a fault in
them, whatever follows the value; words, names, arrays and records of such values are read regularly. What
comes of an array is put together from what comes of its elements, and what comes of a record from what
comes of its members, one after the other (`Reader.outcome_array`, `Shape.outcome_object`,
`Shape.outcome_array`).
-/

namespace TimedBridge.Json

open Document

namespace Reader

variable {α β : Type} {read : Reader α}

/-- What comes of reading a value. -/
def outcome (read : Reader α) (d : Document) : Except ReadFault α := (read d.written).map Prod.fst

/-- The reader takes the value and leaves what follows it, or finds a fault in the value. -/
def Takes (read : Reader α) (d : Document) (r : Except ReadFault α) : Prop :=
  ∀ rest, read (d.written ++ rest) = r.map fun a => (a, rest)

/-- A reader that takes each value as a whole. -/
def Regular (read : Reader α) : Prop := ∀ d, read.Takes d (read.outcome d)

theorem Takes.outcome_eq {d : Document} {r : Except ReadFault α} (h : read.Takes d r) :
    read.outcome d = r := by
  have halone := h []
  rw [List.append_nil] at halone
  rw [outcome, halone]
  cases r <;> rfl

/-- A text that holds a value is read as the value. -/
theorem run_text (h : read.Regular) {d : Document} {text : String} (htext : d.TextIs text) :
    read.run text = read.outcome d := by
  have hread := h d []
  rw [List.append_nil] at hread
  rw [run, htext.tokens_eq, hread]
  cases read.outcome d <;> rfl

theorem Takes.outcome {d : Document} {r : Except ReadFault α} (h : read.Takes d r) :
    read.Takes d (read.outcome d) :=
  h.outcome_eq ▸ h

/-! ### Words and names -/

theorem wrongKind_written (expected : String) (d : Document) (rest : List Token) :
    wrongKind expected (d.written ++ rest) = wrongKind expected d.written := by
  cases d with
  | number value => cases value <;> rfl
  | string value => cases value <;> rfl
  | _ => rfl

theorem takes_wrongKind (expected : String) {d : Document}
    (h : ∀ rest, read (d.written ++ rest) = .error (wrongKind expected (d.written ++ rest))) :
    read.Takes d (.error (wrongKind expected d.written)) := by
  intro rest
  rw [h, wrongKind_written]
  rfl

theorem regular_map (f : α → β) (h : read.Regular) : (map f read).Regular := by
  intro d
  have htakes : (map f read).Takes d ((read.outcome d).map f) := by
    intro rest
    rw [map, h d rest]
    cases read.outcome d <;> rfl
  exact htakes.outcome

theorem outcome_map (f : α → β) (read : Reader α) (d : Document) :
    (map f read).outcome d = (read.outcome d).map f := by
  rw [outcome, outcome, map]
  cases read d.written <;> rfl

theorem regular_natural (limit : Nat) (expected : String) : (natural limit expected).Regular := by
  intro d
  cases d with
  | number value =>
    rcases value with f | n | n | _
    case ok.natural =>
      rcases Nat.lt_or_ge limit n with hlt | hge
      · have htakes : (natural limit expected).Takes (.number (.ok (.natural n)))
            (.error (.unfit (.outOfRange (.number (.natural n)) expected))) :=
          fun rest => if_neg (Nat.not_le.2 hlt)
        exact htakes.outcome
      · have htakes : (natural limit expected).Takes (.number (.ok (.natural n))) (.ok n) :=
          fun rest => if_pos hge
        exact htakes.outcome
    all_goals exact fun rest => rfl
  | _ => exact (takes_wrongKind expected fun rest => rfl).outcome

theorem written_object_cons (k : Except Flaw String) (v : Document)
    (ms : List (Except Flaw String × Document)) (rest : List Token) :
    (Document.object ((k, v) :: ms)).written ++ rest =
      .openObject :: .string k (.ok ()) :: .colon ::
        (v.written ++ (membersFrom false ms ++ .closeObject :: rest)) := by
  simp [written, membersFrom, separator]

/-- A name that is the first key of an object is read, or there is a fault, whatever follows the object. -/
theorem exists_takes_variant (variants : List (String × α)) (name : String) (v : Document)
    (ms : List (Except Flaw String × Document)) :
    ∃ r, (variant variants).Takes (.object ((.ok name, v) :: ms)) r := by
  have htakes (r : Except ReadFault α) (h : ∀ rest, variantObject variants
      (.string (.ok name) (.ok ()) :: .colon ::
        (v.written ++ (membersFrom false ms ++ .closeObject :: rest))) = r.map fun a => (a, rest)) :
      (variant variants).Takes (.object ((.ok name, v) :: ms)) r := by
    intro rest
    rw [written_object_cons]
    exact h rest
  cases hvariant : variantOf variants name with
  | error f =>
    refine ⟨.error f, htakes _ fun rest => ?_⟩
    rw [variantObject, hvariant]
    rfl
  | ok a =>
    -- The value has to be null and the only one; any other is of the wrong kind.
    by_cases hnull : v = .null
    · subst hnull
      cases ms with
      | nil =>
        refine ⟨.ok a, htakes _ fun rest => ?_⟩
        rw [variantObject, hvariant]
        rfl
      | cons m ms =>
        refine ⟨.error (flaw .malformed), htakes _ fun rest => ?_⟩
        rw [variantObject, hvariant]
        rfl
    · refine ⟨.error (wrongKind "unit" v.written), htakes _ fun rest => ?_⟩
      rw [variantObject, hvariant,
        ← wrongKind_written "unit" v (membersFrom false ms ++ .closeObject :: rest)]
      cases v with
      | null => contradiction
      | _ => rfl

theorem regular_variant (variants : List (String × α)) : (variant variants).Regular := by
  intro d
  cases d with
  | string value =>
    cases value with
    | error f => exact fun rest => rfl
    | ok name =>
      have htakes : (variant variants).Takes (.string (.ok name)) (variantOf variants name) :=
        fun rest => rfl
      exact htakes.outcome
  | object members =>
    rcases members with _ | ⟨⟨f | name, v⟩, members⟩
    case nil => exact fun rest => rfl
    case cons.error => exact fun rest => rfl
    case cons.ok =>
      obtain ⟨r, htakes⟩ := exists_takes_variant variants name v members
      exact htakes.outcome
  | _ => exact fun rest => rfl

/-! ### Arrays -/

theorem nextElement_separator (first : Bool) (v : Document) (ts : List Token) :
    nextElement first (separator first ++ (v.written ++ ts)) = .ok (true, v.written ++ ts) := by
  cases first <;> cases v <;> rfl

/-- Elements are read one after the other up to the first fault. -/
theorem elements_elementsFrom (h : read.Regular) (vs : List Document) (first : Bool) {n : Nat}
    (hn : vs.length < n) (rest : List Token) :
    elements read n first (elementsFrom first vs ++ .closeArray :: rest) =
      (vs.mapM read.outcome).map fun as => (as, .closeArray :: rest) := by
  induction vs generalizing first n with
  | nil =>
    obtain ⟨n, rfl⟩ := Nat.exists_eq_add_of_lt hn
    rfl
  | cons v vs ih =>
    obtain ⟨n, rfl⟩ := Nat.exists_eq_add_one_of_ne_zero (Nat.ne_zero_of_lt hn)
    rw [elementsFrom, List.append_assoc, List.append_assoc, elements, nextElement_separator,
      List.mapM_cons]
    dsimp only
    rw [h v]
    cases read.outcome v with
    | error f => rfl
    | ok a =>
      dsimp only [Except.map]
      rw [map, ih false (Nat.lt_of_succ_lt_succ hn)]
      cases vs.mapM read.outcome <;> rfl

theorem takes_array (h : read.Regular) (vs : List Document) :
    (array read).Takes (.array vs) (vs.mapM read.outcome) := by
  intro rest
  have hlength : vs.length < (elementsFrom true vs ++ .closeArray :: rest).length + 1 := by
    have hvs := length_le_elementsFrom true vs
    rw [List.length_append]
    omega
  rw [written, List.cons_append, List.append_assoc, List.singleton_append, array,
    elements_elementsFrom h vs true hlength]
  cases vs.mapM read.outcome <;> rfl

theorem outcome_array (h : read.Regular) (vs : List Document) :
    (array read).outcome (.array vs) = vs.mapM read.outcome :=
  (takes_array h vs).outcome_eq

theorem regular_array (h : read.Regular) : (array read).Regular := by
  intro d
  cases d with
  | array vs => exact (takes_array h vs).outcome
  | _ => exact (takes_wrongKind "a sequence" fun rest => rfl).outcome

end Reader

namespace Shape

variable {α : Type} {s : Shape α}

/-- Each field of the record is read regularly. -/
def Regular (s : Shape α) : Prop := ∀ f ∈ s.fields, ∀ a, (f.read a).Regular

theorem regular_field {β : Type} (name : String) {read : Reader β} (put : α → β → α) (required : Bool)
    (h : read.Regular) (a : α) : ((Field.of name read put required).read a).Regular :=
  Reader.regular_map (put a) h

/-! ### Records as objects -/

/-- What comes of a member: the record with the field that it gives, and the names of the fields seen. -/
def take (s : Shape α) : α × List String → Except Flaw String × Document →
    Except ReadFault (α × List String)
  | _, (.error f, _) => .error (flaw f)
  | (a, seen), (.ok key, v) =>
    match s.fields.find? fun f => f.name = key with
    | none => if s.strict then .error (.unfit (.unknownField key s.names)) else .ok (a, seen)
    | some f =>
      if seen.contains key then .error (.unfit (.duplicateField key))
      else ((f.read a).outcome v).map fun a => (a, key :: seen)

/-- What comes of a record whose members have been read. -/
def finish (s : Shape α) (read : α × List String) : Except ReadFault α :=
  match s.missing? read.2 with
  | some name => .error (.unfit (.missingField name))
  | none => .ok read.1

/-- A member is read or skipped as a whole. -/
theorem member_written (h : s.Regular) (a : α) (seen : List String) (key : String) (v : Document)
    (rest : List Token) :
    s.member a seen key (.colon :: (v.written ++ rest)) =
      (s.take (a, seen) (.ok key, v)).map fun st => (st, rest) := by
  rw [member, take]
  cases hfind : s.fields.find? fun f => f.name = key with
  | none =>
    dsimp only
    cases s.strict with
    | true => rfl
    | false =>
      rw [Reader.colon]
      dsimp only
      rw [skipValue_written]
      rfl
  | some f =>
    dsimp only
    cases seen.contains key with
    | true => rfl
    | false =>
      rw [Reader.colon]
      dsimp only
      rw [h f (List.mem_of_find?_eq_some hfind) a v]
      cases (f.read a).outcome v <;> rfl

theorem nextKey_separator (first : Bool) (k : Except Flaw String) (ts : List Token) :
    nextKey first (separator first ++ .string k (.ok ()) :: ts) =
      (k.mapError Json.flaw).map fun k => (some k, ts) := by
  cases first <;> cases k <;> rfl

/-- Members are read one after the other up to the first fault. -/
theorem members_membersFrom (h : s.Regular) (ms : List (Except Flaw String × Document))
    (first : Bool) (a : α) (seen : List String) {n : Nat} (hn : ms.length < n) (rest : List Token) :
    s.members n first a seen (membersFrom first ms ++ .closeObject :: rest) =
      (ms.foldlM s.take (a, seen)).map fun st => (st, .closeObject :: rest) := by
  induction ms generalizing first a seen n with
  | nil =>
    obtain ⟨n, rfl⟩ := Nat.exists_eq_add_of_lt hn
    rfl
  | cons m ms ih =>
    obtain ⟨k, v⟩ := m
    obtain ⟨n, rfl⟩ := Nat.exists_eq_add_one_of_ne_zero (Nat.ne_zero_of_lt hn)
    rw [membersFrom, List.append_assoc, List.cons_append, List.cons_append, List.append_assoc, members,
      nextKey_separator, List.foldlM_cons]
    cases k with
    | error f => rfl
    | ok key =>
      dsimp only [Except.mapError, Except.map]
      rw [member_written h]
      cases s.take (a, seen) (.ok key, v) with
      | error fault => rfl
      | ok st => exact ih false st.1 st.2 (Nat.lt_of_succ_lt_succ hn)

theorem takes_object (h : s.Regular) (ms : List (Except Flaw String × Document)) :
    s.read.Takes (.object ms) ((ms.foldlM s.take (s.blank, [])).bind s.finish) := by
  intro rest
  have hlength : ms.length < (membersFrom true ms ++ .closeObject :: rest).length + 1 := by
    have hms := length_le_membersFrom true ms
    rw [List.length_append]
    omega
  rw [written, List.cons_append, List.append_assoc, List.singleton_append, read, readObject,
    members_membersFrom h ms true _ _ hlength]
  cases ms.foldlM s.take (s.blank, []) with
  | error fault => rfl
  | ok st =>
    dsimp only [Except.map, Except.bind]
    rw [finish]
    cases s.missing? st.2 <;> rfl

/-- What comes of an object. -/
theorem outcome_object (h : s.Regular) (ms : List (Except Flaw String × Document)) :
    s.read.outcome (.object ms) = (ms.foldlM s.take (s.blank, [])).bind s.finish :=
  (takes_object h ms).outcome_eq

/-! ### Records as arrays -/

/-- What comes of an element: the record with the field that it gives. -/
def put (a : α) (p : Field α × Document) : Except ReadFault α := (p.1.read a).outcome p.2

/-- What comes of a record whose first fields have been read from an array of some length. -/
def finishArray (s : Shape α) (length : Nat) (a : α) : Except ReadFault α :=
  match s.missing? (s.names.take length) with
  | some _ => .error (.unfit (.wrongLength (min s.fields.length length) s.expectedLength))
  | none => if length ≤ s.fields.length then .ok a else .error (flaw .malformed)

/-- Fields are read one after the other up to the first fault or the end of the array. -/
theorem elements_elementsFrom (fields : List (Field α)) (h : ∀ f ∈ fields, ∀ a, (f.read a).Regular)
    (vs : List Document) (a : α) (count : Nat) (rest : List Token) :
    elements fields a count (elementsFrom (count = 0) vs ++ .closeArray :: rest) =
      ((fields.zip vs).foldlM put a).map fun a => ((a, count + min fields.length vs.length),
        elementsFrom (count + fields.length = 0) (vs.drop fields.length) ++ .closeArray :: rest) := by
  induction fields generalizing vs a count with
  | nil => simp [elements]; rfl
  | cons f fields ih =>
    rw [List.forall_mem_cons] at h
    cases vs with
    | nil => rfl
    | cons v vs =>
      rw [elementsFrom, List.append_assoc, List.append_assoc, elements, Reader.nextElement_separator,
        List.zip_cons_cons, List.foldlM_cons, put]
      dsimp only
      rw [h.1 a v]
      cases (f.read a).outcome v with
      | error fault => rfl
      | ok b =>
        have hrest := ih h.2 vs b (count + 1)
        rw [decide_eq_false (Nat.succ_ne_zero count)] at hrest
        refine hrest.trans ?_
        simp only [List.length_cons, List.drop_succ_cons, Nat.add_assoc, Nat.add_comm 1,
          Nat.succ_min_succ]
        rfl

/-- An array ends where no element is left. -/
theorem endArray_elementsFrom (first : Bool) (vs : List Document) (rest : List Token) :
    Reader.endArray (elementsFrom first vs ++ .closeArray :: rest) =
      if vs = [] then .ok rest else .error (flaw .malformed) := by
  cases vs with
  | nil => rfl
  | cons v vs => cases first <;> cases v <;> rfl

theorem takes_array (h : s.Regular) (vs : List Document) :
    s.read.Takes (.array vs)
      (((s.fields.zip vs).foldlM put s.blank).bind (s.finishArray vs.length)) := by
  intro rest
  have helements := elements_elementsFrom s.fields h vs s.blank 0 rest
  rw [decide_eq_true rfl] at helements
  rw [written, List.cons_append, List.append_assoc, List.singleton_append, read, readArray, helements]
  cases (s.fields.zip vs).foldlM put s.blank with
  | error fault => rfl
  | ok a =>
    have hnames : s.names.take (0 + min s.fields.length vs.length) = s.names.take vs.length := by
      rw [Nat.zero_add, List.take_eq_take_iff, names, List.length_map]
      omega
    dsimp only [Except.map, Except.bind]
    rw [hnames, finishArray, Nat.zero_add]
    cases s.missing? (s.names.take vs.length) with
    | some name => rfl
    | none =>
      dsimp only
      rw [endArray_elementsFrom]
      rcases Nat.lt_or_ge s.fields.length vs.length with hlt | hge
      · rw [if_neg (mt List.drop_eq_nil_iff.1 (Nat.not_le.2 hlt)), if_neg (Nat.not_le.2 hlt)]
      · rw [if_pos (List.drop_eq_nil_iff.2 hge), if_pos hge]

/-- What comes of an array. -/
theorem outcome_array (h : s.Regular) (vs : List Document) :
    s.read.outcome (.array vs) =
      ((s.fields.zip vs).foldlM put s.blank).bind (s.finishArray vs.length) :=
  (takes_array h vs).outcome_eq

theorem regular_read (h : s.Regular) : s.read.Regular := by
  intro d
  cases d with
  | array vs => exact (takes_array h vs).outcome
  | object ms => exact (takes_object h ms).outcome
  | _ => exact (Reader.takes_wrongKind s.expected fun rest => rfl).outcome

end Shape

end TimedBridge.Json
