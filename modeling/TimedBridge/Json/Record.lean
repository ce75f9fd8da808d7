import TimedBridge.Json.Skip

/-!
Reading records. A record is given as an object, with its fields in any order, or as an array of its
fields in the order of declaration. A field may have a default; a field given twice is a fault. A
strict record refuses a key that is no field, any other record skips its value.
-/

namespace TimedBridge.Json

/-- A field of a record: its name, whether it must be given, and how its value is put into the
record. -/
structure Field (α : Type) where
  name : String
  required : Bool := false
  read : α → Reader α

/-- A field whose value is read by `read` and put into the record by `put`. -/
def Field.of {α β : Type} (name : String) (read : Reader β) (put : α → β → α)
    (required : Bool := false) : Field α :=
  { name, required, read := fun a => read.map (put a) }

/-- How a record is read. -/
structure Shape (α : Type) where
  name : String
  strict : Bool
  /-- The record with every field at its default. -/
  blank : α
  /-- The fields in the order of declaration. -/
  fields : List (Field α)

namespace Shape

variable {α : Type}

/-- What messages expect in place of the record. -/
def expected (s : Shape α) : String := "struct " ++ s.name

/-- The names of the fields. -/
def names (s : Shape α) : List String := s.fields.map Field.name

/-- The first field that must be given and is not. -/
def missing? (s : Shape α) (seen : List String) : Option String :=
  (s.fields.find? fun f => f.required && !seen.contains f.name).map Field.name

/-- What is expected of an array that stands for the record. -/
def expectedLength (s : Shape α) : String :=
  s.expected ++ " with " ++ toString s.fields.length ++ " elements"

/-! ### Records as arrays -/

/-- Reads fields in order, as far as the array goes; gives the record and the number of fields
read. -/
def elements (fields : List (Field α)) (a : α) (count : Nat) : Reader (α × Nat) := fun ts =>
  match fields with
  | [] => .ok ((a, count), ts)
  | f :: fields =>
    match Reader.nextElement (count = 0) ts with
    | .error fault => .error fault
    | .ok (false, rest) => .ok ((a, count), rest)
    | .ok (true, rest) =>
      match f.read a rest with
      | .error fault => .error fault
      | .ok (a, rest) => elements fields a (count + 1) rest

/-- Reads a record from an array that has just been opened. -/
def readArray (s : Shape α) : Reader α := fun ts =>
  match elements s.fields s.blank 0 ts with
  | .error fault => .error fault
  | .ok ((a, count), rest) =>
    match s.missing? (s.names.take count) with
    | some _ => .error (.unfit (.wrongLength count s.expectedLength))
    | none => (Reader.endArray rest).map fun rest => (a, rest)

/-! ### Records as objects -/

/-- Looks for another key in an object: the key, if there is one, and the tokens that follow. The flag
tells whether the object has just been opened. -/
def nextKey (first : Bool) : List Token → Except ReadFault (Option String × List Token)
  | [] => .error (flaw .truncated)
  | .closeObject :: rest => .ok (none, .closeObject :: rest)
  | .comma :: ts => if first then .error (flaw .malformed) else key ts
  | ts => if first then key ts else .error (flaw .malformed)
where
  /-- Reads a key. -/
  key : List Token → Except ReadFault (Option String × List Token)
    | [] => .error (flaw .truncated)
    | .string (.ok k) _ :: rest => .ok (some k, rest)
    | .string (.error f) _ :: _ => .error (flaw f)
    | _ :: _ => .error (flaw .malformed)

/-- Reads the value of a key into the record; gives the record and the names of the fields seen. -/
def member (s : Shape α) (a : α) (seen : List String) (key : String) :
    Reader (α × List String) := fun ts =>
  match s.fields.find? fun f => f.name = key with
  | none =>
    if s.strict then .error (.unfit (.unknownField key s.names))
    else
      match Reader.colon ts with
      | .error fault => .error fault
      | .ok rest => (Reader.skipValue rest).map fun rest => ((a, seen), rest)
  | some f =>
    if seen.contains key then .error (.unfit (.duplicateField key))
    else
      match Reader.colon ts with
      | .error fault => .error fault
      | .ok rest => (f.read a rest).map fun (a, rest) => ((a, key :: seen), rest)

/-- Reads at most `n` members. -/
def members (s : Shape α) : Nat → Bool → α → List String → Reader (α × List String)
  | 0, _, _, _, _ => .error (flaw .malformed)
  | n + 1, first, a, seen, ts =>
    match nextKey first ts with
    | .error fault => .error fault
    | .ok (none, rest) => .ok ((a, seen), rest)
    | .ok (some key, rest) =>
      match s.member a seen key rest with
      | .error fault => .error fault
      | .ok ((a, seen), rest) => members s n false a seen rest

/-- Reads a record from an object that has just been opened. -/
def readObject (s : Shape α) : Reader α := fun ts =>
  match s.members (ts.length + 1) true s.blank [] ts with
  | .error fault => .error fault
  | .ok ((a, seen), rest) =>
    match s.missing? seen, rest with
    | some name, _ => .error (.unfit (.missingField name))
    | none, .closeObject :: rest => .ok (a, rest)
    | none, _ => .error (flaw .malformed)

/-- Reads a record. -/
def read (s : Shape α) : Reader α
  | .openArray :: rest => s.readArray rest
  | .openObject :: rest => s.readObject rest
  | ts => .error (wrongKind s.expected ts)

end Shape

end TimedBridge.Json
