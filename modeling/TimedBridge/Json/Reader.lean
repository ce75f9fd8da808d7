import TimedBridge.Json.Fault

/-!
Reading values of known shapes from the tokens of a JSON text. A reader takes the tokens of one value
and gives the value and the tokens behind it, or the first fault in the order of the text.
-/

namespace TimedBridge.Json

/-- Reads a value from the beginning of a list of tokens. -/
abbrev Reader (α : Type) := List Token → Except ReadFault (α × List Token)

/-- The fault of a text that is not JSON. -/
abbrev flaw (f : Flaw) : ReadFault := .flawed f

/-- The fault of a list of tokens that does not begin with a value of the expected kind. -/
def wrongKind (expected : String) : List Token → ReadFault
  | [] => flaw .truncated
  | .null :: _ => .unfit (.wrongType .null expected)
  | .boolean b :: _ => .unfit (.wrongType (.boolean b) expected)
  | .number (.ok n) _ :: _ => .unfit (.wrongType (.number n) expected)
  | .number (.error f) _ :: _ => flaw f
  | .string (.ok s) _ :: _ => .unfit (.wrongType (.string s) expected)
  | .string (.error f) _ :: _ => flaw f
  | .openArray :: _ => .unfit (.wrongType .sequence expected)
  | .openObject :: _ => .unfit (.wrongType .map expected)
  | .stray f :: _ => flaw f
  | .closeObject :: _ | .closeArray :: _ | .comma :: _ | .colon :: _ => flaw .malformed

namespace Reader

variable {α β : Type}

/-- Reads a value and turns it into another. -/
def map (f : α → β) (read : Reader α) : Reader β := fun ts =>
  (read ts).map fun (a, rest) => (f a, rest)

/-- Reads a natural number up to `limit`. -/
def natural (limit : Nat) (expected : String) : Reader Nat
  | .number (.ok (.natural n)) _ :: rest =>
    if n ≤ limit then .ok (n, rest)
    else .error (.unfit (.outOfRange (.number (.natural n)) expected))
  | .number (.ok (.negative n)) _ :: _ =>
    .error (.unfit (.outOfRange (.number (.negative n)) expected))
  | ts => .error (wrongKind expected ts)

/-- Reads a word of 64 bits. -/
def word64 : Reader UInt64 := map UInt64.ofNat (natural 0xffffffffffffffff "u64")

/-- Reads a count that fits into a word of 64 bits. -/
def count : Reader UInt64 := map UInt64.ofNat (natural 0xffffffffffffffff "usize")

/-- Reads a word of 32 bits. -/
def word32 : Reader UInt32 := map UInt32.ofNat (natural 0xffffffff "u32")

/-- Reads a byte. -/
def byte : Reader UInt8 := map UInt8.ofNat (natural 0xff "u8")

/-! ### Sequences -/

/-- Looks for another element in an array: whether there is one, and the tokens that follow. The flag
tells whether the array has just been opened. -/
def nextElement (first : Bool) : List Token → Except ReadFault (Bool × List Token)
  | [] => .error (flaw .truncated)
  | .closeArray :: rest => .ok (false, .closeArray :: rest)
  | t :: rest =>
    if first then .ok (true, t :: rest)
    else
      match t, rest with
      | .comma, [] => .error (flaw .truncated)
      | .comma, .closeArray :: _ => .error (flaw .malformed)
      | .comma, rest => .ok (true, rest)
      | _, _ => .error (flaw .malformed)

/-- Reads the end of an array. -/
def endArray : List Token → Except ReadFault (List Token)
  | [] => .error (flaw .truncated)
  | .closeArray :: rest => .ok rest
  | _ :: _ => .error (flaw .malformed)

/-- Reads at most `n` elements. -/
def elements (read : Reader α) : Nat → Bool → Reader (List α)
  | 0, _, _ => .error (flaw .malformed)
  | n + 1, first, ts =>
    match nextElement first ts with
    | .error f => .error f
    | .ok (false, rest) => .ok ([], rest)
    | .ok (true, rest) =>
      match read rest with
      | .error f => .error f
      | .ok (a, rest) => map (a :: ·) (elements read n false) rest

/-- Reads an array of values of one shape. -/
def array (read : Reader α) : Reader (List α)
  | .openArray :: rest =>
    match elements read (rest.length + 1) true rest with
    | .error f => .error f
    | .ok (xs, rest) => (endArray rest).map fun rest => (xs, rest)
  | ts => .error (wrongKind "a sequence" ts)

/-! ### Names -/

/-- Reads the colon between a key and its value. -/
def colon : List Token → Except ReadFault (List Token)
  | [] => .error (flaw .truncated)
  | .colon :: rest => .ok rest
  | _ :: _ => .error (flaw .malformed)

/-- The value that a name stands for. -/
def variantOf (variants : List (String × α)) (name : String) : Except ReadFault α :=
  match variants.lookup name with
  | some a => .ok a
  | none => .error (.unfit (.unknownVariant name (variants.map Prod.fst)))

/-- Reads a variant given as an object with its name as the only key and null as the value. -/
def variantObject (variants : List (String × α)) : Reader α
  | .string (.ok name) _ :: rest =>
    match variantOf variants name, colon rest with
    | .error f, _ => .error f
    | .ok _, .error f => .error f
    | .ok a, .ok (.null :: .closeObject :: rest) => .ok (a, rest)
    | .ok _, .ok (.null :: []) => .error (flaw .truncated)
    | .ok _, .ok (.null :: _ :: _) => .error (flaw .malformed)
    | .ok _, .ok rest => .error (wrongKind "unit" rest)
  | .string (.error f) _ :: _ => .error (flaw f)
  | [] => .error (flaw .truncated)
  | _ :: _ => .error (flaw .malformed)

/-- Reads a value given by its name. -/
def variant (variants : List (String × α)) : Reader α
  | [] => .error (flaw .truncated)
  | .string (.ok name) _ :: rest => (variantOf variants name).map fun a => (a, rest)
  | .string (.error f) _ :: _ => .error (flaw f)
  | .openObject :: rest => variantObject variants rest
  | _ :: _ => .error (flaw .malformed)

/-- Reads a whole text. -/
def run (read : Reader α) (text : String) : Except ReadFault α :=
  match read (tokens text) with
  | .error f => .error f
  | .ok (a, []) => .ok a
  | .ok (_, _ :: _) => .error (flaw .malformed)

end Reader

end TimedBridge.Json
