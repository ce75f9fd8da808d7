import TimedBridge.Json.Reader

/-!
Skipping a JSON value of any shape and depth. The brackets that are open are kept on a stack, so a
value is skipped in one pass over its tokens.
-/

namespace TimedBridge.Json

/-- An open bracket. -/
inductive Bracket where
  | array
  | object
  deriving DecidableEq, Repr

/-- What a skipped value goes on with. -/
inductive SkipState where
  /-- A value. -/
  | value
  /-- The first element of an array, or its end. -/
  | element
  /-- The first key of an object, or its end. -/
  | firstKey
  /-- A key of an object. -/
  | key
  /-- The colon behind a key. -/
  | colon
  /-- A comma or the end of the innermost bracket. -/
  | after
  deriving DecidableEq, Repr

/-- What follows the first token of a value: the rest of a bracket that it opens, or what comes behind
the value. -/
def SkipState.enter (stack : List Bracket) : Token → Except Flaw (SkipState × List Bracket)
  | .null | .boolean _ => .ok (.after, stack)
  | .number _ skipped | .string _ skipped => skipped.map fun () => (.after, stack)
  | .openArray => .ok (.element, .array :: stack)
  | .openObject => .ok (.firstKey, .object :: stack)
  | .stray f => .error f
  | .closeObject | .closeArray | .comma | .colon => .error .malformed

/-- Goes over a key of an object. -/
def SkipState.enterKey (stack : List Bracket) : Token → Except Flaw (SkipState × List Bracket)
  | .string _ skipped => skipped.map fun () => (.colon, stack)
  | _ => .error .malformed

/-- Goes over one token of a value with the given brackets open. -/
def SkipState.step (stack : List Bracket) : SkipState → Token →
    Except Flaw (SkipState × List Bracket)
  | .value, t => enter stack t
  | .element, .closeArray => .ok (.after, stack.tail)
  | .element, t => enter stack t
  | .firstKey, .closeObject => .ok (.after, stack.tail)
  | .firstKey, t => enterKey stack t
  | .key, t => enterKey stack t
  | .colon, .colon => .ok (.value, stack)
  | .colon, _ => .error .malformed
  | .after, t =>
    match stack, t with
    | .array :: _, .comma => .ok (.value, stack)
    | .object :: _, .comma => .ok (.key, stack)
    | .array :: rest, .closeArray => .ok (.after, rest)
    | .object :: rest, .closeObject => .ok (.after, rest)
    | _, _ => .error .malformed

/-- Skips the rest of a value; when it is over, the tokens behind it are left. -/
def skip (state : SkipState) (stack : List Bracket) : List Token → Except Flaw (List Token)
  | [] => if state = .after && stack.isEmpty then .ok [] else .error .truncated
  | t :: rest =>
    if state = .after && stack.isEmpty then .ok (t :: rest)
    else
      match state.step stack t with
      | .error f => .error f
      | .ok (state, stack) => skip state stack rest

/-- Skips a value. -/
def Reader.skipValue (ts : List Token) : Except ReadFault (List Token) :=
  (skip .value [] ts).mapError .flawed

end TimedBridge.Json
