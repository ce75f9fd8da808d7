import TimedBridge.Pattern
import TimedBridge.Text.ByteSpan

/-!
Log filters: directives separated by commas. A directive is a level, or a target, a span in square
brackets with fields in braces, and behind an equals sign a level; each of these parts may be missing.
A field is a name and behind an equals sign a value, which is a number or a pattern. Here a filter is
only checked.
-/

namespace TimedBridge.LogFilter

/-- What is wrong with a filter. -/
inductive Fault where
  /-- A directive has a part out of place. -/
  | directive
  /-- Behind an equals sign stands no level. -/
  | level
  /-- The value of a field is neither a number nor a pattern that can be searched for. -/
  | field (fault : Pattern.Fault)
  deriving DecidableEq, Repr

/-- The message that reports a fault of a filter. -/
def Fault.message : Fault → String
  | directive => "invalid filter directive"
  | level =>
    "error parsing level filter: expected one of \"off\", \"error\", \"warn\", \"info\", " ++
      "\"debug\", \"trace\", or a number 0-5"
  | field fault => "invalid field filter: " ++ fault.message

/-! ### Levels -/

/-- The number that a text of decimal digits stands for. -/
def number? (cs : List Char) : Option Nat :=
  let digits := if cs.head? = some '+' then cs.tail else cs
  if digits.isEmpty || !digits.all Char.isDigit then none
  else some (digits.foldl (fun n c => n * 10 + (c.toNat - 48)) 0)

/-- The words for levels. -/
def levelWords : List String := ["off", "error", "warn", "info", "debug", "trace"]

/-- The text in lower case, as far as it is in the letters of ASCII. -/
def lower (cs : List Char) : String := String.ofList (cs.map Char.toLower)

/-- Whether a text is a level: a word in upper or lower case, or a number up to five. -/
def isLevel (cs : List Char) : Bool := (number? cs).any (· ≤ 5) || levelWords.contains (lower cs)

/-- Checks the level behind an equals sign; it may be missing. -/
def checkLevel (cs : List Char) : Except Fault Unit :=
  if cs.isEmpty || isLevel cs then .ok () else .error .level

/-! ### Fields -/

/-- Whether a text is an exponent, which may be missing. -/
def isExponent : List Char → Bool
  | [] => true
  | e :: cs =>
    let digits := if cs.head? = some '+' || cs.head? = some '-' then cs.tail else cs
    (e = 'e' || e = 'E') && !digits.isEmpty && digits.all Char.isDigit

/-- Whether a text is a number: digits with a point and an exponent, or the word for what is no
number or beyond all of them. -/
def isNumeral (cs : List Char) : Bool :=
  let unsigned := if cs.head? = some '+' || cs.head? = some '-' then cs.tail else cs
  let whole := unsigned.takeWhile Char.isDigit
  let behind := unsigned.dropWhile Char.isDigit
  let point := behind.head? = some '.'
  let fraction := if point then behind.tail.takeWhile Char.isDigit else []
  let exponent := if point then behind.tail.dropWhile Char.isDigit else behind
  ["inf", "infinity", "nan"].contains (lower unsigned) ||
    (!whole.isEmpty || !fraction.isEmpty) && isExponent exponent

/-- Checks a field; its value stands between its first two equals signs. -/
def checkField (cs : List Char) : Except Fault Unit :=
  match cs.splitOn '=' with
  | _ :: value :: _ =>
    if isNumeral value then .ok () else (Pattern.check value).mapError .field
  | _ => .ok ()

/-! ### Directives -/

/-- The part of a directive that is being read, with the place where it begins. -/
inductive Part where
  | start
  /-- A level or a target. -/
  | name
  /-- A span, behind its bracket. -/
  | span (first : Nat)
  | field (first : Nat)
  /-- Behind the fields of a span. -/
  | fields
  /-- Behind a span. -/
  | target
  | level (first : Nat)
  deriving DecidableEq, Repr

/-- Whether a name may begin with the character. -/
def beginsName (c : Char) : Bool := c = '-' || c = ':' || c = '_' || isWordChar c

/-- The text of a part, if its ends are the ends of characters. -/
def partText (directive : List Char) (first behind : Nat) : Except Fault (List Char) :=
  match byteSpan? first behind directive with
  | some text => .ok text
  | none => .error .directive

/-- Reads the character `c` at the place `place` of a directive. -/
def Part.next (directive : List Char) (place : Nat) (c : Char) : Part → Except Fault Part
  | start =>
    if c = '[' then .ok (span (place + 1))
    else if beginsName c then .ok name
    else .error .directive
  | name =>
    if c = '=' then (partText directive 0 place).map fun _ => level (place + 1)
    else if c = '[' then (partText directive 0 place).map fun _ => span (place + 1)
    else .ok name
  | span first =>
    if c = ']' then (partText directive first place).map fun _ => target
    else if c = '\x7b' then (partText directive first place).map fun _ => field (place + 1)
    else .ok (span first)
  | field first =>
    if c = '\x7d' then
      match partText directive first place with
      | .error fault => .error fault
      | .ok [] => .error .directive
      | .ok text => (checkField text).map fun _ => fields
    else .ok (field first)
  | fields => if c = ']' then .ok target else .error .directive
  | target => if c = '=' then .ok (level (place + 1)) else .error .directive
  | level first => .ok (level first)

/-- Checks a directive that has been read up to a part. -/
def Part.check (directive : List Char) : Part → Except Fault Unit
  | name | target => .ok ()
  | level first =>
    match partText directive first (byteCount directive) with
    | .error fault => .error fault
    | .ok text => checkLevel text
  | start | span _ | field _ | fields => .error .directive

/-- Checks the rest of a directive, which begins at the place `place`. -/
def checkFrom (directive : List Char) (place : Nat) (part : Part) : List Char → Except Fault Unit
  | [] => part.check directive
  | c :: rest =>
    match part.next directive place c with
    | .ok part => checkFrom directive (place + c.utf8Size) part rest
    | .error fault => .error fault

/-- A text without the blanks at its ends. -/
def trimmed (cs : List Char) : List Char :=
  ((cs.dropWhile isBlank).reverse.dropWhile isBlank).reverse

/-- Checks a directive. It is read without the blanks at its ends, and places are counted so; but its
parts are the parts of the whole text at these places. -/
def checkDirective (cs : List Char) : Except Fault Unit := checkFrom cs 0 .start (trimmed cs)

/-- Checks directives one after another. -/
def checkAll : List (List Char) → Except Fault Unit
  | [] => .ok ()
  | d :: rest =>
    match checkDirective d with
    | .error fault => .error fault
    | .ok () => checkAll rest

/-- Checks a filter; empty directives do not count. -/
def check (filter : String) : Except Fault Unit :=
  checkAll ((filter.toList.splitOn ',').filter fun d => !d.isEmpty)

example : check "bridge=debug,,[turn\x7bid=7\x7d]=2" = .ok () := by cbv

example : check " bridge=debug" = .error .level := by cbv

end TimedBridge.LogFilter
