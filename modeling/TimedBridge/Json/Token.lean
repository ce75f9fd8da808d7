import TimedBridge.Json.Numeral
import TimedBridge.Text.ByteSpan
import TimedBridge.Text.HexDigit

/-!
The tokens of a JSON text. A string or numeral can be flawed for one who wants its value and sound
for one who skips it: a skipped numeral may be beyond every range, and a skipped string may hold
unpaired surrogates. Such a token carries both readings, and a token that not even skipping gets over
is the last.
-/

namespace TimedBridge.Json

/-- Why a text is not JSON. -/
inductive Flaw where
  /-- Something stands where it may not. -/
  | malformed
  /-- The text ends too early. -/
  | truncated
  deriving DecidableEq, Repr

/-- A token of a JSON text. -/
inductive Token where
  | openObject
  | closeObject
  | openArray
  | closeArray
  | comma
  | colon
  | null
  | boolean (b : Bool)
  | number (value : Except Flaw Number) (skipped : Except Flaw Unit)
  | string (value : Except Flaw String) (skipped : Except Flaw Unit)
  /-- No token begins here. -/
  | stray (flaw : Flaw)

/-! ### Strings -/

/-- The 16-bit unit at the beginning of a text in four hexadecimal digits. -/
def unit? : List Char → Except Flaw Nat
  | a :: b :: c :: d :: _ =>
    match hexValue? a, hexValue? b, hexValue? c, hexValue? d with
    | some a, some b, some c, some d => .ok (((a * 16 + b) * 16 + c) * 16 + d)
    | _, _, _, _ => .error .malformed
  | cs => .error (if byteCount cs < 4 then .truncated else .malformed)

/-- The character for a one-letter escape. -/
def escape? : Char → Option Char
  | '"' => some '"'
  | '\\' => some '\\'
  | '/' => some '/'
  | 'b' => some '\x08'
  | 'f' => some '\x0c'
  | 'n' => some '\n'
  | 'r' => some '\r'
  | 't' => some '\t'
  | _ => none

/-- A string's value, the value of skipping it, and the text behind it. -/
structure StringScan where
  value : Except Flaw String
  skipped : Except Flaw Unit
  rest : List Char

/-- What has been read of a string: its characters in reverse, or the flaw met first. -/
abbrev Collected := Except Flaw (List Char)

/-- The scan of a string that cannot be skipped. -/
def StringScan.ofFlaw (flaw : Flaw) (read : Collected) : StringScan :=
  ⟨read.bind fun _ => .error flaw, .error flaw, []⟩

/-- Takes up a 16-bit unit: a character, the first half of a surrogate pair, or the second. -/
def Collected.addUnit (read : Collected) (half : Option Nat) (n : Nat) :
    Collected × Option Nat :=
  match half with
  | some high =>
    if 0xDC00 ≤ n && n ≤ 0xDFFF then
      (read.map (Char.ofNat (0x10000 + (high - 0xD800) * 0x400 + (n - 0xDC00)) :: ·), none)
    else (read.bind fun _ => .error .malformed, none)
  | none =>
    if 0xDC00 ≤ n && n ≤ 0xDFFF then (read.bind fun _ => .error .malformed, none)
    else if 0xD800 ≤ n && n ≤ 0xDBFF then (read, some n)
    else (read.map (Char.ofNat n :: ·), none)

/-- Notes that the first half of a surrogate pair is not followed by the second. -/
def Collected.unpaired (read : Collected) (half : Option Nat) : Collected :=
  if half.isSome then read.bind fun _ => .error .malformed else read

/-- Reads a string behind its opening quote. `half` is the first half of a surrogate pair that has
just been read. -/
def scanString (read : Collected) (half : Option Nat) : List Char → StringScan
  | [] => .ofFlaw .truncated read
  | '\\' :: [] => .ofFlaw .truncated read
  | '\\' :: 'u' :: rest =>
    match unit? rest, rest with
    | .ok n, _ :: _ :: _ :: _ :: rest =>
      let (read, half) := read.addUnit half n
      scanString read half rest
    | .ok _, _ => .ofFlaw .malformed read
    | .error flaw, _ => .ofFlaw flaw read
  | '\\' :: e :: rest =>
    let read := read.unpaired half
    match escape? e with
    | some c => scanString (read.map (c :: ·)) none rest
    | none => .ofFlaw .malformed read
  | c :: rest =>
    let read := read.unpaired half
    if c = '"' then ⟨read.map fun cs => String.ofList cs.reverse, .ok (), rest⟩
    else if c.toNat < 0x20 then .ofFlaw .malformed read
    else scanString (read.map (c :: ·)) none rest

/-! ### Tokens -/

/-- The text behind a word that must stand at its beginning. -/
def afterWord : List Char → List Char → Except Flaw (List Char)
  | [], cs => .ok cs
  | _ :: _, [] => .error .truncated
  | w :: word, c :: cs => if w = c then afterWord word cs else .error .malformed

/-- Whether a character may stand between tokens. -/
def isSpace (c : Char) : Bool := c = ' ' || c = '\n' || c = '\t' || c = '\r'

/-- The token that begins with the character `c`, and the text behind it unless it is the last. -/
def scanToken (c : Char) (cs : List Char) : Token × Option (List Char) :=
  let word (letters : List Char) (token : Token) : Token × Option (List Char) :=
    match afterWord letters cs with
    | .ok rest => (token, some rest)
    | .error flaw => (.stray flaw, none)
  match c with
  | '\x7b' => (.openObject, some cs)
  | '\x7d' => (.closeObject, some cs)
  | '[' => (.openArray, some cs)
  | ']' => (.closeArray, some cs)
  | ',' => (.comma, some cs)
  | ':' => (.colon, some cs)
  | 'n' => word ['u', 'l', 'l'] .null
  | 't' => word ['r', 'u', 'e'] (.boolean true)
  | 'f' => word ['a', 'l', 's', 'e'] (.boolean false)
  | '"' =>
    let s := scanString (.ok []) none cs
    (.string s.value s.skipped, s.skipped.toOption.map fun () => s.rest)
  | c =>
    if c = '-' || c.isDigit then
      match Numeral.scan (c :: cs) with
      | .complete l rest => (.number (l.value?.elim (.error .malformed) .ok) (.ok ()), some rest)
      | .broken atEnd =>
        (.number (.error (if atEnd then .truncated else .malformed)) (.error .malformed), none)
    else (.stray .malformed, none)

/-- The tokens of a text of at most `n` characters. -/
def scanTokens : Nat → List Char → List Token
  | 0, _ => []
  | _, [] => []
  | n + 1, c :: cs =>
    if isSpace c then scanTokens n cs
    else
      match scanToken c cs with
      | (token, some rest) => token :: scanTokens n rest
      | (token, none) => [token]

/-- The tokens of a text. -/
def tokens (text : String) : List Token := scanTokens text.toList.length text.toList

end TimedBridge.Json
