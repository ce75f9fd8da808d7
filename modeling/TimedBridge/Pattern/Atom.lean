import TimedBridge.Text.CharClass
import TimedBridge.Text.HexDigit

/-!
The smallest parts of a pattern: characters, classes named by a letter, and places such as the
beginning of a line. Which of them may stand where depends on the flags in force. A pattern is read as
characters or, without the flag `u`, as bytes; bytes must not make up half a character, and characters
have no tables of scripts and of upper and lower case.
-/

namespace TimedBridge.Pattern

/-- The flags that decide whether a pattern is sound. -/
structure Flags where
  /-- Upper and lower case are the same. -/
  caseless : Bool := false
  /-- The pattern speaks of characters, not of bytes. -/
  unicode : Bool := true
  /-- Blanks and comments in the pattern do not count. -/
  spaced : Bool := false
  deriving DecidableEq, Repr

/-- Sets the flags that `letters` names: those behind a minus sign are cleared. -/
def Flags.set (f : Flags) (letters : List Char) : Flags :=
  let on := letters.takeWhile (· ≠ '-')
  let off := letters.dropWhile (· ≠ '-')
  let value (c : Char) (old : Bool) : Bool := on.contains c || !off.contains c && old
  { caseless := value 'i' f.caseless, unicode := value 'u' f.unicode
    spaced := value 'x' f.spaced }

/-! ### Blanks and comments -/

/-- The text behind blanks and comments; the flag tells whether a comment is open. -/
def skipBlanks (comment : Bool) : List Char → List Char
  | [] => []
  | c :: cs =>
    if comment then skipBlanks (c ≠ '\n') cs
    else if isBlank c then skipBlanks false cs
    else if c = '#' then skipBlanks true cs
    else c :: cs

/-- The part of a pattern that counts next. -/
def Flags.next (f : Flags) (cs : List Char) : List Char :=
  if f.spaced then skipBlanks false cs else cs

/-- The first character that is neither blank nor the sign of a first comment. -/
def peekBlanks (comment : Bool) : List Char → Option Char
  | [] => none
  | c :: cs =>
    if isBlank c then peekBlanks comment cs
    else if c = '#' && !comment then peekBlanks true cs
    else some c

/-- The character that is looked at behind a minus sign in a bracket. -/
def Flags.peek (f : Flags) (cs : List Char) : Option Char :=
  if f.spaced then peekBlanks false cs else cs.head?

/-! ### Atoms -/

/-- A smallest part of a pattern. -/
inductive Atom where
  /-- A character; the flag tells whether it is given as the value of a byte. -/
  | char (c : Char) (byte : Bool)
  /-- Any character but the end of a line. -/
  | any
  /-- The digits, blanks or word characters, or all others. -/
  | named (others : Bool)
  /-- A place between characters; the flag tells whether words decide on it. -/
  | place (words : Bool)
  deriving DecidableEq, Repr

/-- Reads a number of `n` hexadecimal digits, behind those that give `value`. -/
def hex? (f : Flags) : Nat → Nat → List Char → Option (Nat × List Char)
  | 0, value, cs => some (value, cs)
  | n + 1, value, cs =>
    match f.next cs with
    | [] => none
    | c :: rest => (hexValue? c).bind fun d => hex? f n (value * 16 + d) rest

/-- Reads a character given by `n` hexadecimal digits. -/
def hexChar? (f : Flags) (n : Nat) (cs : List Char) : Option (Atom × List Char) :=
  match hex? f n 0 cs with
  | some (value, rest) =>
    if value < 0xd800 || 0xdfff < value && value < 0x110000 then
      some (.char (Char.ofNat value) (n = 2), rest)
    else none
  | none => none

/-- The letters behind a backslash that stand for one control character. -/
def controls : List (Char × Char) :=
  [('a', '\x07'), ('f', '\x0c'), ('n', '\n'), ('r', '\r'), ('t', '\t'), ('v', '\x0b')]

/-- Reads what follows a backslash. A sign stands for itself, other than the angle brackets, which mark
the ends of words. -/
def escape? (f : Flags) : List Char → Option (Atom × List Char)
  | [] => none
  | 'x' :: rest => hexChar? f 2 rest
  | 'u' :: rest => hexChar? f 4 rest
  | 'U' :: rest => hexChar? f 8 rest
  | c :: rest =>
    if ['d', 's', 'w'].contains c then some (.named false, rest)
    else if ['D', 'S', 'W'].contains c then some (.named true, rest)
    else if ['b', 'B', '<', '>'].contains c then some (.place true, rest)
    else if ['A', 'z'].contains c then some (.place false, rest)
    else if c.toNat < 0x80 && !c.isAlphanum then some (.char c false, rest)
    else (controls.lookup c).map fun control => (.char control false, rest)

namespace Atom

/-- Whether the atom may stand outside brackets. -/
def fits (f : Flags) : Atom → Bool
  | char c byte => if f.unicode then !f.caseless else !byte || c.toNat < 0x80
  | any => f.unicode
  | named others => !f.unicode && !others
  | place _ => true

/-- Whether the atom may stand in brackets. -/
def fitsBracket (f : Flags) : Atom → Bool
  | char c _ => if f.unicode then !f.caseless else c.toNat < 0x80
  | named others => !f.unicode && !others
  | any | place _ => false

end Atom

end TimedBridge.Pattern
