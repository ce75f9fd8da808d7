import TimedBridge.Pattern.Atom

/-!
Classes of characters in brackets. A class holds characters, ranges, named classes and classes in
brackets of their own, and operators combine what stands left and right of them. Reading a class
checks it and measures its height, which is the greatest number of parts that lie in one another.
-/

namespace TimedBridge.Pattern

/-- The height of parts that stand side by side. -/
def sideBySide : List Nat → Nat
  | [] => 0
  | [h] => h
  | hs => hs.foldl max 0 + 1

/-- A class that has been opened. -/
structure Bracket where
  /-- The height of the operands of the operators so far. -/
  left : Option Nat := none
  /-- The heights of the members behind the last operator. -/
  members : List Nat := []
  /-- So far there are only minus signs, which stand for themselves here. -/
  fresh : Bool := true
  deriving Repr

namespace Bracket

/-- The height of what has been read of the class. -/
def height (b : Bracket) : Nat :=
  match b.left with
  | none => sideBySide b.members
  | some h => max h (sideBySide b.members) + 1

/-- Puts a member of height `h` into the class. -/
def add (b : Bracket) (h : Nat) : Bracket := { b with members := h :: b.members, fresh := false }

/-- Puts an operator behind the members. -/
def operate (b : Bracket) : Bracket := { left := some b.height, fresh := false }

/-- The names of classes in colons. -/
def kinds : List String :=
  ["alnum", "alpha", "ascii", "blank", "cntrl", "digit", "graph", "lower", "print", "punct",
    "space", "upper", "word", "xdigit"]

/-- Reads the name of a class, behind its first colon; gives whether the class holds all other
characters. -/
def kind? (cs : List Char) : Option (Bool × List Char) :=
  match cs with
  | ':' :: '^' :: rest => named true rest
  | ':' :: rest => named false rest
  | _ => none
where
  /-- Reads a name and what closes it. -/
  named (others : Bool) (cs : List Char) : Option (Bool × List Char) :=
    match cs.dropWhile (· ≠ ':') with
    | ':' :: ']' :: rest =>
      if kinds.contains (String.ofList (cs.takeWhile (· ≠ ':'))) then some (others, rest) else none
    | _ => none

/-- Opens a class. Without the flag for characters none may hold all bytes but some. -/
def open? (f : Flags) (cs : List Char) : Option (Bracket × List Char) :=
  match f.next cs with
  | '^' :: rest => if f.unicode then some ({}, rest) else none
  | rest => some ({}, rest)

/-- Reads a character or an escape. -/
def atom? (f : Flags) : List Char → Option (Atom × List Char)
  | [] => none
  | '\\' :: rest => escape? f rest
  | c :: rest => some (.char c false, rest)

/-- Reads a single member or a range; gives what follows it if it may stand in a class. -/
def range? (f : Flags) (cs : List Char) : Option (List Char) :=
  (atom? f cs).bind fun (a, rest) =>
    match f.next rest with
    | [] => none
    | c :: behind =>
      if c ≠ '-' || f.peek behind = some ']' || f.peek behind = some '-' then
        if a.fitsBracket f then some (c :: behind) else none
      else
        (atom? f (f.next behind)).bind fun (b, rest) =>
          match a, b with
          | .char first _, .char last _ =>
            if a.fitsBracket f && b.fitsBracket f && first ≤ last then some rest else none
          | _, _ => none

/-- Reads at most `n` parts of the open classes, of which `outer` lie around `b`; gives the height of
the outermost. -/
def read? (f : Flags) : Nat → Bracket → List Bracket → List Char → Option (Nat × List Char)
  | 0, _, _, _ => none
  | n + 1, b, outer, cs =>
    match f.next cs with
    | [] => none
    | c :: rest =>
      if b.fresh && (c = '-' || c = ']' && b.members.isEmpty) then
        if Atom.fitsBracket f (.char c false) then
          read? f n { b.add 0 with fresh := c = '-' } outer rest
        else none
      else
        match c, rest with
        | '[', _ =>
          match kind? rest with
          | some (others, rest) =>
            if if f.unicode then !f.caseless else !others then read? f n (b.add 0) outer rest
            else none
          | none =>
            (open? f rest).bind fun (inner, rest) => read? f n inner (b :: outer) rest
        | ']', _ =>
          match outer with
          | [] => some (b.height + 1, rest)
          | around :: outer => read? f n (around.add (b.height + 1)) outer rest
        | '&', '&' :: rest | '-', '-' :: rest | '~', '~' :: rest => read? f n b.operate outer rest
        | _, _ => (range? f (c :: rest)).bind fun rest => read? f n (b.add 0) outer rest

/-- Reads a class behind its opening bracket. -/
def class? (f : Flags) (cs : List Char) : Option (Nat × List Char) :=
  (open? f cs).bind fun (b, rest) => read? f (rest.length + 1) b [] rest

end Bracket

end TimedBridge.Pattern
