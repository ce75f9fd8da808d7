import TimedBridge.Pattern.Bracket

/-!
Patterns for text: regular expressions. Here a pattern is only checked. It is sound if its groups and
classes are closed, every repetition repeats something, and its parts do not lie too deep in one
another; and a sound pattern cannot be searched for if it speaks of the boundaries of words of all
scripts.
-/

namespace TimedBridge.Pattern

/-- What is wrong with a pattern. -/
inductive Fault where
  /-- The pattern is unsound. -/
  | unsound
  /-- The pattern speaks of the boundaries of words of all scripts. -/
  | wordBoundary
  deriving DecidableEq, Repr

/-- The message that reports a fault of a pattern. -/
def Fault.message : Fault → String
  | unsound => "error building NFA"
  | wordBoundary =>
    "unsupported regex feature for DFAs: cannot build DFAs for regexes with Unicode word " ++
      "boundaries; switch to ASCII word boundaries, or heuristically enable Unicode word " ++
      "boundaries or use a different regex engine"

/-- A part of a sequence: its height and whether it can be repeated. -/
structure Item where
  height : Nat
  repeatable : Bool := true
  deriving Repr

/-- A group that has been opened. -/
structure Group where
  /-- The flags that are in force again behind the group. -/
  outside : Flags := {}
  /-- The heights of the alternatives that are complete. -/
  alternatives : List Nat := []
  /-- The parts of the last alternative, the latest first. -/
  items : List Item := []
  deriving Repr

namespace Group

/-- The height of the last alternative. -/
def current (g : Group) : Nat := sideBySide (g.items.map Item.height)

/-- The height of what has been read of the group. -/
def height (g : Group) : Nat := sideBySide (g.current :: g.alternatives)

/-- Puts a part behind the others. -/
def add (g : Group) (i : Item) : Group := { g with items := i :: g.items }

/-- Begins another alternative. -/
def branch (g : Group) : Group := { g with alternatives := g.current :: g.alternatives, items := [] }

/-- Repeats the last part. -/
def repeated? (g : Group) : Option Group :=
  match g.items with
  | [] => none
  | i :: items => if i.repeatable then some { g with items := ⟨i.height + 1, true⟩ :: items } else none

end Group

/-- What has been read of a pattern. -/
structure Progress where
  flags : Flags := {}
  /-- The names of groups. -/
  names : List (List Char) := []
  /-- Words of all scripts decide on a place. -/
  words : Bool := false
  /-- The innermost open group. -/
  group : Group := {}
  /-- The groups around it, from inside to outside. -/
  around : List Group := []
  deriving Repr

namespace Progress

/-- Puts a part into the innermost group. -/
def add (p : Progress) (i : Item) : Progress := { p with group := p.group.add i }

/-- Opens a group in which the flags `inside` are in force. -/
def opened (p : Progress) (inside : Flags) : Progress :=
  { p with flags := inside, group := { outside := p.flags }, around := p.group :: p.around }

/-- Closes the innermost group. -/
def closed? (p : Progress) : Option Progress :=
  match p.around with
  | [] => none
  | g :: around => some
      { p with flags := p.group.outside, group := g.add ⟨p.group.height + 1, true⟩, around }

/-- Adds an atom, if it may stand here. -/
def addAtom? (p : Progress) (a : Atom) : Option Progress :=
  if a.fits p.flags then
    some { p.add ⟨0, true⟩ with words := p.words || p.flags.unicode && a = .place true }
  else none

end Progress

/-! ### Groups -/

/-- Whether a text can be the name of a group. -/
def isName : List Char → Bool
  | [] => false
  | c :: cs =>
    (c = '_' || isLetter c) &&
      cs.all fun c => c = '_' || c = '.' || c = '[' || c = ']' || isWordChar c

/-- Opens a group with a name. -/
def named? (p : Progress) (cs : List Char) : Option (Progress × List Char) :=
  let name := cs.takeWhile (· ≠ '>')
  match cs.dropWhile (· ≠ '>') with
  | [] => none
  | _ :: rest =>
    if isName name && !p.names.contains name then
      some ({ p.opened p.flags with names := name :: p.names }, rest)
    else none

/-- Reads the letters of flags up to a colon or bracket behind them: the letters, whether they are for a
group, and the text behind. No letter comes twice and the minus sign is not the last. -/
def flagLetters? (seen : List Char) : List Char → Option (List Char × Bool × List Char)
  | [] => none
  | c :: rest =>
    if c = ':' || c = ')' then
      if seen.head? = some '-' then none else some (seen.reverse, c = ':', rest)
    else if "-imsUuRx".toList.contains c && !seen.contains c then flagLetters? (c :: seen) rest
    else none

/-- Reads flags, for a group or for the rest of the group around them. -/
def flags? (p : Progress) (cs : List Char) : Option (Progress × List Char) :=
  (flagLetters? [] cs).bind fun (letters, forGroup, rest) =>
    let inside := p.flags.set letters
    if forGroup then some (p.opened inside, rest)
    else if letters.isEmpty then none
    else some ({ p with flags := inside }.add ⟨0, false⟩, rest)

/-- Reads what follows an opening bracket. -/
def group? (p : Progress) (cs : List Char) : Option (Progress × List Char) :=
  match p.flags.next cs with
  | '?' :: 'P' :: '<' :: rest | '?' :: '<' :: rest => named? p rest
  | '?' :: rest => flags? p rest
  | rest => some (p.opened p.flags, rest)

/-! ### Whole patterns -/

/-- Reads one part of a pattern, which begins with `c`. A brace would open a count. -/
def step? (p : Progress) (c : Char) (rest : List Char) : Option (Progress × List Char) :=
  match c with
  | '(' => group? p rest
  | ')' => p.closed?.map fun p => (p, rest)
  | '|' => some ({ p with group := p.group.branch }, rest)
  | '[' => (Bracket.class? p.flags rest).map fun (h, rest) => (p.add ⟨h, true⟩, rest)
  | '?' | '*' | '+' =>
    p.group.repeated?.map fun g =>
      ({ p with group := g }, if rest.head? = some '?' then rest.tail else rest)
  | '{' => none
  | '\\' => (escape? p.flags rest).bind fun (a, rest) => (p.addAtom? a).map fun p => (p, rest)
  | '.' => (p.addAtom? .any).map fun p => (p, rest)
  | '^' | '$' => (p.addAtom? (.place false)).map fun p => (p, rest)
  | c => (p.addAtom? (.char c false)).map fun p => (p, rest)

/-- Reads at most `n` parts of a pattern. -/
def read? : Nat → Progress → List Char → Option Progress
  | 0, _, _ => none
  | n + 1, p, cs =>
    match p.flags.next cs with
    | [] => some p
    | c :: rest => (step? p c rest).bind fun (p, rest) => read? n p rest

/-- The greatest height of a sound pattern. -/
def maxHeight : Nat := 250

/-- Checks a pattern that holds no closing brace, so that no count in braces is ever closed. -/
def check (cs : List Char) : Except Fault Unit :=
  match read? (cs.length + 1) {} cs with
  | none => .error .unsound
  | some p =>
    if !p.around.isEmpty || maxHeight < p.group.height then .error .unsound
    else if p.words then .error .wordBoundary
    else .ok ()

example : check "(?<n>a|[b-d&&[^c]])*$".toList = .ok () := by cbv

example : check "a(".toList = .error .unsound := by cbv

example : check "\\bx".toList = .error .wordBoundary := by cbv

end TimedBridge.Pattern
