/-!
JSON values as they are written: objects keep the order of their members. All numbers written are
natural.
-/

namespace TimedBridge

/-- A value to be written as JSON. -/
inductive Json where
  | null
  | boolean (b : Bool)
  | number (n : Nat)
  | string (s : String)
  | array (elements : List Json)
  | object (members : List (String × Json))

namespace Json

/-- How a character stands in a JSON string. -/
def escapedChar (c : Char) : List Char :=
  match c with
  | '"' => ['\\', '"']
  | '\\' => ['\\', '\\']
  | '\x08' => ['\\', 'b']
  | '\x09' => ['\\', 't']
  | '\x0a' => ['\\', 'n']
  | '\x0c' => ['\\', 'f']
  | '\x0d' => ['\\', 'r']
  | c =>
    if c.toNat < 0x20 then
      ['\\', 'u', '0', '0'] ++ (if c.toNat < 0x10 then ['0'] else ['1']) ++
        Nat.toDigits 16 (c.toNat % 16)
    else [c]

/-- The JSON string of a text. -/
def stringText (s : String) : String :=
  "\"" ++ String.ofList (s.toList.flatMap escapedChar) ++ "\""

mutual

/-- The text of a value without blanks. -/
def compact : Json → String
  | null => "null"
  | boolean b => if b then "true" else "false"
  | number n => toString n
  | string s => stringText s
  | array elements => "[" ++ compactElements elements ++ "]"
  | object members => "\x7b" ++ compactMembers members ++ "\x7d"

/-- The texts of elements, separated by commas. -/
def compactElements : List Json → String
  | [] => ""
  | [v] => v.compact
  | v :: w :: rest => v.compact ++ "," ++ compactElements (w :: rest)

/-- The texts of members, separated by commas. -/
def compactMembers : List (String × Json) → String
  | [] => ""
  | [(k, v)] => stringText k ++ ":" ++ v.compact
  | (k, v) :: m :: rest => stringText k ++ ":" ++ v.compact ++ "," ++ compactMembers (m :: rest)

end

/-- A new line indented by two blanks for each level. -/
def newLine (level : Nat) : String := "\n" ++ String.ofList (List.replicate (2 * level) ' ')

mutual

/-- The text of a value with one element or member on a line, indented by its level. -/
def pretty (level : Nat) : Json → String
  | null => "null"
  | boolean b => if b then "true" else "false"
  | number n => toString n
  | string s => stringText s
  | array [] => "[]"
  | array elements => "[" ++ prettyElements level elements ++ newLine level ++ "]"
  | object [] => "\x7b\x7d"
  | object members => "\x7b" ++ prettyMembers level members ++ newLine level ++ "\x7d"

/-- The lines of elements. -/
def prettyElements (level : Nat) : List Json → String
  | [] => ""
  | [v] => newLine (level + 1) ++ v.pretty (level + 1)
  | v :: w :: rest =>
    newLine (level + 1) ++ v.pretty (level + 1) ++ "," ++ prettyElements level (w :: rest)

/-- The lines of members. -/
def prettyMembers (level : Nat) : List (String × Json) → String
  | [] => ""
  | [(k, v)] => newLine (level + 1) ++ stringText k ++ ": " ++ v.pretty (level + 1)
  | (k, v) :: m :: rest =>
    newLine (level + 1) ++ stringText k ++ ": " ++ v.pretty (level + 1) ++ "," ++
      prettyMembers level (m :: rest)

end

end Json

end TimedBridge
