import TimedBridge.Text.CharClass

/-!
Text in double quotes as messages show it: the quote, the backslash and the common controls are
escaped by one letter, every other hidden character by its code point.
-/

namespace TimedBridge

/-- How a character stands in a quoted text. -/
def quotedChar (c : Char) : List Char :=
  match c with
  | '"' => ['\\', '"']
  | '\\' => ['\\', '\\']
  | '\n' => ['\\', 'n']
  | '\r' => ['\\', 'r']
  | '\t' => ['\\', 't']
  | '\x00' => ['\\', '0']
  | c =>
    if isHidden c then
      ['\\', 'u', '\x7b'] ++ Nat.toDigits 16 c.toNat ++ ['\x7d']
    else [c]

/-- A text in double quotes. -/
def quoted (s : String) : String := "\"" ++ String.ofList (s.toList.flatMap quotedChar) ++ "\""

example : quoted "a\"\n\u0301é" = "\"a\\\"\\n\\u\x7b301\x7dé\"" := by decide +kernel

end TimedBridge
