import TimedBridge.Text.HiddenRuns
import TimedBridge.Text.LetterRuns

/-!
Classes of characters. A class of many scripts is written down as the lengths of its runs of code
points, alternately outside and inside the class, from code point zero on; what follows the last run
is outside.
-/

namespace TimedBridge

/-- Whether the code point `n` falls into one of the runs; `inside` tells the first run's side. -/
def inRuns (inside : Bool) (n : Nat) : List Nat → Bool
  | [] => false
  | run :: rest => if n < run then inside else inRuns (!inside) (n - run) rest

/-- Whether a quoted text shows the character as its code point. -/
def isHidden (c : Char) : Bool := inRuns false c.toNat hiddenRuns

/-- Whether the character is a letter of some script. -/
def isLetter (c : Char) : Bool := inRuns false c.toNat letterRuns

/-- Whether the character is a digit or another number of some script. -/
def isNumber (c : Char) : Bool := inRuns false c.toNat numberRuns

/-- Whether the character is a letter or a number of some script. -/
def isWordChar (c : Char) : Bool := isLetter c || isNumber c

/-- Whether the character is blank space of some script. -/
def isBlank (c : Char) : Bool :=
  let n := c.toNat
  9 ≤ n && n ≤ 13 || n = 0x20 || n = 0x85 || n = 0xa0 || n = 0x1680 || 0x2000 ≤ n && n ≤ 0x200a ||
    n = 0x2028 || n = 0x2029 || n = 0x202f || n = 0x205f || n = 0x3000

example : isHidden '\u200b' = true ∧ isHidden 'é' = false := by decide +kernel

example : isHidden '\u115f' = true ∧ isHidden '\uff9e' = false := by decide +kernel

example : isLetter 'ß' = true ∧ isLetter '7' = false := by decide +kernel

example : isWordChar '٠' = true ∧ isWordChar '.' = false := by decide +kernel

end TimedBridge
