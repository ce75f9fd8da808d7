import TimedBridge.Decimal.Shortest
import TimedBridge.Json.Token
import TimedBridge.Text.Quoted

/-!
What can be wrong with a JSON text that is to be read as a value of a known shape. Either it is not
JSON, or it is and does not fit the shape; a misfit has a message.
-/

namespace TimedBridge.Json

/-- What stands in a text in place of something else. -/
inductive Found where
  | null
  | boolean (b : Bool)
  | number (n : Number)
  | string (s : String)
  | sequence
  | map
  deriving DecidableEq

/-- The words for what was found. -/
def Found.text : Found → String
  | null => "null"
  | boolean b => if b then "boolean `true`" else "boolean `false`"
  | number (.natural n) => "integer `" ++ toString n ++ "`"
  | number (.negative n) => "integer `-" ++ toString n ++ "`"
  | number (.float negative magnitude) =>
    "floating point `" ++ (if negative then "-" else "") ++ (ShortDecimal.ofBinary magnitude).text ++
      "`"
  | string s => "string " ++ quoted s
  | sequence => "sequence"
  | map => "map"

/-- How a JSON value does not fit the shape that it should have. -/
inductive Misfit where
  | wrongType (found : Found) (expected : String)
  | outOfRange (found : Found) (expected : String)
  /-- An array that stands for a record ends before a field that has no default. -/
  | wrongLength (count : Nat) (expected : String)
  | missingField (name : String)
  | duplicateField (name : String)
  | unknownField (name : String) (known : List String)
  | unknownVariant (name : String) (known : List String)
  deriving DecidableEq

/-- A name as messages show it. -/
def named (name : String) : String := "`" ++ name ++ "`"

/-- The names that could have stood somewhere. -/
def alternatives : List String → String
  | [] => "none"
  | [a] => named a
  | [a, b] => named a ++ " or " ++ named b
  | names => "one of " ++ ", ".intercalate (names.map named)

/-- The message that reports a misfit. -/
def Misfit.message : Misfit → String
  | wrongType found expected => "invalid type: " ++ found.text ++ ", expected " ++ expected
  | outOfRange found expected => "invalid value: " ++ found.text ++ ", expected " ++ expected
  | wrongLength count expected =>
    "invalid length " ++ toString count ++ ", expected " ++ expected
  | missingField name => "missing field " ++ named name
  | duplicateField name => "duplicate field " ++ named name
  | unknownField name known =>
    "unknown field " ++ named name ++ ", expected " ++ alternatives known
  | unknownVariant name known =>
    "unknown variant " ++ named name ++ ", expected " ++ alternatives known

/-- Why a text could not be read. -/
inductive ReadFault where
  /-- The text is not JSON. -/
  | flawed (flaw : Flaw)
  /-- The text is JSON so far, but not of the wanted shape. -/
  | unfit (misfit : Misfit)
  deriving DecidableEq

end TimedBridge.Json
