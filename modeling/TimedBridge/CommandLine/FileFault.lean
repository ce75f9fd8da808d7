/-!
Why a scenario file could not be read. The system numbers its failures; the common ones have a case
and words of their own.
-/

namespace TimedBridge.CommandLine

/-- Why a file could not be read. -/
inductive FileFault where
  | notFound
  | denied
  /-- A part of the path that should be a directory is none. -/
  | notDirectory
  | isDirectory
  | nameTooLong
  /-- The file's bytes are no text. -/
  | notText
  /-- Another failure, by the system's number for it. -/
  | other (number : Nat)
  deriving DecidableEq, Repr

namespace FileFault

/-- The fault that has a number of the system's. -/
def ofNumber : Nat → FileFault
  | 2 => notFound
  | 13 => denied
  | 20 => notDirectory
  | 21 => isDirectory
  | 36 => nameTooLong
  | number => other number

/-- The message that reports a fault of a file. -/
def message : FileFault → String
  | notFound => "No such file or directory (os error 2)"
  | denied => "Permission denied (os error 13)"
  | notDirectory => "Not a directory (os error 20)"
  | isDirectory => "Is a directory (os error 21)"
  | nameTooLong => "File name too long (os error 36)"
  | notText => "stream did not contain valid UTF-8"
  | other number =>
    "Unknown error " ++ toString number ++ " (os error " ++ toString number ++ ")"

end FileFault

end TimedBridge.CommandLine
