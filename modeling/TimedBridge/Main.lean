import TimedBridge.CommandLine

/-!
The program: reads the scenario file that the arguments name and prints the result of the call.
-/

namespace TimedBridge

/-- The system's number for a failure, which the runtime may report with a minus sign. -/
def failureNumber : IO.Error → Nat
  | .noFileOrDirectory _ code _ | .permissionDenied _ code _ | .inappropriateType _ code _
  | .resourceExhausted _ code _ | .invalidArgument _ code _ | .noSuchThing _ code _
  | .hardwareFault code _ | .resourceBusy code _ | .otherError code _ =>
    min code.toNat (0 - code).toNat
  | _ => 0

/-- Reads a file's text. -/
def readText (path : String) : IO (Except CommandLine.FileFault String) := do
  try
    match String.fromUTF8? (← IO.FS.readBinFile path) with
    | some text => return .ok text
    | none => return .error .notText
  catch fault => return .error (.ofNumber (failureNumber fault))

/-- Looks for the result of a call within more and more events. -/
partial def settle (result? : Nat → Option CommandLine.Result) (events : Nat) :
    IO CommandLine.Result :=
  match result? events with
  | some result => return result
  | none => settle result? (2 * events)

end TimedBridge

/-- Runs the program. -/
def main (args : List String) : IO UInt32 := do
  let text ← match TimedBridge.CommandLine.inputPath? args with
    | some path => TimedBridge.readText path
    | none => pure (.ok "")
  let result ← TimedBridge.settle
    (fun events => TimedBridge.CommandLine.result? events (fun _ => text) args) 65536
  (← IO.getStdout).putStr result.stdout
  (← IO.getStderr).putStr result.stderr
  return result.code
