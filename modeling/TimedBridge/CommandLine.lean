import TimedBridge.CommandLine.FileFault
import TimedBridge.CommandLine.LogFilter
import TimedBridge.Scenario.Json
import TimedBridge.Simulation

/-!
The command line: `run` with a scenario file simulates the scenario and prints its report. Options
may stand before or behind the file, and the first faulty argument decides. What is printed is a
function of the arguments and of what reading the file yields.
-/

namespace TimedBridge.CommandLine

/-- The help text. -/
def usage : String := "\n".intercalate [
  "Usage: tag-bridge-sim <command> [options]",
  "",
  "Commands:",
  "  run <scenario> [--log-level <level>] [--json]  Run a scenario to completion",
  "",
  "Options:",
  "  -l, --log-level <level>  Log filter, e.g. debug or tag_bridge=trace",
  "                           (default: RUST_LOG, else warn)",
  "      --json               Print the report as JSON",
  "  -h, --help               Show this help message",
  "",
  "Examples:",
  "  tag-bridge-sim run scenario.json",
  "  tag-bridge-sim run scenario.json --log-level debug",
  "  tag-bridge-sim run scenario.json --json",
  ""]

/-! ### Arguments -/

/-- What `run` is to do. -/
structure RunArgs where
  scenario : String
  logLevel : Option String := none
  json : Bool := false
  deriving DecidableEq, Repr

/-- What is wrong with the arguments. -/
inductive UsageFault where
  | missingCommand
  | unknownCommand (name : String)
  /-- Help was asked for behind `run`. -/
  | help
  | missingLogLevel
  | unknownOption (name : String)
  | multipleScenarios
  | missingScenario
  deriving DecidableEq, Repr

/-- The message that reports a usage fault. -/
def UsageFault.message : UsageFault → String
  | missingCommand => "missing command"
  | unknownCommand name => "unknown command: " ++ name
  | help => usage
  | missingLogLevel => "missing value for --log-level"
  | unknownOption name => "unknown option: " ++ name
  | multipleScenarios => "multiple scenario paths provided"
  | missingScenario => "missing scenario path"

/-- What an argument behind `run` is. -/
inductive Argument where
  | help
  | json
  /-- The next argument is a log filter. -/
  | logLevel
  /-- Something that begins like an option. -/
  | unknown
  | operand
  deriving DecidableEq, Repr

/-- Tells what an argument is. -/
def Argument.of (arg : String) : Argument :=
  if arg = "--help" ∨ arg = "-h" then help
  else if arg = "--json" then json
  else if arg = "-l" ∨ arg = "--log-level" then logLevel
  else if arg.toList.head? = some '-' then unknown
  else operand

/-- Reads the arguments behind `run`; the first parameters hold what has been read. -/
def readRunArgs (scenario logLevel : Option String) (json : Bool) :
    List String → Except UsageFault RunArgs
  | [] =>
    match scenario with
    | some scenario => .ok { scenario, logLevel, json }
    | none => .error .missingScenario
  | arg :: rest =>
    match Argument.of arg with
    | .help => .error .help
    | .json => readRunArgs scenario logLevel true rest
    | .logLevel =>
      match rest with
      | [] => .error .missingLogLevel
      | level :: rest => readRunArgs scenario (some level) json rest
    | .unknown => .error (.unknownOption arg)
    | .operand =>
      if scenario.isSome then .error .multipleScenarios
      else readRunArgs (some arg) logLevel json rest

/-- Reads the arguments behind `run`. -/
def runArgs : List String → Except UsageFault RunArgs := readRunArgs none none false

/-- What the program is to do. -/
inductive Command where
  | help
  | run (args : RunArgs)
  deriving DecidableEq, Repr

/-- Reads all arguments. -/
def command : List String → Except UsageFault Command
  | [] => .error .missingCommand
  | first :: rest =>
    if first = "--help" ∨ first = "-h" then .ok .help
    else if first = "run" then (runArgs rest).map .run
    else .error (.unknownCommand first)

/-! ### Results -/

/-- What the program prints and its exit code. -/
structure Result where
  code : UInt32 := 0
  stdout : String := ""
  stderr : String := ""
  deriving DecidableEq, Inhabited, Repr

/-- The result of a failure with a message. -/
def Result.failure (code : UInt32) (message : String) : Result :=
  { code, stderr := "error: " ++ message ++ "\n" }

/-- The result of faulty arguments: help goes to the standard output, everything else is followed by
the help text. -/
def UsageFault.result : UsageFault → Result
  | help => { code := 1, stdout := usage ++ "\n" }
  | fault => { code := 1, stderr := "error: " ++ fault.message ++ "\n" ++ usage ++ "\n" }

/-- The result of a simulation that has ended. -/
def reportResult (args : RunArgs) (r : Report) : Result :=
  if args.json then { stdout := r.toJson.pretty 0 ++ "\n" }
  else { stdout := "Simulated " ++ args.scenario ++ "\n" ++ r.text ++ "\n" }

/-- The result of `run`, if the simulation ends within `n` events. Reading a file yields its text or
the reason of the failure. -/
def run? (n : Nat) (readFile : String → Except FileFault String) (args : RunArgs) : Option Result :=
  match LogFilter.check (args.logLevel.getD "") with
  | .error fault =>
    some (.failure 1 ("invalid log level " ++ args.logLevel.getD "" ++ ": " ++ fault.message))
  | .ok () =>
    match readFile args.scenario with
    | .error fault =>
      some (.failure 1 ("failed to read " ++ args.scenario ++ ": " ++ fault.message))
    | .ok text =>
      match Scenario.ofText text with
      | .error fault => some (.failure 1 fault.message)
      | .ok sc =>
        (sc.simulate? n).map fun
          | .error fault => .failure 2 fault.message
          | .ok r => reportResult args r

/-- The result of a program call, if its simulation ends within `n` events. -/
def result? (n : Nat) (readFile : String → Except FileFault String) (args : List String) :
    Option Result :=
  match command args with
  | .error fault => some fault.result
  | .ok .help => some { stdout := usage ++ "\n" }
  | .ok (.run args) => run? n readFile args

/-- The file that a program call reads, if its arguments are in order. -/
def inputPath? (args : List String) : Option String :=
  match command args with
  | .ok (.run args) => some args.scenario
  | _ => none

end TimedBridge.CommandLine
