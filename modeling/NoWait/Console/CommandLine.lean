import NoWait.Console.Options
import NoWait.Console.Place
import NoWait.Console.Report
import NoWait.Console.Scenario
import NoWait.Workload

/-!
# Command lines

Two command lines are understood: the inspector's, with the commands `matrix`, `scenario` and
`dump-log`, and that of the workload, which has options only.

* `Invocation.parseInspector` and `Invocation.parseWorkload` read command lines; one that is not
  understood is refused as a whole;
* `Invocation.logPath` is the path of the log file, and `Invocation.logPlace?` the place to which it
  leads;
* `Command.run` carries a command out on the bytes of its log file, or on nothing when that file cannot
  be had, and gives back the lines to print, whether it succeeded, and the bytes of the file afterwards.
-/

namespace NoWait.Console

/-! ### Invocations -/

/-- What a command line asks for. -/
inductive Command where
  | matrix
  | scenario (scenario : Scenario)
  | dumpLog
  | workload (workload : Workload)
  deriving DecidableEq, Inhabited, Repr

/-- A command and where its log is; a file that is not named has the usual name. -/
structure Invocation where
  logDir : String
  logFile : Option String := none
  command : Command
  deriving DecidableEq, Inhabited, Repr

namespace Invocation

/-- The path of the log file: a name in the directory of the log, unless the name is itself a path from
the root. -/
def logPath (invocation : Invocation) (usual : String) : String :=
  let name := invocation.logFile.getD usual
  if name.startsWith "/" then name else invocation.logDir ++ "/" ++ name

/-- The place of the log file among given directories, for a log directory that is named from the
root. -/
def logPlace? (invocation : Invocation) (usual : String) (isDirectory : Place → Bool) :
    Option Place :=
  Place.ofPath? isDirectory (invocation.logPath usual)

/-! ### Reading command lines -/

/-- The directory of the log when none is named. -/
def usualLogDir : String := "logs"

/-- The option that asks for the version. -/
def versionFlag {σ : Type} : Flag σ :=
  { long := "version", short := some 'V', use := .halt .version }

/-- The option for the directory of the log, whose name is not empty. -/
def logDirFlag {σ : Type} (set : String → σ → σ) : Flag σ where
  long := "log-dir"
  short := some 'l'
  use := .value fun logDir state => if logDir.isEmpty then none else some (set logDir state)

/-- The option for the name of the log file. -/
def fileFlag : Flag (Option String) where
  long := "file"
  short := some 'f'
  use := .value fun name _ => some (some name)

/-- An option for a number of a workload. -/
def sizeFlag (name : String) (read : String → Option Nat) (set : Nat → Workload → Workload) :
    Flag (String × Workload) where
  long := name
  use := .value fun text (logDir, size) => (read text).map fun n => (logDir, set n size)

/-- The options of a workload. -/
def workloadFlags : List (Flag (String × Workload)) :=
  [logDirFlag fun logDir (_, size) => (logDir, size),
    versionFlag,
    sizeFlag "threads" (readCount UInt64.size) fun threads size => { size with threads },
    sizeFlag "txns" (readCount UInt64.size) fun txns size => { size with txns },
    sizeFlag "tables" (readCount UInt64.size) fun tables size => { size with tables },
    sizeFlag "records" (readSigned UInt32.size) fun records size => { size with records }]

/-- Refuses whatever stands for itself. -/
def expectNoOperands (args : List String) : Except Halt Unit := do
  unless (← operands args).isEmpty do throw .refused

/-- Reads the command of the inspector and what belongs to it. -/
def parseCommand (logDir : String) : List String → Except Halt Invocation
  | "matrix" :: args => do
    expectNoOperands args
    return { logDir, command := .matrix }
  | "scenario" :: args => do
    match ← operands args with
    | [name] =>
      match Scenario.all.find? (·.text = name) with
      | some scenario => return { logDir, command := .scenario scenario }
      | none => throw .refused
    | _ => throw .refused
  | "dump-log" :: args => do
    let (logFile, rest) ← readOptions [fileFlag] none [] none args
    expectNoOperands rest
    return { logDir, logFile, command := .dumpLog }
  | _ => throw .refused

/-- Reads a command line of the inspector. -/
def parseInspector (args : List String) : Except Halt Invocation := do
  let flags := [logDirFlag fun logDir _ => logDir, versionFlag]
  let (logDir, rest) ← readOptions flags none [] usualLogDir args
  parseCommand logDir rest

/-- Reads a command line of the workload. -/
def parseWorkload (args : List String) : Except Halt Invocation := do
  let ((logDir, size), rest) ← readOptions workloadFlags none [] (usualLogDir, {}) args
  expectNoOperands rest
  return { logDir, command := .workload size }

end Invocation

/-! ### Carrying a command out -/

/-- Why a command failed, and the exit code that tells so. -/
structure Failure where
  message : String
  code : Nat := 1
  deriving DecidableEq, Inhabited, Repr

namespace Failure

/-- A log that cannot go on, for want of sequence numbers or memory, has an exit code of its own. -/
def ofLogError (error : LogError) : Failure :=
  { message := error.message, code := if error = .exhausted || error = .outOfMemory then 101 else 1 }

/-- So has a workload that is too large for the memory. -/
def ofWorkloadError (error : WorkloadError) : Failure :=
  { message := error.message, code := if error = .outOfMemory then 101 else 1 }

end Failure

/-- What a command leaves: the lines to print, why it failed if it did, and the bytes of its log file if
it had one. -/
structure Outcome where
  lines : List String := []
  failure : Option Failure := none
  file : Option Bytes := none
  deriving DecidableEq, Inhabited, Repr

/-- The exit code of a command that was carried out. -/
def Outcome.code (outcome : Outcome) : Nat := (outcome.failure.map (·.code)).getD 0

namespace Command

/-- Opens the log of a command. -/
def openLog (file : Option Bytes) : Except Failure Log :=
  match file with
  | none => .error { message := "the log file cannot be opened" }
  | some file => (Log.ofFile {} file).mapError Failure.ofLogError

/-- Runs a scenario on a database. -/
def runScenario (scenario : Scenario) (db : Database) : Outcome :=
  match scenario.tell (db, []) with
  | .ok () (db, lines) => { lines := lines.reverse, file := some db.log.flush.file }
  | .error message (db, lines) =>
    { lines := lines.reverse, failure := some { message }, file := some db.log.file }

/-- Runs a workload on a database. -/
def runWorkload (workload : Workload) (db : Database) : Outcome :=
  match workload.run db with
  | .ok tally db => { lines := Workload.report tally db.log.flushedLsn, file := some db.log.file }
  | .error error db => { failure := some (.ofWorkloadError error), file := some db.log.file }

/-- Carries a command out at a given time, on the bytes of its log file. -/
def run (command : Command) (clock : UInt64) (file : Option Bytes) : Outcome :=
  let onLog (use : Log → Outcome) : Outcome :=
    match openLog file with
    | .ok log => use log
    | .error failure => { failure := some failure, file }
  match command with
  | .matrix => { lines := modeMatrix, file }
  | .scenario story => onLog fun log => runScenario story { log, clock }
  | .dumpLog => onLog fun log =>
    match log.records with
    | .ok records => { lines := logListing records, file := some log.file }
    | .error error => { failure := some (.ofLogError error), file := some log.file }
  | .workload size =>
    if size.tables = 0 then { failure := some { message := "--tables must be at least 1" }, file }
    else onLog fun log => runWorkload size { log, clock }

end Command

end NoWait.Console
