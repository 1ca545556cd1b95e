import NoWait.Console.CommandLine
import Std.Time.DateTime.Timestamp

/-!
# The program

`workload` and the options behind it run a workload; any other command line is the inspector's.  The log
is the file of the usual name in the log directory, unless the command line names another.  The exit code
is 0 for success, 1 for a failure, 2 for a command line that is not understood and 101 when sequence
numbers or memory do not suffice.
-/

namespace NoWait.Console

/-- The usual name of a log file. -/
def usualLogFile : String := "nowait.wal"

/-- The name and the version of the program. -/
def versionText : String := "nowait 0.1.0"

/-- Reads a command line. -/
def parseArguments : List String → Except Halt Invocation
  | "workload" :: args => Invocation.parseWorkload args
  | args => Invocation.parseInspector args

/-- The bytes of a file, none when there is no such file, and nothing when it cannot be read. -/
def readLogFile (path : String) : IO (Option Bytes) := do
  try
    return some (← IO.FS.readBinFile path).toList
  catch
    | .noFileOrDirectory .. => return some []
    | _ => return none

/-- Carries an invocation out on the file system and returns the exit code. -/
def carryOut (invocation : Invocation) : IO UInt32 := do
  let path := invocation.logPath usualLogFile
  let before ← readLogFile path
  let now ← Std.Time.Timestamp.now
  let clock := UInt64.ofInt now.toSecondsSinceUnixEpoch.val
  let outcome := invocation.command.run clock before
  if outcome.file ≠ before then
    if let some bytes := outcome.file then
      IO.FS.createDirAll invocation.logDir
      IO.FS.writeBinFile path bytes.toByteArray
  outcome.lines.forM IO.println
  if let some failure := outcome.failure then IO.eprintln failure.message
  return UInt32.ofNat outcome.code

end NoWait.Console

/-- Runs the program on its arguments. -/
def main (args : List String) : IO UInt32 :=
  match NoWait.Console.parseArguments args with
  | .ok invocation => NoWait.Console.carryOut invocation
  | .error .version => do
    IO.println NoWait.Console.versionText
    return 0
  | .error .refused => do
    IO.eprintln "usage: workload OPTIONS | [--log-dir DIR] matrix | scenario NAME | dump-log [--file NAME]"
    return 2
