import WitnessLedger.Command.Run
import WitnessLedger.Version
import Std.Time.DateTime.Timestamp

/-! # The program

Reads the settings, the clock and a random seed, runs the command that the command line asks
for, and prints what it gives.  A command that fails tells its error on the error stream and
ends with the exit code of the error.

Two things are left to whoever starts the program.  A file `.env` is not looked for, so that a
setting has to stand in the environment itself.  The clock is read once and then stands still;
the library takes a clock that goes on as well, and nothing that a command prints depends on a
moment. -/

namespace WitnessLedger.Program

/-- The settings that stand in the environment. -/
def readSettings : IO (SortedMap String) := do
  let given ← Config.settingMeanings.filterMapM fun (key, _) => do
    return (← IO.getEnv key).map fun value => (key, value)
  return SortedMap.ofList given

/-- The present moment. -/
def readClock : IO Instant := do
  let now ← Std.Time.Timestamp.now
  return (Instant.ofParts? now.toSecondsSinceUnixEpoch.val now.val.nano.val.toNat).getD .epoch

/-- Suffixes for new ids that no other run has. -/
def readSuffixes : IO Suffixes := do
  let seed ← IO.getRandomBytes 16
  return .seeded (String.ofList (Text.Hex.encode seed.data.toList))

/-- How a command line is written. -/
def synopsis : String :=
  "usage: act [-n NODES] [-t THRESHOLD] [-f json|table|plain] [-v] COMMAND\n"
    ++ "commands: demo, simulate, config show, config validate, config env"

/-- Answers a command line that names no command to run. -/
def answerUsage : Command.UsageError → IO UInt32
  | .help => do
    IO.println synopsis
    return 0
  | .version => do
    IO.println ("act " ++ programVersion)
    return 0
  | e => do
    IO.eprintln ("error: " ++ e.name ++ "\n" ++ synopsis)
    return 2

/-- Runs a command and prints what it gives. -/
def perform (i : Command.Invocation) (settings : SortedMap String) : IO UInt32 := do
  let (lines, failure) := i.run settings.lookup? (← readSuffixes) (← readClock)
  IO.print (Command.printed lines)
  match failure with
  | none => return 0
  | some e =>
    IO.eprintln ("Error: " ++ e.message)
    return e.exitCode.toUInt32

end WitnessLedger.Program

/-- Runs the command that the arguments ask for. -/
def main (args : List String) : IO UInt32 := do
  let settings ← WitnessLedger.Program.readSettings
  match WitnessLedger.Command.readInvocation args settings.lookup? with
  | .ok i => WitnessLedger.Program.perform i settings
  | .error e => WitnessLedger.Program.answerUsage e
