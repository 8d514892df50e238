import Bendable.Command.Help
import Bendable.Command.Run
import Bendable.Settings.PlainFile
import Std.Time

/-!
# The program

Reads the environment, a file of assignments in the working directory and the time, runs the
command line, and writes what the run leaves behind. The file is taken to be plain.
-/

namespace Bendable

/-- How deep a snapshot may nest: about as deep as a limit of a thousand calls allows. -/
def snapshotNesting : Nat := 990

/-- The texts of the variables that the settings have. -/
def readEnvironment : IO Environment :=
  Settings.variableNames.filterMapM fun name => do
    return (← IO.getEnv name).map fun text => (name, text)

/-- The bytes of the file of assignments, if there is one; other errors in reading it end the
program. -/
def readAssignments : IO (Option ByteArray) :=
  try
    return some (← IO.FS.readBinFile ".env")
  catch
    | .noFileOrDirectory .. | .inappropriateType .. => return none
    | e => throw e

/-- The settings of the process, completed by the file of assignments. A file that is no text is a
usage error. -/
def readSettings : IO SettingsSource := do
  let env ← readEnvironment
  match ← readAssignments with
  | none => return .environment env
  | some bytes =>
    match String.fromUTF8? bytes with
    | some text => return .environment (env.complete PlainFile.load (some text))
    | none => return .unreadable "the file of assignments is not in UTF-8"

/-- The time as log records show it. -/
def currentTime : IO String := do
  return (← Std.Time.PlainDateTime.now).format "uuuu-MM-dd HH:mm:ss"

/-- Runs a command line and writes what it leaves behind; the result is the exit code. -/
def runProgram (words : List String) : IO UInt32 := do
  match run (some snapshotNesting) (← readSettings) words with
  | .help command =>
    IO.print (helpText command)
    return 0
  | .finished r =>
    IO.eprint (r.errorText (← currentTime))
    IO.print r.output
    return r.code.toUInt32
  | .escaped f =>
    IO.eprintln (f.message?.getD "The command cannot be carried out")
    return 1

end Bendable

/-- The program. -/
def main (words : List String) : IO UInt32 := Bendable.runProgram words
