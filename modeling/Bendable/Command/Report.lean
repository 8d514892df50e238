import Bendable.Command.Request

/-!
# Reports

What a run of the program leaves behind: an exit code, a text for the output, and lines for the
error output, some of them log records. A log record is shown if it is severe enough.

## Main definitions

* `LogRecord`, `ErrorLine`: what the error output may hold
* `Report`: the result of a run
* `Outcome`: a report, a request for help, or a fault that is not about scores
* `Report.errorText`: the text of the error output
-/

namespace Bendable

/-- A part of the program that writes log records. -/
inductive Logger where
  | commands
  | parsing
  | snapshots
  deriving DecidableEq

/-- The name of a logger. -/
def Logger.name : Logger → String
  | commands => "score_kernel.cli"
  | parsing => "score_kernel.parsing"
  | snapshots => "score_kernel.snapshot"

/-- A log record. -/
structure LogRecord where
  level : LogLevel
  logger : Logger
  message : String

/-- A line of the error output. -/
inductive ErrorLine where
  | record (r : LogRecord)
  | text (s : String)

namespace ErrorLine

/-- Whether a line is shown under a log level. -/
def isShown (level : LogLevel) : ErrorLine → Bool
  | record r => level.rank ≤ r.level.rank
  | text _ => true

/-- The text of a line; a log record starts with the time. -/
def write (time : String) : ErrorLine → String
  | record r =>
    time ++ " - " ++ r.level.name ++ " - " ++ r.logger.name ++ " - " ++ r.message ++ "\n"
  | text s => s ++ "\n"

end ErrorLine

/-- What a run leaves behind. -/
structure Report where
  code : Nat
  output : String
  level : LogLevel
  errors : List ErrorLine

/-- The text of the error output. -/
def Report.errorText (time : String) (r : Report) : String :=
  String.join ((r.errors.filter (·.isShown r.level)).map (·.write time))

/-- How a run ends. -/
inductive Outcome where
  | help (command : Option Command)
  | finished (r : Report)
  | escaped (f : Fault)

/-- The report of a command line that cannot be understood. The lines on usage that `argparse` puts
before the line of the error are left out. -/
def UsageError.report (e : UsageError) : Report := ⟨2, "", .warning, [.text e.message]⟩

end Bendable
