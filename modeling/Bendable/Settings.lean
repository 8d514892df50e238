import Bendable.Fault
import Bendable.Settings.Environment
import Bendable.Text.Upper

/-!
# Settings

The log level, the layout of the zero score and the seed of the test harness. They are read from
the environment; the first variable that is wrong is to blame.

## Main definitions

* `LogLevel`: the severities of log records
* `Settings`: the settings with their defaults
* `Settings.load`: the settings of an environment
-/

namespace Bendable

/-- The severity of a log record. -/
inductive LogLevel where
  | debug
  | info
  | warning
  | error
  | critical
  deriving DecidableEq

namespace LogLevel

/-- The log levels in the order of their names. -/
def all : List LogLevel := [critical, debug, error, info, warning]

/-- The name of a log level. -/
def name : LogLevel → String
  | debug => "DEBUG"
  | info => "INFO"
  | warning => "WARNING"
  | error => "ERROR"
  | critical => "CRITICAL"

/-- The rank of a log level; the greater, the more severe. -/
def rank : LogLevel → Nat
  | debug => 0
  | info => 1
  | warning => 2
  | error => 3
  | critical => 4

/-- The log level with a name. -/
def ofName? (s : String) : Option LogLevel := all.find? (·.name == s)

end LogLevel

/-- The settings. -/
structure Settings where
  logLevel : LogLevel := .warning
  hardLevels : Int := 1
  softLevels : Int := 1
  harnessSeed : Int := 42
  deriving DecidableEq

/-- Why settings cannot be read. -/
inductive SettingsError where
  | logLevel (name : String) (upper : String)
  | notInteger (name : String) (text : String)
  | tooSmall (name : String) (least n : Int)

/-- The wording of a settings error. -/
def SettingsError.message : SettingsError → String
  | logLevel name upper =>
    name ++ " must be one of " ++ nameList (LogLevel.all.map LogLevel.name) ++ ", got " ++
      Quoted.quote upper
  | notInteger name text => name ++ " must be an integer, got " ++ Quoted.quote text
  | tooSmall name least n => name ++ " must be >= " ++ intText least ++ ", got " ++ intText n

namespace Settings

/-- The variable that holds the log level. -/
def logLevelName : String := "SCORE_KERNEL_LOG_LEVEL"

/-- The variable that holds the number of hard levels. -/
def hardLevelsName : String := "SCORE_KERNEL_HARD_LEVELS"

/-- The variable that holds the number of soft levels. -/
def softLevelsName : String := "SCORE_KERNEL_SOFT_LEVELS"

/-- The variable that holds the seed of the test harness. -/
def harnessSeedName : String := "SCORE_KERNEL_HARNESS_SEED"

/-- The variables in the order in which they are read. -/
def variableNames : List String := [logLevelName, hardLevelsName, softLevelsName, harnessSeedName]

/-- The log level of an environment; its name may be in any case. -/
def loadLogLevel (env : Environment) (name : String) (default : LogLevel) :
    Except SettingsError LogLevel :=
  match env.get? name with
  | none => .ok default
  | some text =>
    let upper := String.ofList (Upper.ofText text.toList)
    match LogLevel.ofName? upper with
    | some level => .ok level
    | none => .error (.logLevel name upper)

/-- An integer of an environment, with its least value if it has one. An empty variable counts as
unset. -/
def loadInt (env : Environment) (name : String) (default : Int) (least : Option Int) :
    Except SettingsError Int :=
  match env.get? name with
  | none => .ok default
  | some text =>
    if text = "" then .ok default
    else
      match Numeral.ofText? text.toList with
      | none => .error (.notInteger name text)
      | some n =>
        match least with
        | none => .ok n
        | some least => if n < least then .error (.tooSmall name least n) else .ok n

/-- The settings of an environment. -/
def load (env : Environment) : Except SettingsError Settings := do
  let logLevel ← loadLogLevel env logLevelName .warning
  let hardLevels ← loadInt env hardLevelsName 1 (some 0)
  let softLevels ← loadInt env softLevelsName 1 (some 0)
  let harnessSeed ← loadInt env harnessSeedName 42 none
  .ok { logLevel, hardLevels, softLevels, harnessSeed }

end Settings

end Bendable
