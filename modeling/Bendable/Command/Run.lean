import Bendable.Command.Report
import Bendable.Score.Order
import Bendable.Score.Scale
import Bendable.Snapshot
import Bendable.Diagnostics

/-!
# Running commands

A command computes its whole output before anything is written. An error about scores ends the run
with a message; other faults escape. How deep a snapshot may nest is a parameter of a run.

## Main definitions

* `Request.evaluate`: the output of a request
* `Request.records`: the log records that a result leaves
* `run`: the outcome of a command line
-/

namespace Bendable

namespace Request

/-- The operand at an index; an operand that is missing is an empty list. -/
def operand (r : Request) (index : Nat) : Value := r.operands.getD index (.list [])

/-- The score that the operand at an index stands for. -/
def score (r : Request) (index : Nat) : Except Fault Score :=
  Score.parse (r.operand index) none none

/-- The scores of the first two operands, the left one read first. -/
def scores (r : Request) : Except Fault (Score × Score) := do
  let left ← r.score 0
  let right ← r.score 1
  .ok (left, right)

/-- The sign of an order. -/
def orderSign : Ordering → String
  | .lt => "<"
  | .eq => "="
  | .gt => ">"

/-- The output of a request, without the end of the line. -/
def evaluate (nesting : Option Nat) (settings : Settings) (r : Request) : Except Fault String :=
  match r.command with
  | .showScore => do
    let s ← r.score 0
    .ok (String.ofList (Json.indented 0 (Diagnostics.ofScore s).toValue))
  | .compare => do
    let (left, right) ← r.scores
    let o ← left.compare right
    .ok (orderSign o)
  | .add => do
    let (left, right) ← r.scores
    let s ← left.add right
    .ok (toString s)
  | .subtract => do
    let (left, right) ← r.scores
    let s ← left.subtract right
    .ok (toString s)
  | .multiply => do
    let s ← r.score 0
    let t ← s.multiply (r.operand 1)
    .ok (toString t)
  | .divide => do
    let s ← r.score 0
    let t ← s.divide (r.operand 1)
    .ok (toString t)
  | .power => do
    let s ← r.score 0
    let t ← s.power (r.operand 1)
    .ok (toString t)
  | .negate => do
    let s ← r.score 0
    .ok (toString s.negate)
  | .encode => do
    let s ← r.score 0
    .ok (String.ofList (Snapshot.encode s))
  | .hash => do
    let s ← r.score 0
    .ok (String.ofList (Snapshot.digest s))
  | .zero => do
    let hard := r.hardCount.getD (.int settings.hardLevels)
    let soft := r.softCount.getD (.int settings.softLevels)
    let s ← Score.zeroOf hard soft
    .ok (toString s)
  | .decode => do
    let s ← Snapshot.decode nesting (r.operand 0)
    .ok (toString s)

/-- The record of a rejected text; a value that is no text is not recorded. -/
def rejection (e : ParseError) : List LogRecord :=
  match e.reason with
  | .notText _ => []
  | reason =>
    [⟨.debug, .parsing,
      "Rejected score string " ++ Quoted.quote e.text ++ ": " ++ reason.message⟩]

/-- The log records that the result of a command leaves: rejected texts and decoded snapshots. -/
def records (command : Command) : Except Fault String → List LogRecord
  | .ok output =>
    if command = .decode then
      [⟨.debug, .snapshots, "Decoded score snapshot " ++ output⟩]
    else []
  | .error (.score (.parse e)) => rejection e
  | .error (.score (.decode (.invalidScore e))) => rejection e
  | .error _ => []

/-- The record of a command that starts. -/
def startRecord (command : Command) : LogRecord :=
  ⟨.debug, .commands, "Running command " ++ command.name⟩

/-- The record of a command that fails. -/
def failureRecord (command : Command) (e : ScoreError) : LogRecord :=
  ⟨.info, .commands, "Command " ++ command.name ++ " failed: " ++ e.message⟩

/-- The outcome of a request. -/
def outcome (nesting : Option Nat) (settings : Settings) (r : Request) : Outcome :=
  let level := if r.verbose then .debug else settings.logLevel
  let result := r.evaluate nesting settings
  let records := (startRecord r.command :: records r.command result).map ErrorLine.record
  match result with
  | .ok output => .finished ⟨0, output ++ "\n", level, records⟩
  | .error (.score e) =>
    .finished ⟨1, "", level,
      records ++ [.record (failureRecord r.command e), .text ("Error: " ++ e.message)]⟩
  | .error f => .escaped f

end Request

/-- Where the settings of a run come from: they are given, or an environment holds them, or the file
that should complete the environment is no text, with the wording of that. -/
inductive SettingsSource where
  | given (settings : Settings)
  | environment (env : Environment)
  | unreadable (message : String)

/-- The settings of a source. -/
def SettingsSource.load : SettingsSource → Except UsageProblem Settings
  | given settings => .ok settings
  | environment env => (Settings.load env).mapError .settings
  | unreadable message => .error (.unreadable message)

/-- The outcome of a command line. The words are understood before the settings are read. -/
def run (nesting : Option Nat) (source : SettingsSource) (words : List String) : Outcome :=
  match Request.ofWords words with
  | .error e => .finished e.report
  | .ok (.help command) => .help command
  | .ok (.request r) =>
    match source.load with
    | .error problem => .finished (UsageError.report ⟨none, problem⟩)
    | .ok settings => r.outcome nesting settings

end Bendable
