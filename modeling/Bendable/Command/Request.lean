import Bendable.Command.Words
import Bendable.Settings
import Bendable.Score.Build

/-!
# Requests

What a command line asks for: one of the twelve commands with its operands. The command is the
first plain word; its own switches and operands follow it.

## Main definitions

* `Command`: the commands
* `Request`: a command with its operands
* `UsageError`: why a command line cannot be understood
* `Request.ofWords`: the request of a command line, or a request for help
-/

namespace Bendable

/-- A command. -/
inductive Command where
  | showScore
  | compare
  | add
  | subtract
  | multiply
  | divide
  | power
  | negate
  | encode
  | hash
  | zero
  | decode
  deriving DecidableEq

namespace Command

/-- The commands in their order. -/
def all : List Command :=
  [showScore, compare, add, subtract, multiply, divide, power, negate, encode, hash, zero, decode]

/-- The name of a command. -/
def name : Command → String
  | showScore => "show"
  | compare => "compare"
  | add => "add"
  | subtract => "subtract"
  | multiply => "multiply"
  | divide => "divide"
  | power => "power"
  | negate => "negate"
  | encode => "encode"
  | hash => "hash"
  | zero => "zero"
  | decode => "decode"

/-- The command with a name. -/
def ofName? (s : String) : Option Command := all.find? (·.name == s)

/-- The name of the operand that is a number. -/
def numberName : String := "value"

/-- The names of the operands of a command. -/
def operandNames : Command → List String
  | compare | add | subtract => ["left", "right"]
  | multiply | divide | power => ["score", numberName]
  | showScore | negate | encode | hash => ["score"]
  | zero => []
  | decode => ["snapshot"]

end Command

/-! ## Usage errors -/

/-- What is wrong with a command line. -/
inductive UsageProblem where
  | words (c : Words.Complaint)
  | notNumber (name text : String)
  | notCount (name text : String)
  | negativeCount (name : String) (n : Int)
  | unknownCommand (name : String)
  | required (names : List String)
  | unrecognised (words : List String)
  | settings (e : SettingsError)
  | unreadable (message : String)

/-- A command line that cannot be understood; the command is named if its own words are wrong. -/
structure UsageError where
  command : Option Command
  problem : UsageProblem

/-- A complaint about an argument. -/
def aboutArgument (name text : String) : String := "argument " ++ name ++ ": " ++ text

/-- The wording of a complaint about words. -/
def Words.Complaint.message : Words.Complaint → String
  | .ambiguous word spellings =>
    "ambiguous option: " ++ word ++ " could match " ++ String.intercalate ", " spellings
  | .unusedText spellings text =>
    aboutArgument (String.intercalate "/" spellings)
      ("ignored explicit argument " ++ Quoted.quote text)
  | .missingWord spellings =>
    aboutArgument (String.intercalate "/" spellings) "expected one argument"

/-- The wording of a problem. -/
def UsageProblem.message : UsageProblem → String
  | words c => c.message
  | notNumber name text => aboutArgument name ("invalid float value: " ++ Quoted.quote text)
  | notCount name text =>
    aboutArgument name ("invalid _non_negative value: " ++ Quoted.quote text)
  | negativeCount name n => aboutArgument name ("must be >= 0, got " ++ intText n)
  | unknownCommand name =>
    aboutArgument "command" ("invalid choice: " ++ Quoted.quote name ++ " (choose from " ++
      String.intercalate ", " (Command.all.map fun c => Quoted.quote c.name) ++ ")")
  | required names =>
    "the following arguments are required: " ++ String.intercalate ", " names
  | unrecognised extras => "unrecognized arguments: " ++ String.intercalate " " extras
  | settings e => e.message
  | unreadable message => message

/-- The name of the program. -/
def programName : String := "score-kernel"

/-- The line that reports a usage error. -/
def UsageError.message (e : UsageError) : String :=
  programName ++ (match e.command with | some c => " " ++ c.name | none => "") ++ ": error: " ++
    e.problem.message

/-! ## Requests -/

/-- A command with its operands and the level counts that its switches set. An operand or a count
whose word was dropped is an empty list. -/
structure Request where
  command : Command
  verbose : Bool
  operands : List Value
  hardCount : Option Value
  softCount : Option Value

/-- What a command line asks for. -/
inductive Asked where
  | help (command : Option Command)
  | request (r : Request)

namespace Request

/-- The meaning of a switch. -/
inductive Meaning where
  | help
  | verbose
  | count (group : Group)
  deriving DecidableEq

/-- The switch for help. -/
def helpSwitch : Words.Switch Meaning := ⟨["-h", "--help"], false, .help⟩

/-- The switches before the command. -/
def mainSwitches : List (Words.Switch Meaning) :=
  [helpSwitch, ⟨["-v", "--verbose"], false, .verbose⟩]

/-- The spelling of the switch that sets a level count. -/
def countSpelling : Group → String
  | .hard => "--hard"
  | .soft => "--soft"

/-- The switches of a command. -/
def switches : Command → List (Words.Switch Meaning)
  | .zero =>
    [helpSwitch, ⟨[countSpelling .hard], true, .count .hard⟩,
      ⟨[countSpelling .soft], true, .count .soft⟩]
  | _ => [helpSwitch]

/-- Sets a level count. -/
def setCount (r : Request) (count : Value) : Group → Request
  | .hard => { r with hardCount := some count }
  | .soft => { r with softCount := some count }

/-- The level count that the word of a switch stands for. -/
def countOfWord (group : Group) : Option String → Except UsageProblem Value
  | none => .ok (.list [])
  | some word =>
    match Numeral.ofText? word.toList with
    | none => .error (.notCount (countSpelling group) word)
    | some n =>
      if n < 0 then .error (.negativeCount (countSpelling group) n) else .ok (.int n)

/-- The operand in the slot called `name`. -/
def operandOfWord (name : String) : Option String → Except UsageProblem Value
  | none => .ok (.list [])
  | some word =>
    if name = Command.numberName then
      match Binary64.ofText? word.toList with
      | some x => .ok (.real x)
      | none => .error (.notNumber name word)
    else .ok (.string word)

/-- Takes the steps of a command's words; `none` if help is asked for. -/
def takeSteps (r : Request) :
    List (Words.Step Meaning) → Except UsageProblem (Option Request)
  | [] => .ok (some r)
  | .switch .help _ :: _ => .ok none
  | .switch .verbose _ :: steps => takeSteps { r with verbose := true } steps
  | .switch (.count group) word :: steps => do
    let count ← countOfWord group word
    takeSteps (r.setCount count group) steps
  | .slot name word :: steps => do
    let v ← operandOfWord name word
    takeSteps { r with operands := r.operands ++ [v] } steps
  | .rest _ :: steps => takeSteps r steps

/-- The request of a command with its words, and the words left over; `none` if help is asked
for. -/
def ofCommandWords (command : Command) (verbose : Bool) (words : List String) :
    Except UsageProblem (Option (Request × List String)) := do
  let t := Words.trace (switches command) (command.operandNames.map .one) words
  -- The steps come first: help asked for before a complaint is given.
  match ← takeSteps ⟨command, verbose, [], none, none⟩ t.steps with
  | none => .ok none
  | some r =>
    match t.complaint with
    | some c => .error (.words c)
    | none =>
      if t.unfilled = [] then .ok (some (r, t.extras))
      else .error (.required (t.unfilled.map Words.Slot.name))

/-- The request of a command line from its command on; `extras` were left over before it. -/
def ofCommand (verbose : Bool) (extras : List String) : List String → Except UsageError Asked
  | [] => .error ⟨none, .required ["command"]⟩
  | name :: words =>
    match Command.ofName? name with
    | none => .error ⟨none, .unknownCommand name⟩
    | some command =>
      match ofCommandWords command verbose words with
      | .error p => .error ⟨some command, p⟩
      | .ok none => .ok (.help (some command))
      | .ok (some (r, more)) =>
        if extras ++ more = [] then .ok (.request r)
        else .error ⟨none, .unrecognised (extras ++ more)⟩

/-- Takes the steps before the command. -/
def takeMainSteps (t : Words.Trace Meaning) (verbose : Bool) :
    List (Words.Step Meaning) → Except UsageError Asked
  | [] =>
    match t.complaint with
    | some c => .error ⟨none, .words c⟩
    | none => .error ⟨none, .required (t.unfilled.map Words.Slot.name)⟩
  | .switch .help _ :: _ => .ok (.help none)
  | .switch .verbose _ :: steps => takeMainSteps t true steps
  | .rest words :: _ => ofCommand verbose t.extras words
  | _ :: steps => takeMainSteps t verbose steps

/-- What a command line asks for. -/
def ofWords (words : List String) : Except UsageError Asked :=
  let t := Words.trace mainSwitches [.rest "command"] words
  takeMainSteps t false t.steps

end Request

end Bendable
