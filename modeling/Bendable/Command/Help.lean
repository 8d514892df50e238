import Bendable.Command.Request

/-!
# Help

The text that a request for help shows: the commands, or the operands and switches of one. The
layout is that of this library; it is not the text that `argparse` makes, and no result depends on
it.

## Main definitions

* `Command.summary`: what a command does
* `helpText`: the help for the program or for a command
-/

namespace Bendable

/-- What a command does. -/
def Command.summary : Command → String
  | showScore => "Show score diagnostics"
  | compare => "Compare two scores"
  | add => "Add two scores"
  | subtract => "Subtract the second score from the first"
  | multiply => "Multiply every level by VALUE"
  | divide => "Divide every level by VALUE"
  | power => "Raise every level to VALUE"
  | negate => "Negate every level"
  | encode => "Print the JSON snapshot"
  | hash => "Print the snapshot SHA-256"
  | zero => "Print the zero score"
  | decode => "Decode a JSON snapshot"

/-- The usage of a switch. -/
def switchUsage (s : Words.Switch Request.Meaning) : String :=
  "[" ++ String.intercalate "|" s.spellings ++ (if s.takesWord then " COUNT" else "") ++ "]"

/-- The usage line of a command. -/
def Command.usage (c : Command) : String :=
  String.intercalate " "
    (["usage:", programName, c.name] ++ (Request.switches c).map switchUsage ++ c.operandNames)

/-- The usage line of the program. -/
def programUsage : String :=
  String.intercalate " "
    (["usage:", programName] ++ Request.mainSwitches.map switchUsage ++ ["command", "..."])

/-- The help for the program, or for a command. -/
def helpText : Option Command → String
  | some c => c.usage ++ "\n\n" ++ c.summary ++ "\n"
  | none =>
    programUsage ++ "\n\nBendable score toolkit\n\ncommands:\n" ++
      String.join (Command.all.map fun c => "  " ++ c.name ++ ": " ++ c.summary ++ "\n")

end Bendable
