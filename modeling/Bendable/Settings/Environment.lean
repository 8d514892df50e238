import Bendable.Text.Numeral

/-!
# Environments

Named texts from the process, completed by a file of assignments. What such a file may hold and how
it is read is up to a loader, which is a parameter here: it takes the texts of the process and the
text of a file, and gives the texts that the process has afterwards.

## Main definitions

* `Environment`: named texts, the first of a name counts
* `Environment.Loader`: what completes an environment by the text of a file
* `Environment.complete`: an environment completed by a file, if there is one
-/

namespace Bendable

/-- Named texts. -/
abbrev Environment := List (String × String)

namespace Environment

/-- The text of a name. -/
def get? (env : Environment) (name : String) : Option String := env.lookup name

/-- Whether a character is blank in a file of assignments: one that may surround a number, or one
of the four separators among the control characters. -/
def isBlank (c : Char) : Bool := Numeral.isBlank c || ('\u001c' ≤ c && c ≤ '\u001f')

/-- What completes an environment by the text of a file of assignments. -/
abbrev Loader := Environment → String → Environment

/-- An environment completed by a file, if there is one. -/
def complete (load : Loader) (env : Environment) : (file : Option String) → Environment
  | none => env
  | some text => load env text

end Environment

end Bendable
