import Bendable.Settings.Environment

/-!
# Plain files of assignments

A loader for files whose lines are plain: an assignment of a name, a blank line or a comment.
Quotes, references to other names and comments behind a text have no meaning here; they stand for
themselves. A name that the process defines, even as the empty text, is not taken from the file.

## Main definitions

* `PlainFile.lines`: the lines of a file
* `PlainFile.assignments`: the assignments of a file
* `PlainFile.load`: the loader
-/

namespace Bendable.PlainFile

open Environment (isBlank)

/-- The assignment on a line, a name and a text with an equals sign between them. Blank lines and
comments have none. -/
def assignment? (line : List Char) : Option (String × String) :=
  let line := Separated.trim isBlank line
  match line.dropWhile (· ≠ '='), line.head? with
  | _ :: text, some first =>
    if first = '#' then none
    else
      let name := Separated.trim isBlank (line.takeWhile (· ≠ '='))
      some (String.ofList name, String.ofList (Separated.trim isBlank text))
  | _, _ => none

/-- The lines of a text: a line feed and a carriage return each end a line. Where the two stand
together they leave an empty line between them, which holds no assignment. -/
def lines (text : List Char) : List (List Char) :=
  Separated.splitAt '\n' (text.map fun c => if c = '\r' then '\n' else c)

/-- The assignments of a file in their order. -/
def assignments (text : List Char) : List (String × String) := (lines text).filterMap assignment?

/-- The texts of the process, and behind them the assignments of a file, the last one first. -/
def load : Environment.Loader := fun env text => env ++ (assignments text.toList).reverse

end Bendable.PlainFile
