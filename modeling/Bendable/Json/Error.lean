/-!
# Errors in JSON text

What is wrong and where: a character offset, with the line and the column that it stands for.

## Main definitions

* `Json.Problem`: what can be wrong
* `Json.SyntaxError`: a problem at a place of a text
-/

namespace Bendable.Json

/-- What is wrong with a text. -/
inductive Problem where
  | expectedValue
  | expectedName
  | expectedColon
  | expectedComma
  | unterminatedString
  | controlCharacter
  | invalidEscape
  | invalidCodeEscape
  | extraData
  | byteOrderMark
  deriving DecidableEq

/-- The wording of a problem. -/
def Problem.message : Problem → String
  | expectedValue => "Expecting value"
  | expectedName => "Expecting property name enclosed in double quotes"
  | expectedColon => "Expecting \x27:\x27 delimiter"
  | expectedComma => "Expecting \x27,\x27 delimiter"
  | unterminatedString => "Unterminated string starting at"
  | controlCharacter => "Invalid control character at"
  | invalidEscape => "Invalid \\escape"
  | invalidCodeEscape => "Invalid \\uXXXX escape"
  | extraData => "Extra data"
  | byteOrderMark => "Unexpected UTF-8 BOM (decode using utf-8-sig)"

/-- A problem with the text before its place. -/
structure SyntaxError where
  problem : Problem
  before : List Char
  deriving DecidableEq

namespace SyntaxError

/-- The number of characters before the place. -/
def offset (e : SyntaxError) : Nat := e.before.length

/-- The line of the place, counted from one. -/
def line (e : SyntaxError) : Nat := e.before.count '\n' + 1

/-- The column of the place in its line, counted from one. -/
def column (e : SyntaxError) : Nat := (e.before.reverse.takeWhile (· ≠ '\n')).length + 1

/-- The problem and its place. -/
def message (e : SyntaxError) : String :=
  e.problem.message ++ ": line " ++ toString e.line ++ " column " ++ toString e.column ++
    " (char " ++ toString e.offset ++ ")"

end SyntaxError

end Bendable.Json
