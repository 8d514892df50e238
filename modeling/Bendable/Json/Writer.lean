import Bendable.Value
import Bendable.Text.Quoted

/-!
# Writing JSON

Writes a value on one line without blanks, or over several lines with an indentation of two
spaces for each level of nesting.

## Main definitions

* `Json.quote`: a string
* `Json.compact`: a value without blanks
* `Json.indented`: a value over several lines
-/

namespace Bendable.Json

/-- One character of a string. -/
def writeChar (c : Char) : List Char :=
  if c = '"' ∨ c = '\\' then ['\\', c]
  else if c = '\n' then ['\\', 'n']
  else if c = '\r' then ['\\', 'r']
  else if c = '\t' then ['\\', 't']
  else if c = '\x08' then ['\\', 'b']
  else if c = '\x0c' then ['\\', 'f']
  else if c < ' ' then '\\' :: 'u' :: Quoted.hexDigits 4 c.toNat
  else [c]

/-- A string between quotes. -/
def quote (s : String) : List Char := '"' :: (s.toList.flatMap writeChar ++ ['"'])

/-- A number. -/
def writeReal : Binary64 → List Char
  | .nan => ['N', 'a', 'N']
  | .infinite true => ['-', 'I', 'n', 'f', 'i', 'n', 'i', 't', 'y']
  | .infinite false => ['I', 'n', 'f', 'i', 'n', 'i', 't', 'y']
  | x => x.text

/-- A value that holds no others. -/
def writeScalar : Value → List Char
  | .bool true => ['t', 'r', 'u', 'e']
  | .bool false => ['f', 'a', 'l', 's', 'e']
  | .int n => Numeral.ofInt n
  | .real x => writeReal x
  | .string s => quote s
  | _ => ['n', 'u', 'l', 'l']

/-! ## On one line -/

mutual

/-- A value without blanks. -/
def compact : Value → List Char
  | .list items => '[' :: compactItems items
  | .dict members => '\x7b' :: compactMembers members
  | v => writeScalar v

/-- The items of a list and its closing bracket. -/
def compactItems : List Value → List Char
  | [] => [']']
  | [v] => compact v ++ [']']
  | v :: rest => compact v ++ ',' :: compactItems rest

/-- The members of a dictionary and its closing brace. -/
def compactMembers : List (String × Value) → List Char
  | [] => ['\x7d']
  | [(name, v)] => quote name ++ ':' :: (compact v ++ ['\x7d'])
  | (name, v) :: rest => quote name ++ ':' :: (compact v ++ ',' :: compactMembers rest)

end

/-! ## Over several lines -/

/-- A new line with an indentation. -/
def newLine (depth : Nat) : List Char := '\n' :: List.replicate (2 * depth) ' '

mutual

/-- A value whose items and members stand on lines of their own, at the given depth. -/
def indented (depth : Nat) : Value → List Char
  | .list [] => ['[', ']']
  | .list items => '[' :: (newLine (depth + 1) ++ indentedItems depth items)
  | .dict [] => ['\x7b', '\x7d']
  | .dict members => '\x7b' :: (newLine (depth + 1) ++ indentedMembers depth members)
  | v => writeScalar v

/-- The items of a list and its closing bracket. -/
def indentedItems (depth : Nat) : List Value → List Char
  | [] => newLine depth ++ [']']
  | [v] => indented (depth + 1) v ++ newLine depth ++ [']']
  | v :: rest => indented (depth + 1) v ++ ',' :: (newLine (depth + 1) ++ indentedItems depth rest)

/-- The members of a dictionary and its closing brace. -/
def indentedMembers (depth : Nat) : List (String × Value) → List Char
  | [] => newLine depth ++ ['\x7d']
  | [(name, v)] =>
    quote name ++ ':' :: ' ' :: (indented (depth + 1) v ++ newLine depth ++ ['\x7d'])
  | (name, v) :: rest =>
    quote name ++ ':' :: ' ' :: (indented (depth + 1) v ++
      ',' :: (newLine (depth + 1) ++ indentedMembers depth rest))

end

end Bendable.Json
