import Bendable.Value
import Bendable.Text.Quoted

/-!
# Written values

How a value looks in a message. Texts are quoted, members keep their order, and a text that
stands alone may be shown bare.

## Main definitions

* `Value.literal`: the written form
* `Value.display`: the written form, a text bare
* `Value.isWritable`: whether all integers inside keep to the digit limit
-/

namespace Bendable.Value

/-- The texts of several items, with a comma and a space between them. -/
def commaSeparated : List (List Char) → List Char
  | [] => []
  | [item] => item
  | item :: rest => item ++ ',' :: ' ' :: commaSeparated rest

mutual

/-- The written form of a value. -/
def literal : Value → List Char
  | null => ['N', 'o', 'n', 'e']
  | bool true => ['T', 'r', 'u', 'e']
  | bool false => ['F', 'a', 'l', 's', 'e']
  | int n => Numeral.ofInt n
  | real x => x.text
  | string s => Quoted.encode s.toList
  | list items => '[' :: (commaSeparated (literals items) ++ [']'])
  | dict members => '\x7b' :: (commaSeparated (memberLiterals members) ++ ['\x7d'])

/-- The written forms of the items of a list. -/
def literals : List Value → List (List Char)
  | [] => []
  | item :: rest => literal item :: literals rest

/-- The written forms of the members of a dictionary. -/
def memberLiterals : List (String × Value) → List (List Char)
  | [] => []
  | (name, value) :: rest =>
    (Quoted.encode name.toList ++ ':' :: ' ' :: literal value) :: memberLiterals rest

end

/-- The written form, except that a text stands for itself. -/
def display : Value → String
  | string s => s
  | v => String.ofList v.literal

mutual

/-- Whether every integer in a value keeps to the digit limit. -/
def isWritable : Value → Bool
  | int n => Numeral.isWritable n
  | list items => allWritable items
  | dict members => membersWritable members
  | _ => true

/-- Whether every integer in the items of a list keeps to the digit limit. -/
def allWritable : List Value → Bool
  | [] => true
  | item :: rest => isWritable item && allWritable rest

/-- Whether every integer in the members of a dictionary keeps to the digit limit. -/
def membersWritable : List (String × Value) → Bool
  | [] => true
  | (_, value) :: rest => isWritable value && membersWritable rest

end

end Bendable.Value
