import Bendable.Score.Basic
import Bendable.Text.Numeral

/-!
# The text of a score

The canonical text shows the init score unless it is zero, and every level of both groups:
`-1init[-2/0]hard/[3]soft`. The short text leaves out zeros and empty groups.

## Main definitions

* `Score.canonical`: the canonical text
* `Score.short`: the short text
-/

namespace Bendable

/-- The label of a group. -/
def Group.label : Group → List Char
  | hard => ['h', 'a', 'r', 'd']
  | soft => ['s', 'o', 'f', 't']

namespace Score

/-- The label of the init score. -/
def initLabel : List Char := ['i', 'n', 'i', 't']

/-- Texts with a slash between them. -/
def slashed : List (List Char) → List Char
  | [] => []
  | [item] => item
  | item :: rest => item ++ '/' :: slashed rest

/-- The text of a level. -/
def levelText (a : Level) : List Char := Numeral.ofInt a.val

/-- Levels in brackets, with the label of their group. -/
def groupText (group : Group) (levels : List Level) : List Char :=
  '[' :: (slashed (levels.map levelText) ++ ']' :: group.label)

/-- The init score with its label; nothing if it is zero. -/
def initText (a : Level) : List Char := if a = 0 then [] else levelText a ++ initLabel

/-- The canonical text. -/
def canonical (s : Score) : List Char :=
  initText s.init ++ slashed [groupText .hard s.hard, groupText .soft s.soft]

/-- The text of a group in the short text, if it has a level that is not zero. -/
def shortGroup? (group : Group) (levels : List Level) : Option (List Char) :=
  match levels.filter (· ≠ 0) with
  | [] => none
  | nonzero => some (groupText group nonzero)

/-- The short text. -/
def short (s : Score) : List Char :=
  let groups := [Group.hard, Group.soft].filterMap fun g => shortGroup? g (s.group g)
  if s.init = 0 ∧ groups = [] then ['0'] else initText s.init ++ slashed groups

instance : ToString Score := ⟨fun s => String.ofList s.canonical⟩

/-- The name of the type of scores in messages. -/
def typeName : String := "BendableScore"

/-- The canonical text as the argument of the type's name. -/
def described (s : Score) : String := typeName ++ "(\x27" ++ toString s ++ "\x27)"

end Score

end Bendable
