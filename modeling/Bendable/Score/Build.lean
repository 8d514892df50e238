import Bendable.Fault

/-!
# Scores from loose values

Every part of a score is checked when it is built: a level is an integer, not a boolean, in the
range of 32 bits. The first value that is none is to blame, the init score before the hard levels
and those before the soft ones.

## Main definitions

* `Level.ofValue`: a level from a value
* `Score.ofValues`: a score from values
* `Score.ofSequences`: a score from values that list the levels
* `Score.zeroOf`: the zero score of a layout
* `Value.toReal`: the number that a value stands for
-/

namespace Bendable

/-- The level that a value is. -/
def Level.ofValue (name : String) : Value → Except Fault Level
  | .int n =>
    match Level.ofInt? n with
    | some a => .ok a
    | none => Fault.raise (.range (.outOfRange name n))
  | v => Fault.raise (.range (.notInteger name v.typeName))

/-- The levels that values are; `index` is the place of the first one in the list called
`name`. -/
def Level.listOfValues (name : String) : (index : Nat) → List Value → Except Fault (List Level)
  | _, [] => .ok []
  | index, v :: rest => do
    let a ← Level.ofValue (name ++ "[" ++ intText index ++ "]") v
    let as ← listOfValues name (index + 1) rest
    .ok (a :: as)

/-- The name of the list of levels of a group. -/
def Group.listName : Group → String
  | hard => "hard_scores"
  | soft => "soft_scores"

/-- The name of the number of levels of a group. -/
def Group.countName : Group → String
  | hard => "hard_levels_count"
  | soft => "soft_levels_count"

/-- The items that a value lists: those of a list, the characters of a text, or the names of a
dictionary. -/
def Value.items : Value → Except Fault (List Value)
  | list items => .ok items
  | string s => .ok (s.toList.map fun c => .string (String.singleton c))
  | dict members => .ok ((names members).map .string)
  | _ => .error .wrongType

/-- The number that a value stands for. A text is read as a number. -/
def Value.toReal : Value → Except Fault Binary64
  | bool b => .ok (if b then Binary64.one else Binary64.zero false)
  | int n => (Binary64.ofInt? n).elim (.error .overflow) .ok
  | real x => .ok x
  | string s => (Binary64.ofText? s.toList).elim (.error .notNumber) .ok
  | _ => .error .wrongType

namespace Score

/-- The score with the given init score and levels. -/
def ofValues (init : Value) (hard soft : List Value) : Except Fault Score := do
  let init ← Level.ofValue "init_score" init
  let hard ← Level.listOfValues Group.hard.listName 0 hard
  let soft ← Level.listOfValues Group.soft.listName 0 soft
  .ok ⟨init, hard, soft⟩

/-- The score whose levels two values list. Both are taken apart before anything is checked. -/
def ofSequences (init hard soft : Value) : Except Fault Score := do
  let hard ← hard.items
  let soft ← soft.items
  ofValues init hard soft

/-- The integer that a level count is. -/
def countOfValue (group : Group) : Value → Except Fault Int
  | .int n => .ok n
  | v => Fault.raiseLayout (.notInteger group.countName v.typeName)

/-- The greatest length of a sequence. -/
def maxLength : Int := 9223372036854775807

/-- The zero score with as many levels as two counts say. -/
def zeroOf (hard soft : Value) : Except Fault Score := do
  let hard ← countOfValue .hard hard
  let soft ← countOfValue .soft soft
  if hard < 0 ∨ soft < 0 then Fault.raiseLayout (.negative hard soft)
  else if maxLength < hard ∨ maxLength < soft then .error .overflow
  else .ok (zero hard.toNat soft.toNat)

end Score

end Bendable
