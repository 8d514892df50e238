import Bendable.Score.Text
import Bendable.Value.Literal

/-!
# Operands

An operation on scores may be handed something that is no score. An operand is either, and has a
shape only if it is a score.

## Main definitions

* `Operand`: a score or a loose value
* `Operand.shape`: the shape of a score
* `Operand.isCompatible`: whether two operands are scores of one shape
-/

namespace Bendable

/-- A score, or a loose value in its place. -/
inductive Operand where
  | score (s : Score)
  | value (v : Value)

namespace Operand

/-- The name of the operand's type. -/
def typeName : Operand → String
  | score _ => Score.typeName
  | value v => v.typeName

/-- The operand as it is shown in messages. -/
def display : Operand → String
  | score s => toString s
  | value v => v.display

/-- Whether the integers in the operand keep to the digit limit. -/
def isWritable : Operand → Bool
  | score _ => true
  | value v => v.isWritable

/-- The numbers of hard and soft levels of a score. -/
def shape : Operand → Option (Nat × Nat)
  | score s => some s.shape
  | value _ => none

/-- Whether both operands are scores with as many hard and as many soft levels. -/
def isCompatible (a b : Operand) : Bool := a.shape.isSome && a.shape == b.shape

end Operand

end Bendable
