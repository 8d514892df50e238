import Bendable.Score.Order
import Bendable.Score.Scale

/-!
# Operators

The operators between operands of which at least one is a score. A score takes a number as its
factor on either side, as its divisor and as its exponent; a boolean is no number here. Every
operand is equal or unequal to every other.

## Main definitions

* `Operator`: the binary operators
* `Operand.apply`: the result of an operator
* `Operand.equals`, `Operand.distinct`: sameness of operands
-/

namespace Bendable

/-- A binary operator. -/
inductive Operator where
  | add
  | subtract
  | multiply
  | divide
  | power
  | lt
  | le
  | gt
  | ge
  | eq
  | ne
  deriving DecidableEq

namespace Operator

/-- All operators. -/
def all : List Operator :=
  [add, subtract, multiply, divide, power, lt, le, gt, ge, eq, ne]

/-- The symbol of an operator. -/
def symbol : Operator → String
  | add => "+"
  | subtract => "-"
  | multiply => "*"
  | divide => "/"
  | power => "**"
  | lt => "<"
  | le => "<="
  | gt => ">"
  | ge => ">="
  | eq => "=="
  | ne => "!="

/-- The operator with a symbol. -/
def ofSymbol? (s : String) : Option Operator := all.find? (·.symbol == s)

end Operator

namespace Operand

/-- Whether two operands are equal: scores with the same levels, or equal scalar values. -/
def equals : Operand → Operand → Bool
  | score s, score t => s == t
  | value v, value w => v.equals w
  | _, _ => false

/-- Whether an operand can be a member of a set. -/
def isScalar : Operand → Bool
  | score _ => true
  | value v => v.isScalar

/-- The number of different operands among two. -/
def distinct (a b : Operand) : Except Fault Nat :=
  if a.isScalar && b.isScalar then .ok (if a.equals b then 1 else 2) else .error .wrongType

/-- Whether a value is a factor of a score. -/
def isFactor : Value → Bool
  | .int _ => true
  | .real _ => true
  | _ => false

/-- What an operator gives. -/
inductive Result where
  | score (s : Score)
  | truth (b : Bool)

/-- A comparison of two scores of one shape. -/
def compareBy (test : Ordering → Bool) (s t : Score) : Except Fault Result := do
  let o ← s.compare t
  .ok (.truth (test o))

/-- Two scores under an operator. -/
def applyScores (op : Operator) (s t : Score) : Except Fault Result :=
  match op with
  | .add => return .score (← s.add t)
  | .subtract => return .score (← s.subtract t)
  | .lt => compareBy Ordering.isLT s t
  | .le => compareBy Ordering.isLE s t
  | .gt => compareBy Ordering.isGT s t
  | .ge => compareBy Ordering.isGE s t
  | .eq => .ok (.truth (s == t))
  | .ne => .ok (.truth (s != t))
  | .multiply | .divide | .power => .error .wrongType

/-- A score and a value under an operator. -/
def applyValue (op : Operator) (s : Score) (v : Value) : Except Fault Result :=
  match op with
  | .eq => .ok (.truth false)
  | .ne => .ok (.truth true)
  | .multiply => if isFactor v then return .score (← s.multiply v) else .error .wrongType
  | .divide => if isFactor v then return .score (← s.divide v) else .error .wrongType
  | .power => if isFactor v then return .score (← s.power v) else .error .wrongType
  | _ => .error .wrongType

/-- The result of an operator. -/
def apply (op : Operator) (a b : Operand) : Except Fault Result :=
  match a, b with
  | score s, score t => applyScores op s t
  | score s, value v => applyValue op s v
  | value v, score s =>
    match op with
    | .multiply | .eq | .ne => applyValue op s v
    | _ => .error .wrongType
  | value v, value w =>
    match op with
    | .eq => .ok (.truth (v.equals w))
    | .ne => .ok (.truth !(v.equals w))
    | _ => .error .wrongType

end Operand

end Bendable
