import Bendable.Score.Build
import Bendable.Binary64.Power

/-!
# Real scaling of scores

The init score and every level are multiplied, divided or raised to a power as numbers; each real
result is floored and stopped at the ends of the level range. The operand is converted first, so a
value that is no number is refused whatever the score holds.

## Main definitions

* `realQuotient`, `realPower`: of any integer that is a number
* `Score.multiply`, `Score.divide`, `Score.power`
* `Value.floorLevel`: a number narrowed to a level
-/

namespace Bendable

/-! ## Integers as numbers -/

/-- The number nearest to an integer, refused where it is past the format. -/
def realOfInt (n : Int) : Except Fault Binary64 := Value.toReal (.int n)

/-- An integer over a value. A zero divisor gives an infinity, or a NaN for zero over zero. -/
def realQuotient (n : Int) (divisor : Value) : Except Fault Binary64 := do
  let y ← divisor.toReal
  let x ← realOfInt n
  .ok (x.div y)

/-- An integer to the power of a value; the integer is rounded first. -/
def realPower (n : Int) (exponent : Value) : Except Fault Binary64 := do
  let x ← realOfInt n
  let y ← exponent.toReal
  .ok (Binary64.power x.floor y)

/-- A number narrowed to a level: the greatest integer not above it, stopped at the ends of the
range. An integer must be a number too. -/
def Value.floorLevel : Value → Except Fault Level
  | string _ => .error .wrongType
  | int n => do
    let _ ← realOfInt n
    .ok (Level.saturate n)
  | v => do
    let x ← v.toReal
    .ok x.floorLevel

/-! ## Scores -/

namespace Score

/-- Every level times a number. -/
def multiply (s : Score) (v : Value) : Except Fault Score := do
  let y ← v.toReal
  .ok (s.map fun a => ((Binary64.ofLevel a).mul y).floorLevel)

/-- Every level over a number. -/
def divide (s : Score) (v : Value) : Except Fault Score := do
  let y ← v.toReal
  .ok (s.map fun a => ((Binary64.ofLevel a).div y).floorLevel)

/-- Every level to the power of a number. -/
def power (s : Score) (v : Value) : Except Fault Score := do
  let y ← v.toReal
  .ok (s.map fun a => (Binary64.power a.val y).floorLevel)

end Score

end Bendable
