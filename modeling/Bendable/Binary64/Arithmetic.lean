import Bendable.Binary64.Basic

/-!
# Products and quotients

A level times or over a number: the exact product or quotient, rounded once. Division never
fails: a zero divisor gives the infinity of the two signs, and nothing over nothing is a NaN.

## Main definitions

* `Binary64.mul`, `Binary64.div`: the rounded product and quotient
* `Binary64.ofLevel`: every level is a number
-/

namespace Bendable.Binary64

/-- The sign of a number; a NaN counts as positive. -/
def isNegative : Binary64 → Bool
  | nan => false
  | infinite negative => negative
  | finite negative _ => negative

/-- Zero of either sign. -/
def isZero : Binary64 → Bool
  | finite _ x => x.significand == 0
  | _ => false

/-- The product, rounded once. A zero times an infinity is a NaN. -/
def mul : Binary64 → Binary64 → Binary64
  | nan, _ => nan
  | _, nan => nan
  | infinite s, infinite t => infinite (s != t)
  | infinite s, finite t y => if y.significand = 0 then nan else infinite (s != t)
  | finite s x, infinite t => if x.significand = 0 then nan else infinite (s != t)
  | finite s x, finite t y =>
    roundUnits (s != t) (x.units * y.units) Magnitude.perOne

/-- The quotient, rounded once. -/
def div : Binary64 → Binary64 → Binary64
  | nan, _ => nan
  | _, nan => nan
  | infinite _, infinite _ => nan
  | infinite s, finite t _ => infinite (s != t)
  | finite s _, infinite t => zero (s != t)
  | finite s x, finite t y =>
    if y.significand = 0 then
      if x.significand = 0 then nan else infinite (s != t)
    else roundUnits (s != t) (x.units * Magnitude.perOne) y.units

/-- A level as a number; a level has at most 32 bits, so nothing is rounded. -/
def ofLevel (a : Level) : Binary64 := roundQuotient (a.val < 0) a.val.natAbs 1

end Bendable.Binary64
