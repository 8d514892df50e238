import Bendable.Level

/-!
# Binary64 numbers

The IEEE 754 double-precision numbers as exact data. A finite number counts units of `2 ^ -1074`,
the least positive one: its magnitude is `significand <<< shift` units. An operation computes
its exact result as a quotient of natural numbers and rounds once. Significands have up to 53
bits: they are below `9007199254740992`, twice `4503599627370496`.

## Main definitions

* `Magnitude`: the finite magnitudes, each with one normalised representation
* `Magnitude.round?`: the nearest magnitude of a quotient, ties to the even significand
* `Binary64`: a NaN, an infinity, or a signed magnitude
* `Binary64.ofBits`, `Binary64.toBits`: the 64-bit encoding
* `Binary64.floorLevel`: the greatest integer below, stopped at the ends of the level range
-/

namespace Bendable

/-! ## Magnitudes -/

/-- A significand of 53 bits; only the least exponent has shorter ones. -/
def Normalised (significand shift : Nat) : Prop :=
  significand < 9007199254740992 ∧ shift ≤ 2045 ∧ (4503599627370496 ≤ significand ∨ shift = 0)

instance (m p : Nat) : Decidable (Normalised m p) := inferInstanceAs (Decidable (_ ∧ _))

/-- A finite magnitude of `significand <<< shift` units. -/
structure Magnitude where
  significand : Nat
  shift : Nat
  normalised : Normalised significand shift

namespace Magnitude

/-- The number of binary places of a unit. -/
def places : Nat := 1074

/-- The number of units in one. -/
def perOne : Nat := 1 <<< places

/-- The number of units of `2 ^ -1074`. -/
def units (x : Magnitude) : Nat := x.significand <<< x.shift

instance : Zero Magnitude := ⟨⟨0, 0, by decide⟩⟩

/-- The magnitude of a significand and a shift, if they are normalised. -/
def mk? (significand shift : Nat) : Option Magnitude :=
  if h : Normalised significand shift then some ⟨significand, shift, h⟩ else none

/-- The integer nearest to `num / den`, a half going to the even neighbour. -/
def nearestEven (num den : Nat) : Nat :=
  let q := num / den
  let r := num % den
  if 2 * r < den then q
  else if den < 2 * r then q + 1
  else q + q % 2

/-- The shift that leaves 53 bits of a whole number of units. -/
def shiftFor (units : Nat) : Nat := if units < 9007199254740992 then 0 else units.log2 - 52

/-- The magnitude nearest to `num / den` units, or `none` past the greatest. A significand that
rounds up to 54 bits is carried into the shift. -/
def round? (num den : Nat) : Option Magnitude :=
  let shift := shiftFor (num / den)
  let significand := nearestEven num (den <<< shift)
  if significand = 9007199254740992 then mk? 4503599627370496 (shift + 1)
  else mk? significand shift

end Magnitude

/-! ## Numbers -/

/-- A double-precision number. Zero has two signs; the payload of a NaN is not kept. -/
inductive Binary64 where
  | nan
  | infinite (negative : Bool)
  | finite (negative : Bool) (magnitude : Magnitude)

namespace Binary64

/-- The number nearest to `± num / den` units; past the greatest magnitude, the infinity. -/
def roundUnits (negative : Bool) (num den : Nat) : Binary64 :=
  match Magnitude.round? num den with
  | some x => finite negative x
  | none => infinite negative

/-- The number nearest to `± num / den`. -/
def roundQuotient (negative : Bool) (num den : Nat) : Binary64 :=
  roundUnits negative (num * Magnitude.perOne) den

/-- Zero of a sign. -/
def zero (negative : Bool) : Binary64 := finite negative 0

/-- The number one. -/
def one : Binary64 := roundQuotient false 1 1

/-- The number with the given 64-bit encoding: a sign bit, eleven exponent bits and 52 bits of
fraction. Bits above are ignored. -/
def ofBits (bits : Nat) : Binary64 :=
  let negative := bits.testBit 63
  let field := (bits >>> 52) % 2048
  let fraction := bits % 4503599627370496
  if hi : field = 2047 then
    if fraction = 0 then infinite negative else nan
  else if field = 0 then
    finite negative ⟨fraction, 0, by unfold Normalised; omega⟩
  else
    finite negative ⟨4503599627370496 + fraction, field - 1, by unfold Normalised; omega⟩

/-- The 64-bit encoding; a NaN is written as the quiet one. -/
def toBits : Binary64 → Nat
  | nan => 2047 <<< 52 + 1 <<< 51
  | infinite negative => sign negative + 2047 <<< 52
  | finite negative x =>
    sign negative +
      if x.significand < 4503599627370496 then x.significand
      else (x.shift + 1) <<< 52 + (x.significand - 4503599627370496)
where
  /-- The weight of the sign bit. -/
  sign (negative : Bool) : Nat := if negative then 1 <<< 63 else 0

/-! ## Whole numbers -/

/-- The number itself, if it is finite. -/
def finite? : Binary64 → Option Binary64
  | finite negative x => some (finite negative x)
  | _ => none

/-- The number nearest to an integer, or `none` where that is an infinity. -/
def ofInt? (n : Int) : Option Binary64 := (roundQuotient (n < 0) n.natAbs 1).finite?

/-- The signed number of units. -/
def signedUnits (negative : Bool) (x : Magnitude) : Int :=
  if negative then -x.units else x.units

/-- The greatest integer that is not above a finite number; zero for the others. -/
def floor : Binary64 → Int
  | finite negative x => (signedUnits negative x).fdiv Magnitude.perOne
  | _ => 0

/-- The greatest integer not above the number, stopped at the ends of the level range. A NaN
gives zero. -/
def floorLevel : Binary64 → Level
  | nan => 0
  | infinite true => Level.least
  | infinite false => Level.greatest
  | x@(finite ..) => Level.saturate x.floor

end Binary64

end Bendable
