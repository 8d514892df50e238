import Bendable.Binary64.Arithmetic

/-!
# Powers of whole numbers

`power n y` is the whole number `n` raised to the number `y`, rounded once. A power that is
rational is computed exactly. Any other power is irrational, so it lies strictly between two
neighbouring rounding borders; it is enclosed in an interval whose two ends are rounded, with
more bits until both ends round alike.

## Main definitions

* `sqrt n`: the integer part of the square root
* `exactRoot? s n`: the `2 ^ s`-th root, where it is a whole number
* `enclose`: an interval around `n` to a power between zero and one
* `power`: the rounded power with its special cases
-/

namespace Bendable.Binary64

/-! ## Roots -/

/-- The greatest `r + k` with `k < 2 ^ bits` whose square is at most `n`, found bit by bit. -/
def sqrtFrom (n : Nat) : Nat → Nat → Nat
  | 0, r => r
  | bits + 1, r =>
    let s := r + 1 <<< bits
    if s * s ≤ n then sqrtFrom n bits s else sqrtFrom n bits r

/-- The greatest whole number whose square is at most `n`. -/
def sqrt (n : Nat) : Nat := sqrtFrom n (n.log2 / 2 + 1) 0

/-- The `2 ^ s`-th root of `n`, if it is a whole number. -/
def exactRoot? : Nat → Nat → Option Nat
  | 0, n => some n
  | s + 1, n =>
    let r := sqrt n
    if r * r = n then exactRoot? s r else none

/-- The exponent of the greatest power of two that divides a positive number below
`2 ^ fuel`. -/
def twoAdic : Nat → Nat → Nat
  | 0, _ => 0
  | fuel + 1, n => if n % 2 = 0 then twoAdic fuel (n / 2) + 1 else 0

/-! ## Enclosures -/

/-- An interval of non-negative numbers, both ends in units of `2 ^ -bits`. -/
structure Enclosure where
  lower : Nat
  upper : Nat

/-- The square root of an interval, rounded outwards. -/
def Enclosure.sqrt (bits : Nat) (x : Enclosure) : Enclosure :=
  ⟨Binary64.sqrt (x.lower <<< bits), Binary64.sqrt (x.upper <<< bits) + 1⟩

/-- The product of two intervals, rounded outwards. -/
def Enclosure.mul (bits : Nat) (x y : Enclosure) : Enclosure :=
  ⟨(x.lower * y.lower) >>> bits, (x.upper * y.upper) >>> bits + 1⟩

/-- An interval around `product * root ^ f`, where `f` below one has the binary places of
`fraction`: each place takes one more square root of `root`. -/
def enclose (bits fraction : Nat) : (places : Nat) → (root product : Enclosure) → Enclosure
  | 0, _, product => product
  | places + 1, root, product =>
    -- no places are left that count
    if fraction % 1 <<< (places + 1) = 0 then product
    else
      let root := root.sqrt bits
      if fraction.testBit places then enclose bits fraction places root (product.mul bits root)
      else enclose bits fraction places root product

/-! ## Powers -/

/-- The number nearest to `± num / den`, or to its reciprocal. -/
def roundPower (negative reciprocal : Bool) (num den : Nat) : Binary64 :=
  if reciprocal then roundQuotient negative den num else roundQuotient negative num den

/-- The two ends of an enclosure of `base ^ (whole + fraction / perOne)`, or of its reciprocal,
rounded. -/
def roundedEnds (reciprocal : Bool) (base whole fraction bits : Nat) : Binary64 × Binary64 :=
  let root : Enclosure := ⟨base <<< bits, base <<< bits⟩
  let x := enclose bits fraction Magnitude.places root ⟨1 <<< bits, 1 <<< bits⟩
  let rounded (bound : Nat) : Binary64 :=
    roundPower false reciprocal (Nat.pow base whole * bound) (1 <<< bits)
  (rounded x.lower, rounded x.upper)

/-- An irrational power rounded: both ends of an enclosure, with twice the bits until they
agree. -/
def roundIrrational (reciprocal : Bool) (base whole fraction : Nat) :
    (tries bits : Nat) → Binary64
  | 0, bits => (roundedEnds reciprocal base whole fraction bits).1
  | tries + 1, bits =>
    let (low, high) := roundedEnds reciprocal base whole fraction bits
    -- Rounding is monotone, so what lies between two ends that round alike rounds like them.
    if low.toBits = high.toBits then low
    else roundIrrational reciprocal base whole fraction tries (2 * bits)

/-- A whole number of at least two raised to `± units / perOne`. A power of 1100 bits or more is
past the format, and so is its reciprocal. -/
def magnitudePower (negative reciprocal : Bool) (base units : Nat) : Binary64 :=
  let whole := units / Magnitude.perOne
  let fraction := units % Magnitude.perOne
  if 1100 ≤ base.log2 * whole then
    if reciprocal then zero negative else infinite negative
  else if fraction = 0 then
    roundPower negative reciprocal (Nat.pow base whole) 1
  else
    -- In lowest terms the exponent is `units >>> twos` over `2 ^ (places - twos)`, and the power
    -- is rational exactly if `base` has a whole root of that degree.
    let twos := twoAdic Magnitude.places fraction
    match exactRoot? (Magnitude.places - twos) base with
    | some root => roundPower negative reciprocal (Nat.pow root (units >>> twos)) 1
    | none => roundIrrational reciprocal base whole fraction 6 128

/-- The whole number `n` raised to a number, rounded once.

One to any power and anything to the power zero is one. Zero to a negative power is the positive
infinity. A negative number has powers for whole exponents only, negative for the odd ones. -/
def power (n : Int) : Binary64 → Binary64
  | nan => if n = 1 then one else nan
  | infinite negative =>
    if n.natAbs = 1 then one
    else if (n == 0) == negative then infinite false
    else zero false
  | finite negative y =>
    let whole := y.units % Magnitude.perOne = 0
    let odd := y.units / Magnitude.perOne % 2 = 1
    if y.significand = 0 then one
    else if n = 0 then if negative then infinite false else zero false
    else if n < 0 ∧ ¬whole then nan
    else if n.natAbs = 1 then roundQuotient (n < 0 && odd) 1 1
    else magnitudePower (n < 0 && odd) negative n.natAbs y.units

end Bendable.Binary64
