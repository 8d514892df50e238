import Bendable.Binary64.Basic
import Bendable.Text.Numeral

/-!
# Decimal text of binary64 numbers

Reading rounds a decimal to the nearest number. Writing gives the fewest digits that read back,
the nearest such decimal, and an even last digit of two equally near ones.

## Main definitions

* `Binary64.ofDecimal`: the number nearest to `± digits * 10 ^ exponent`
* `Binary64.ofText?`: reads decimals, infinities and NaNs
* `Magnitude.shortest`: the shortest decimal of a magnitude
* `Binary64.text`: the written form
-/

namespace Bendable

/-! ## Reading -/

namespace Binary64

/-- The number nearest to `± digits * 10 ^ exponent`. Exponents far past the format's ends are
answered without computing the power. -/
def ofDecimal (negative : Bool) (digits : Nat) (exponent : Int) : Binary64 :=
  if digits = 0 then zero negative
  else if 400 < exponent then infinite negative
  else if exponent + digits.log2 / 3 < -340 then zero negative
  else if 0 ≤ exponent then roundQuotient negative (digits * Nat.pow 10 exponent.toNat) 1
  else roundQuotient negative digits (Nat.pow 10 (-exponent).toNat)

/-- The exponent part of a decimal: nothing, or a mark, an optional sign and digits. -/
def exponentOfText? : List Char → Option Int
  | [] => some 0
  | mark :: rest =>
    if mark = 'e' ∨ mark = 'E' then Numeral.ofSigned? rest else none

/-- An unsigned decimal: digits with at most one point and at least one digit, then an optional
exponent. -/
def ofUnsignedDecimal? (negative : Bool) (text : List Char) : Option Binary64 :=
  let whole := text.takeWhile Char.isDigit
  let rest := text.dropWhile Char.isDigit
  let (fraction, rest) := match rest with
    | '.' :: tail => (tail.takeWhile Char.isDigit, tail.dropWhile Char.isDigit)
    | _ => ([], rest)
  if whole = [] ∧ fraction = [] then none
  else (exponentOfText? rest).map fun exponent =>
    ofDecimal negative (Numeral.value (whole ++ fraction)) (exponent - fraction.length)

/-- A number without its sign: a decimal or one of the names of the special numbers, in letters
of any case. -/
def ofUnsigned? (negative : Bool) (text : List Char) : Option Binary64 :=
  let name := text.map Char.toLower
  if name = ['i', 'n', 'f'] ∨ name = ['i', 'n', 'f', 'i', 'n', 'i', 't', 'y'] then
    some (infinite negative)
  else if name = ['n', 'a', 'n'] then some nan
  else ofUnsignedDecimal? negative text

/-- Reads a number: blanks around it and single underscores between digits do not count, and
digits of any script stand for the decimal ones. -/
def ofText? (text : List Char) : Option Binary64 := do
  match ← Numeral.plain? text with
  | '-' :: rest => ofUnsigned? true rest
  | '+' :: rest => ofUnsigned? false rest
  | rest => ofUnsigned? false rest

end Binary64

/-! ## Writing -/

/-- The decimal `digits * 10 ^ exponent`. -/
structure Decimal where
  digits : Nat
  exponent : Int

namespace Magnitude

/-- The least decimal exponent above a positive quotient: `10 ^ (e - 1) ≤ num / den < 10 ^ e`,
found by raising `e` from below. -/
def decimalExponent (num den : Nat) : (fuel : Nat) → (e : Int) → Int
  | 0, e => e
  | fuel + 1, e =>
    let below := if 0 ≤ e then decide (num < den * Nat.pow 10 e.toNat)
      else decide (num * Nat.pow 10 (-e).toNat < den)
    if below then e else decimalExponent num den fuel (e + 1)

/-- The nearest decimal with the given number of places that lies in the interval of the numbers
that round to the magnitude. All quantities are in quarters of a unit. -/
def decimalOn? (x : Magnitude) (exponent : Int) : Option Decimal :=
  let value := 4 * x.units
  let above := 2 <<< x.shift
  -- Below a power of two the numbers are twice as dense, so the interval is narrower there.
  let below := if x.significand = 4503599627370496 ∧ x.shift ≠ 0 then 1 <<< x.shift else above
  let closed := x.significand % 2 = 0
  let den := 4 * perOne
  let up := if 0 ≤ exponent then 1 else Nat.pow 10 (-exponent).toNat
  let step := den * if 0 ≤ exponent then Nat.pow 10 exponent.toNat else 1
  let num := value * up
  let low := num / step
  let inside (k : Nat) : Bool :=
    let p := k * step
    let a := (value - below) * up
    let b := (value + above) * up
    if closed then a ≤ p && p ≤ b else a < p && p < b
  let near := nearestEven num step
  if inside near then some ⟨near, exponent⟩
  else if inside low then some ⟨low, exponent⟩
  else if inside (low + 1) then some ⟨low + 1, exponent⟩
  else none

/-- The first decimal found on the grids from `exponent` down; seventeen digits always
suffice. -/
def shortestFrom (x : Magnitude) : (fuel : Nat) → (exponent : Int) → Decimal
  | 0, exponent => ⟨0, exponent⟩
  | fuel + 1, exponent =>
    match x.decimalOn? exponent with
    | some d => d
    | none => shortestFrom x fuel (exponent - 1)

/-- The decimal with the fewest digits that rounds to a positive magnitude. -/
def shortest (x : Magnitude) : Decimal :=
  let e := decimalExponent x.units perOne 700 (-330)
  x.shortestFrom 18 (e - 1)

end Magnitude

namespace Binary64

/-- How written numbers look: the decimal exponents written positionally and the least number of
digits of an exponent. -/
structure NumberFormat where
  leastPositional : Int
  firstScientific : Int
  exponentDigits : Nat

/-- Positional from `0.0001` up to `10 ^ 16`, otherwise with an exponent of two digits. -/
def format : NumberFormat := ⟨-4, 16, 2⟩

/-- Digits with a point after the first `point` of them, which may lie outside the digits. -/
def positional (digits : List Char) (point : Int) : List Char :=
  if point ≤ 0 then '0' :: '.' :: (List.replicate (-point).toNat '0' ++ digits)
  else if digits.length ≤ point.toNat then
    digits ++ List.replicate (point.toNat - digits.length) '0' ++ ['.', '0']
  else digits.take point.toNat ++ '.' :: digits.drop point.toNat

/-- Digits in scientific notation: one digit before the point, and an exponent with a sign. -/
def scientific (digits : List Char) (exponent : Int) : List Char :=
  let mantissa := match digits with
    | first :: second :: rest => first :: '.' :: second :: rest
    | single => single
  let power := Numeral.ofNat exponent.natAbs
  mantissa ++ 'e' :: (if exponent < 0 then '-' else '+') ::
    (List.replicate (format.exponentDigits - power.length) '0' ++ power)

/-- The digits of a decimal without the zeros at their end. -/
def significantDigits (d : Decimal) : List Char :=
  let digits := (Numeral.ofNat d.digits).reverse.dropWhile (· == '0')
  if digits = [] then ['0'] else digits.reverse

/-- The text of a magnitude. -/
def magnitudeText (x : Magnitude) : List Char :=
  if x.significand = 0 then ['0', '.', '0']
  else
    let d := x.shortest
    let digits := significantDigits d
    let point : Int := (Numeral.ofNat d.digits).length + d.exponent
    if format.leastPositional ≤ point - 1 ∧ point - 1 < format.firstScientific then
      positional digits point
    else scientific digits (point - 1)

/-- The text of a number. -/
def text : Binary64 → List Char
  | nan => ['n', 'a', 'n']
  | infinite true => ['-', 'i', 'n', 'f']
  | infinite false => ['i', 'n', 'f']
  | finite true x => '-' :: magnitudeText x
  | finite false x => magnitudeText x

end Binary64

end Bendable
