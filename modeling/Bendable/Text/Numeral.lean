import Bendable.Text.Digit
import Bendable.Text.Separated

/-!
# Numerals

Decimal text of integers. Writing uses no leading zeros and a sign for negative numbers only. The
number of digits that are read or written is limited.

## Main definitions

* `Numeral.ofInt`: the text of an integer
* `Numeral.value`: the value of a text of digits
* `Numeral.ofSigned?`: an optional sign and digits
* `Numeral.ofText?`: the integer that a free text stands for
* `Numeral.digitLimit`: the greatest number of digits

## Main results

* `Numeral.ofSigned?_ofInt`: reading gives back the integer that was written
-/

namespace Bendable.Numeral

/-! ## Writing -/

/-- The decimal digits of a natural number. -/
def ofNat (n : Nat) : List Char := Nat.toDigits 10 n

/-- The decimal text of an integer. -/
def ofInt (n : Int) : List Char :=
  if n < 0 then '-' :: ofNat n.natAbs else ofNat n.natAbs

/-- The greatest number of digits that a numeral may have. -/
def digitLimit : Nat := 4300

/-- Whether the decimal text of an integer keeps to the limit. -/
def isWritable (n : Int) : Bool := n.natAbs < Nat.pow 10 digitLimit

/-! ## Reading -/

/-- The value of a text of decimal digits. -/
def value (digits : List Char) : Nat := Nat.ofDigitChars 10 digits 0

/-- Whether a text consists of decimal digits, at least one. -/
def isDigits (text : List Char) : Bool := !text.isEmpty && text.all Char.isDigit

/-- Splits a leading sign off; `true` is the minus. -/
def splitSign : List Char → Bool × List Char
  | '-' :: rest => (true, rest)
  | '+' :: rest => (false, rest)
  | text => (false, text)

/-- The integer of a sign and digits. -/
def signed (negative : Bool) (digits : List Char) : Int :=
  if negative then -(value digits : Int) else value digits

/-- The integer written as an optional sign and decimal digits, of any length. -/
def ofSigned? (text : List Char) : Option Int :=
  let (negative, digits) := splitSign text
  if isDigits digits then some (signed negative digits) else none

/-! ## Written numerals read back -/

/-- The digits of a number have its value. -/
theorem value_ofNat (n : Nat) : value (ofNat n) = n :=
  Nat.ofDigitChars_toDigits (by decide) (by decide)

/-- The digits of a number are decimal digits, and there is one. -/
theorem isDigits_ofNat (n : Nat) : isDigits (ofNat n) = true := by
  have h : ∀ c ∈ ofNat n, c.isDigit = true := fun c hc =>
    Nat.isDigit_of_mem_toDigits (by decide) (by decide) hc
  have hne : ofNat n ≠ [] := Nat.toDigits_ne_nil
  cases hd : ofNat n with
  | nil => exact absurd hd hne
  | cons c rest =>
    rw [hd] at h
    simpa [isDigits] using h

/-- Digits have no sign. -/
theorem splitSign_of_isDigits {text : List Char} (h : isDigits text = true) :
    splitSign text = (false, text) := by
  unfold splitSign
  split
  · simp [isDigits] at h
  · simp [isDigits] at h
  · rfl

/-- Reading gives back the integer that was written. -/
theorem ofSigned?_ofInt (n : Int) : ofSigned? (ofInt n) = some n := by
  unfold ofInt
  split
  · simp only [ofSigned?, splitSign, isDigits_ofNat, signed, value_ofNat, if_true]
    exact congrArg some (by omega)
  · simp only [ofSigned?, splitSign_of_isDigits (isDigits_ofNat _), isDigits_ofNat, signed,
      value_ofNat, if_true, Bool.false_eq_true, if_false]
    exact congrArg some (by omega)

/-! ## Free text -/

/-- The blank characters that may surround a number in free text. -/
def isBlank (c : Char) : Bool :=
  c == ' ' || ('\t' ≤ c && c ≤ '\r') || c == '\u0085' || c == '\u00a0' || c == '\u1680' ||
    ('\u2000' ≤ c && c ≤ '\u200a') || c == '\u2028' || c == '\u2029' || c == '\u202f' ||
    c == '\u205f' || c == '\u3000'

/-- Removes the underscores of a text, each of which must stand between two digits; `afterDigit`
says whether a digit went before. -/
def ungroup? (afterDigit : Bool) : List Char → Option (List Char)
  | [] => some []
  | c :: rest =>
    if c = '_' then
      if afterDigit && (rest.head?.any Char.isDigit) then ungroup? false rest else none
    else (ungroup? c.isDigit rest).map (c :: ·)

/-- A trimmed text in ASCII digits without grouping, if it has only ASCII characters and digits
besides. -/
def plain? (text : List Char) : Option (List Char) :=
  ((Separated.trim isBlank text).mapM fun c => if c.toNat < 127 then some c else Digit.ascii? c).bind
    (ungroup? false)

/-- The integer that a free text stands for: blanks around it and single underscores between
digits do not count, digits of any script do, and longer numerals than the limit are refused. -/
def ofText? (text : List Char) : Option Int := do
  let plain ← plain? text
  let (negative, digits) := splitSign plain
  if isDigits digits && digits.length ≤ digitLimit then some (signed negative digits) else none

end Bendable.Numeral
