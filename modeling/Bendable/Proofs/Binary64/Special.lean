import Bendable.Binary64.Power
import Bendable.Proofs.Binary64.Sign

/-!
# Special operands

An operand may be an infinity, a zero of either sign or a NaN. A product with an infinity and a
quotient by a zero are the same number: the infinity of the two signs, and a NaN if the level is
zero. So they are the same level, an end of the range or zero. All other products and quotients with
such operands are zeros or NaNs, and both are floored to the level zero.

## Main definitions

* `Level.extreme negative a`: the end of the range on the side of the signs of `a` and an operand
* `Level.one`: the level one

## Main results

* `Binary64.floorLevel_mul_infinite`, `Binary64.floorLevel_div_zero`: both give the extreme
* `Binary64.floorLevel_power_nan`, `Binary64.floorLevel_power_zero`: powers
-/

namespace Bendable

/-- **The extreme of a level** and the sign of an operand: the end of the range on the side of the
product of both signs. Zero has no sign and stays zero. -/
def Level.extreme (negative : Bool) (a : Level) : Level :=
  if a.val = 0 then 0
  else if decide (a.val < 0) = negative then greatest else least

/-- The level one. -/
def Level.one : Level := ⟨1, by decide, by decide⟩

namespace Binary64

open Magnitude (perOne)

variable (a : Level) (negative : Bool)

/-! ## Extremes -/

/-- **The infinity of two signs** is floored to the extreme, and so is the NaN that stands for it at
zero. -/
theorem floorLevel_extreme :
    (if a.val = 0 then nan else infinite ((a.val < 0) != negative)).floorLevel =
      a.extreme negative := by
  unfold Level.extreme
  by_cases h0 : a.val = 0
  · rw [if_pos h0, if_pos h0]
    rfl
  · rw [if_neg h0, if_neg h0, floorLevel_infinite, bound]
    -- The product of the signs is negative exactly if they differ.
    by_cases hs : decide (a.val < 0) = negative
    · rw [if_pos hs, hs, bne_self_eq_false, if_neg Bool.false_ne_true]
    · rw [if_neg hs, if_pos (bne_iff_ne.mpr hs)]

/-- A level times an infinity. -/
theorem floorLevel_mul_infinite :
    ((ofLevel a).mul (infinite negative)).floorLevel = a.extreme negative := by
  obtain ⟨x, hx, hxu⟩ := ofLevel_eq a
  rw [hx, ← floorLevel_extreme]
  simp only [mul, significand_eq_zero_iff a hxu]

/-- A level over a zero, which has a sign. -/
theorem floorLevel_div_zero {d : Magnitude} (hd : d.significand = 0) :
    ((ofLevel a).div (finite negative d)).floorLevel = a.extreme negative := by
  obtain ⟨x, hx, hxu⟩ := ofLevel_eq a
  rw [hx, ← floorLevel_extreme]
  simp only [div, hd, if_true, significand_eq_zero_iff a hxu]

/-! ## Zeros -/

/-- A level over an infinity is a zero. -/
theorem floorLevel_div_infinite : ((ofLevel a).div (infinite negative)).floorLevel = 0 := by
  obtain ⟨x, hx, -⟩ := ofLevel_eq a
  rw [hx]
  exact floorLevel_zero _

/-- A level times a zero is a zero, which needs no rounding. -/
theorem floorLevel_mul_zero {d : Magnitude} (hd : d.significand = 0) :
    ((ofLevel a).mul (finite negative d)).floorLevel = 0 := by
  obtain ⟨x, hx, -⟩ := ofLevel_eq a
  have hu : d.units = 0 := d.units_eq_zero_iff.mpr hd
  rw [hx, mul, hu, Nat.mul_zero, floorLevel_roundUnits _ Magnitude.perOne_pos,
    rounded_zero Magnitude.perOne_pos]
  cases decide (a.val < 0) != negative <;> rfl

/-! ## Not a number -/

theorem floorLevel_mul_nan : ((ofLevel a).mul nan).floorLevel = 0 := by
  obtain ⟨x, hx, -⟩ := ofLevel_eq a
  rw [hx]
  rfl

theorem floorLevel_div_nan : ((ofLevel a).div nan).floorLevel = 0 := by
  obtain ⟨x, hx, -⟩ := ofLevel_eq a
  rw [hx]
  rfl

/-! ## Powers -/

/-- The number one is floored to the level one. -/
theorem floorLevel_one : one.floorLevel = Level.one :=
  floorLevel_whole false 1

/-- One to the power of a NaN is one, and every other power of it is a NaN. -/
theorem floorLevel_power_nan :
    (power a.val nan).floorLevel = if a.val = 1 then Level.one else 0 := by
  rw [power]
  by_cases h1 : a.val = 1
  · rw [if_pos h1, if_pos h1]
    exact floorLevel_one
  · rw [if_neg h1, if_neg h1]
    rfl

/-- Every level to the power of a zero is one, zero too. -/
theorem floorLevel_power_zero {d : Magnitude} (hd : d.significand = 0) :
    (power a.val (finite negative d)).floorLevel = Level.one := by
  simp only [power, hd, if_true]
  exact floorLevel_one

end Binary64

end Bendable
