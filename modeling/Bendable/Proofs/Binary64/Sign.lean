import Bendable.Proofs.Binary64.Integral

/-!
# Signs of products and quotients

A level times a positive number, or over one, keeps its sign, however small the number is. A level
that is not zero is at least one, and the number is at least one unit, so the product is at least
one unit and is not rounded to zero. Nor is a quotient, since the format reaches farther down than
up. Flooring keeps the sign of what is not zero. A zero divisor is as good as a positive one: it
gives infinities of the same sign, and a NaN for zero.

## Main definitions

* `Level.SameSign a b`: both levels are negative or neither is
* `Binary64.Positive`: the numbers above zero

## Main results

* `Binary64.sameSign_floorLevel_mul`, `Binary64.sameSign_floorLevel_div`: the level keeps its sign
-/

namespace Bendable

/-- **Levels of the same sign**: both are negative or neither is. -/
def Level.SameSign (a b : Level) : Prop := a.val < 0 ↔ b.val < 0

namespace Binary64

open Magnitude (perOne limit)

/-- **A number above zero**, the infinity included. -/
def Positive : Binary64 → Prop
  | nan => False
  | infinite negative => negative = false
  | finite negative x => negative = false ∧ 0 < x.units

variable (a : Level)

/-- The number of a level is zero for the level zero only. -/
theorem significand_eq_zero_iff {x : Magnitude} (hx : x.units = a.val.natAbs * perOne) :
    x.significand = 0 ↔ a.val = 0 := by
  rw [← x.units_eq_zero_iff, hx, Nat.mul_eq_zero, Int.natAbs_eq_zero]
  exact or_iff_left Magnitude.perOne_pos.ne'

/-- **Times an infinity**, a level becomes the end of the range on its side, and zero stays. -/
theorem sameSign_floorLevel_infinite :
    (if a.val = 0 then nan else infinite (a.val < 0)).floorLevel.SameSign a := by
  by_cases h0 : a.val = 0
  · rw [if_pos h0]
    exact iff_of_false (Int.lt_irrefl 0) (by omega)
  · rw [if_neg h0]
    by_cases h : a.val < 0
    · rw [decide_eq_true h]
      exact iff_of_true (by decide) h
    · rw [decide_eq_false h]
      exact iff_of_false (by decide) h

/-- **A level that keeps at least a unit** keeps its sign. -/
theorem sameSign_floorLevel_roundUnits {m den : Nat} (hd : 0 < den) (hle : den ≤ perOne * m) :
    (roundUnits (a.val < 0) (a.val.natAbs * perOne * m) den).floorLevel.SameSign a := by
  have hm : 0 < perOne * m := Nat.lt_of_lt_of_le hd hle
  have hnum : a.val.natAbs * (perOne * m) = 0 ∨ den ≤ a.val.natAbs * (perOne * m) := by
    rcases Nat.eq_zero_or_pos a.val.natAbs with h | h
    · exact .inl (by rw [h, Nat.zero_mul])
    · exact .inr (Nat.le_trans hle (Nat.le_mul_of_pos_left _ h))
  rw [Level.SameSign, Nat.mul_assoc, floorLevel_roundUnits_neg_iff hd _ hnum, decide_eq_true_iff]
  constructor
  · exact And.left
  · intro h
    exact ⟨h, (Nat.mul_pos (Int.natAbs_pos.mpr (Int.ne_of_lt h)) hm).ne'⟩

/-- **A level times a positive number** keeps its sign. -/
theorem sameSign_floorLevel_mul {f : Binary64} (hf : f.Positive) :
    ((ofLevel a).mul f).floorLevel.SameSign a := by
  obtain ⟨x, hx, hxu⟩ := ofLevel_eq a
  rw [hx]
  cases f with
  | nan => exact hf.elim
  | infinite negative =>
    obtain rfl : negative = false := hf
    simp only [mul, Bool.bne_false, significand_eq_zero_iff a hxu]
    exact sameSign_floorLevel_infinite a
  | finite negative z =>
    obtain ⟨rfl, hz⟩ := hf
    rw [mul, Bool.bne_false, hxu]
    exact sameSign_floorLevel_roundUnits a Magnitude.perOne_pos
      (Nat.le_mul_of_pos_right perOne hz)

/-- **A level over a finite number that is not negative** keeps its sign. -/
theorem sameSign_floorLevel_div (d : Magnitude) :
    ((ofLevel a).div (finite false d)).floorLevel.SameSign a := by
  obtain ⟨x, hx, hxu⟩ := ofLevel_eq a
  rw [hx, div, Bool.bne_false, hxu]
  by_cases hd : d.significand = 0
  · simp only [hd, if_true, significand_eq_zero_iff a hxu]
    exact sameSign_floorLevel_infinite a
  · rw [if_neg hd]
    have hpos : 0 < d.units := Nat.pos_of_ne_zero fun h => hd (d.units_eq_zero_iff.mp h)
    exact sameSign_floorLevel_roundUnits a hpos (Nat.le_trans d.units_lt.le Magnitude.limit_le)

end Binary64

end Bendable
