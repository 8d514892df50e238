import Bendable.Proofs.Binary64.Special

/-!
# Scaling and the order of levels

A number whose sign is clear scales a greater level to a greater one or the same, and a number whose
sign is set turns the order around. Each stage of scaling keeps the order: rounding, because no
quotient is nearer to the rounding of another one than to its own, and flooring and stopping at the
ends of the range. Infinities and zeros are no exception: the extremes of negative levels, of zero
and of positive levels follow each other.

## Main definitions

* `Level.Ordered reversed a b`: `a` is not above `b`, or the other way round

## Main results

* `Magnitude.rounded_mono`: rounding keeps the order
* `Binary64.ordered_floorLevel_mul`, `Binary64.ordered_floorLevel_div`: so do products and quotients
-/

namespace Bendable

/-! ## Rounding -/

namespace Magnitude

variable {num num' den : Nat}

/-- A rounded number of units is representable. -/
theorem representable_rounded (hd : 0 < den) (num : Nat) : Representable (rounded num den) := by
  obtain ⟨hlt, -⟩ := shiftFor_spec num hd
  rw [rounded, Nat.shiftLeft_eq, Nat.shiftLeft_eq]
  generalize shiftFor (num / den) = p at *
  have hD : 0 < den * 2 ^ p := Nat.mul_pos hd (Nat.two_pow_pos p)
  have hq : num / (den * 2 ^ p) < 9007199254740992 := (Nat.div_lt_iff_lt_mul hD).mpr hlt
  refine ⟨_, p, ?_, rfl⟩
  -- The nearest integer is at most one more than the whole part.
  rcases nearestEven_cases num (den * 2 ^ p) with ⟨he, -⟩ | ⟨he, -⟩ <;> omega

/-- **Rounding keeps the order.** -/
theorem rounded_mono (hd : 0 < den) (h : num ≤ num') : rounded num den ≤ rounded num' den := by
  by_contra hlt
  -- Each of the two roundings is a candidate for the other quotient, and not nearer to it.
  have hmul : rounded num' den * den < rounded num den * den :=
    Nat.mul_lt_mul_of_pos_right (Nat.lt_of_not_le hlt) hd
  have hnum : Nat.dist num (rounded num den * den) ≤ Nat.dist num (rounded num' den * den) :=
    dist_rounded_le hd (representable_rounded hd num')
  have hnum' : Nat.dist num' (rounded num' den * den) ≤ Nat.dist num' (rounded num den * den) :=
    dist_rounded_le hd (representable_rounded hd num)
  -- So both quotients are in the middle between the roundings, and there is only one.
  have heq : num = num' := by
    unfold Nat.dist at hnum hnum'
    omega
  rw [heq] at hmul
  exact Nat.lt_irrefl _ hmul

end Magnitude

/-! ## Levels in order -/

/-- **Levels in order**: the first is not above the second, or in the reversed order the second not
above the first. -/
def Level.Ordered (reversed : Bool) (a b : Level) : Prop :=
  if reversed then b.val ≤ a.val else a.val ≤ b.val

namespace Level

theorem ordered_self (reversed : Bool) (a : Level) : Ordered reversed a a := by
  cases reversed with
  | false => exact Int.le_refl a.val
  | true => exact Int.le_refl a.val

/-- Stopping at the ends of the range keeps the order. -/
theorem saturate_mono {m n : Int} (h : m ≤ n) : (saturate m).val ≤ (saturate n).val := by
  rw [val_saturate, val_saturate]
  omega

/-- The extremes of levels in order. -/
theorem ordered_extreme {a b : Level} (h : a.val ≤ b.val) (negative : Bool) :
    Ordered negative (a.extreme negative) (b.extreme negative) := by
  have hl : least.val = -2147483648 := rfl
  have hg : greatest.val = 2147483647 := rfl
  have h0 : (0 : Level).val = 0 := rfl
  unfold Ordered extreme
  cases negative with
  | false =>
    simp only [Bool.false_eq_true, if_false, decide_eq_false_iff_not]
    split_ifs <;> omega
  | true =>
    simp only [if_true, decide_eq_true_eq]
    split_ifs <;> omega

end Level

namespace Binary64

open Magnitude (rounded perOne)

variable {a b : Level}

/-- **The signed rounding** of a multiple of a level grows with the level. -/
theorem signed_rounded_mono {den : Nat} (hd : 0 < den) (h : a.val ≤ b.val) (m : Nat) :
    signed (a.val < 0) (rounded (a.val.natAbs * m) den) ≤
      signed (b.val < 0) (rounded (b.val.natAbs * m) den) := by
  have hle : ∀ c c' : Level, c.val.natAbs ≤ c'.val.natAbs →
      rounded (c.val.natAbs * m) den ≤ rounded (c'.val.natAbs * m) den := by
    intro c c' hc
    exact Magnitude.rounded_mono hd (Nat.mul_le_mul_right m hc)
  -- Below zero the greater level has the smaller absolute value.
  rcases lt_or_ge a.val 0 with ha | ha
  · rw [decide_eq_true ha]
    rcases lt_or_ge b.val 0 with hb | hb
    · rw [decide_eq_true hb]
      have hba := hle b a (by omega)
      show -(rounded (a.val.natAbs * m) den : Int) ≤ -(rounded (b.val.natAbs * m) den : Int)
      omega
    · rw [decide_eq_false (Int.not_lt.mpr hb)]
      show -(rounded (a.val.natAbs * m) den : Int) ≤ (rounded (b.val.natAbs * m) den : Int)
      omega
  · have hb : 0 ≤ b.val := Int.le_trans ha h
    have hab := hle a b (by omega)
    rw [decide_eq_false (Int.not_lt.mpr ha), decide_eq_false (Int.not_lt.mpr hb)]
    exact Int.ofNat_le.mpr hab

theorem signed_bne_true (s : Bool) (n : Nat) : signed (s != true) n = -signed s n := by
  cases s <;> simp [signed]

/-- **A level that is scaled exactly, rounded and floored** keeps its order to the others, or has it
turned around by the sign of the operand. -/
theorem ordered_floorLevel_roundUnits {den : Nat} (hd : 0 < den) (h : a.val ≤ b.val)
    (negative : Bool) (m : Nat) :
    Level.Ordered negative
      (roundUnits ((a.val < 0) != negative) (a.val.natAbs * m) den).floorLevel
      (roundUnits ((b.val < 0) != negative) (b.val.natAbs * m) den).floorLevel := by
  rw [floorLevel_roundUnits _ hd, floorLevel_roundUnits _ hd]
  have hle := signed_rounded_mono hd h m
  cases negative with
  | false =>
    rw [Bool.bne_false, Bool.bne_false]
    exact Level.saturate_mono (Int.ediv_le_ediv perOne_pos hle)
  | true =>
    rw [signed_bne_true, signed_bne_true]
    exact Level.saturate_mono (Int.ediv_le_ediv perOne_pos (Int.neg_le_neg hle))

/-! ## Products and quotients -/

variable {f : Binary64}

/-- **Products keep the order** of levels, or turn it around if the number is negative. -/
theorem ordered_floorLevel_mul (hf : f ≠ nan) (h : a.val ≤ b.val) :
    Level.Ordered f.isNegative ((ofLevel a).mul f).floorLevel ((ofLevel b).mul f).floorLevel := by
  cases f with
  | nan => exact absurd rfl hf
  | infinite negative =>
    rw [floorLevel_mul_infinite, floorLevel_mul_infinite]
    exact Level.ordered_extreme h negative
  | finite negative y =>
    obtain ⟨x, hx, hxu⟩ := ofLevel_eq a
    obtain ⟨z, hz, hzu⟩ := ofLevel_eq b
    rw [hx, hz, mul, mul, hxu, hzu, Nat.mul_assoc, Nat.mul_assoc]
    exact ordered_floorLevel_roundUnits Magnitude.perOne_pos h negative (perOne * y.units)

/-- **Quotients keep the order** of levels, or turn it around if the number is negative. A zero
divides by its sign. -/
theorem ordered_floorLevel_div (hf : f ≠ nan) (h : a.val ≤ b.val) :
    Level.Ordered f.isNegative ((ofLevel a).div f).floorLevel ((ofLevel b).div f).floorLevel := by
  cases f with
  | nan => exact absurd rfl hf
  | infinite negative =>
    rw [floorLevel_div_infinite, floorLevel_div_infinite]
    exact Level.ordered_self negative 0
  | finite negative y =>
    by_cases hy : y.significand = 0
    · rw [floorLevel_div_zero a negative hy, floorLevel_div_zero b negative hy]
      exact Level.ordered_extreme h negative
    · obtain ⟨x, hx, hxu⟩ := ofLevel_eq a
      obtain ⟨z, hz, hzu⟩ := ofLevel_eq b
      have hpos : 0 < y.units := Nat.pos_of_ne_zero fun h0 => hy (y.units_eq_zero_iff.mp h0)
      rw [hx, hz, div, div, if_neg hy, if_neg hy, hxu, hzu, Nat.mul_assoc, Nat.mul_assoc]
      exact ordered_floorLevel_roundUnits hpos h negative (perOne * perOne)

end Binary64

end Bendable
