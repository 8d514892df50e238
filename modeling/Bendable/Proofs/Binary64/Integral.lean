import Mathlib.Data.Rat.Floor
import Bendable.Value
import Bendable.Proofs.Binary64.Flooring

/-!
# Levels times and over integers

An integer of up to 53 bits is a number, so its product with a level is an exact product rounded
once, and so is the quotient. A longer integer is rounded before it is used. Its product with a
level that is not zero is then far past the range, and the quotient is so small that only its sign
is left. In each of these cases the level is the one that the exact result has.

## Main results

* `Binary64.ofLevel_eq`, `Binary64.ofInt?_of_equalsReal`: exact integers
* `Binary64.ofInt?_eq_some`: the number that any integer becomes
* `Binary64.floorLevel_mul_ofInt`: a product with an integer
* `Binary64.floorLevel_div_ofInt`: a quotient by an integer
-/

namespace Bendable.Binary64

open Magnitude (Representable rounded perOne limit)

/-! ## Integers as numbers -/

section Whole

variable {m : Nat}

theorem rounded_whole (hr : Representable (m * perOne)) : rounded (m * perOne) 1 = m * perOne := by
  have h := Magnitude.rounded_eq Nat.one_pos hr
  rwa [Nat.mul_one] at h

/-- A representable whole number of the format is a number. -/
theorem roundQuotient_whole (hr : Representable (m * perOne)) (hlt : m * perOne < limit)
    (negative : Bool) :
    ∃ x, roundQuotient negative m 1 = finite negative x ∧ x.units = m * perOne := by
  rcases roundUnits_cases Nat.one_pos negative (m * perOne) with ⟨x, hx, hu⟩ | ⟨-, hu⟩
  · exact ⟨x, hx, hu.trans (rounded_whole hr)⟩
  · rw [rounded_whole hr] at hu
    exact absurd hu (Nat.not_le_of_lt hlt)

/-- A longer whole number is not rounded below `2 ^ 53`. -/
theorem le_rounded_whole (hm : 9007199254740992 ≤ m) :
    9007199254740992 * perOne ≤ rounded (m * perOne) 1 := by
  have hr : Representable (9007199254740992 * perOne) :=
    Magnitude.representable_mul_perOne (Nat.le_refl _)
  refine Magnitude.le_rounded Nat.one_pos hr ?_
  rw [Nat.mul_one]
  exact Nat.mul_le_mul_right perOne hm

end Whole

/-- **A level is a number.** -/
theorem ofLevel_eq (a : Level) :
    ∃ x, ofLevel a = finite (a.val < 0) x ∧ x.units = a.val.natAbs * perOne := by
  have hmin := a.min_le
  have hmax := a.le_max
  have ha : a.val.natAbs ≤ 9007199254740992 := by omega
  exact roundQuotient_whole (Magnitude.representable_mul_perOne ha)
    (Magnitude.mul_perOne_lt_limit ha) _

/-- **An integer that is exactly a number** becomes that number. -/
theorem ofInt?_of_equalsReal {k : Int} {x : Binary64} (h : Value.equalsReal k x) :
    ∃ z, ofInt? k = some (finite (k < 0) z) ∧ z.units = k.natAbs * perOne := by
  cases x with
  | nan => cases h
  | infinite => cases h
  | finite negative m =>
    have hm : signed negative m.units = k * perOne := of_decide_eq_true h
    have hu : m.units = k.natAbs * perOne := by
      rw [← natAbs_signed negative m.units, hm, Int.natAbs_mul, Int.natAbs_natCast]
    obtain ⟨z, hz, hzu⟩ := roundQuotient_whole (hu ▸ m.representable_units) (hu ▸ m.units_lt)
      (k < 0)
    exact ⟨z, by rw [ofInt?, hz]; rfl, hzu⟩

theorem finite?_eq_some_iff {x y : Binary64} :
    x.finite? = some y ↔ x = y ∧ ∃ negative z, y = finite negative z := by
  cases x with
  | nan => exact iff_of_false (by rintro ⟨⟩) (by rintro ⟨rfl, _, _, ⟨⟩⟩)
  | infinite => exact iff_of_false (by rintro ⟨⟩) (by rintro ⟨rfl, _, _, ⟨⟩⟩)
  | finite negative z =>
    constructor
    · rintro ⟨⟩
      exact ⟨rfl, negative, z, rfl⟩
    · rintro ⟨rfl, -⟩
      rfl

/-- **The number that an integer becomes**: the integer itself, if it is below `2 ^ 53`, else a
number not below that either. -/
theorem ofInt?_eq_some {k : Int} {y : Binary64} (h : ofInt? k = some y) :
    ∃ z, y = finite (k < 0) z ∧
      (k.natAbs < 9007199254740992 ∧ z.units = k.natAbs * perOne ∨
        9007199254740992 ≤ k.natAbs ∧ 9007199254740992 * perOne ≤ z.units) := by
  obtain ⟨hw, negative, w, rfl⟩ := finite?_eq_some_iff.mp h
  rcases roundUnits_cases Nat.one_pos (k < 0) (k.natAbs * perOne) with ⟨z, hz, hu⟩ | ⟨hz, -⟩
  · refine ⟨z, hw.symm.trans hz, ?_⟩
    rcases Nat.lt_or_ge k.natAbs 9007199254740992 with hk | hk
    · have hr := Magnitude.representable_mul_perOne hk.le
      exact .inl ⟨hk, hu.trans (rounded_whole hr)⟩
    · exact .inr ⟨hk, hu ▸ le_rounded_whole hk⟩
  · cases hw.symm.trans hz

/-! ## Products -/

/-- **A product with an integer** is exact, as far as the range allows. -/
theorem floorLevel_mul_ofInt (a : Level) {k : Int} {y : Binary64} (h : ofInt? k = some y) :
    ((ofLevel a).mul y).floorLevel = Level.saturate (a.val * k) := by
  obtain ⟨x, hx, hxu⟩ := ofLevel_eq a
  obtain ⟨z, rfl, hz⟩ := ofInt?_eq_some h
  have hval : a.val * k = signed ((a.val < 0) != (k < 0)) (a.val.natAbs * k.natAbs) := by
    rw [signed_mul_signed, signed_natAbs, signed_natAbs]
  rw [hx, mul, hxu, hval]
  rcases hz with ⟨-, hz⟩ | ⟨hk, hz⟩
  · have hnum : a.val.natAbs * perOne * z.units =
        a.val.natAbs * k.natAbs * perOne * perOne := by
      rw [hz]
      ring
    rw [hnum]
    exact floorLevel_exact _ Magnitude.perOne_pos _
  · rcases Nat.eq_zero_or_pos a.val.natAbs with ha | ha
    · rw [ha, Nat.zero_mul, Nat.zero_mul, Nat.zero_mul]
      exact floorLevel_exact _ Magnitude.perOne_pos 0
    · -- A level that is not zero times `2 ^ 53` or more is past the range, rounded or not.
      have hak : 2147483648 ≤ a.val.natAbs * k.natAbs :=
        Nat.le_trans (by omega) (Nat.le_mul_of_pos_left k.natAbs ha)
      rw [saturate_signed hak]
      refine floorLevel_large _ Magnitude.perOne_pos ?_
      calc 2147483648 * perOne * perOne ≤ 1 * perOne * (9007199254740992 * perOne) := by
            rw [Nat.one_mul, Nat.mul_comm perOne]
            exact Nat.mul_le_mul_right _ (Nat.mul_le_mul_right _ (by decide))
        _ ≤ a.val.natAbs * perOne * z.units :=
            Nat.mul_le_mul (Nat.mul_le_mul_right _ ha) hz

/-! ## Quotients -/

/-- The floor of a quotient is the quotient of the signed absolute values. -/
theorem floor_intCast_div (n : Int) {k : Int} (hk : k ≠ 0) :
    ⌊(n : ℚ) / k⌋ = signed ((n < 0) != (k < 0)) n.natAbs / k.natAbs := by
  have hn : signed (n < 0) n.natAbs = n := signed_natAbs n
  rcases Int.lt_or_gt_of_ne hk with h | h
  · have hs : signed ((n < 0) != (k < 0)) n.natAbs = -n := by
      rw [← Nat.mul_one n.natAbs, signed_mul_signed, hn]
      simp [signed, h]
    have hk' : (k : ℚ) = -(k.natAbs : ℚ) := by
      rw [← Int.cast_natCast, Int.ofNat_natAbs_of_nonpos (Int.le_of_lt h), Int.cast_neg, neg_neg]
    rw [hs, hk', div_neg, ← neg_div, ← Rat.floor_intCast_div_natCast, Int.cast_neg]
  · have hs : signed ((n < 0) != (k < 0)) n.natAbs = n := by
      have : ¬ k < 0 := by omega
      rw [← Nat.mul_one n.natAbs, signed_mul_signed, hn]
      simp [signed, this]
    have hk' : (k : ℚ) = (k.natAbs : ℚ) := by
      rw [← Int.cast_natCast, Int.natAbs_of_nonneg (Int.le_of_lt h)]
    rw [hs, hk', ← Rat.floor_intCast_div_natCast]

/-- **A quotient by an integer** is the floor of the exact quotient, as far as the range allows. -/
theorem floorLevel_div_ofInt (a : Level) {k : Int} (hk : k ≠ 0) {y : Binary64}
    (h : ofInt? k = some y) :
    ((ofLevel a).div y).floorLevel = Level.saturate ⌊(a.val : ℚ) / k⌋ := by
  have hmin := a.min_le
  have hmax := a.le_max
  obtain ⟨x, hx, hxu⟩ := ofLevel_eq a
  obtain ⟨z, rfl, hz⟩ := ofInt?_eq_some h
  have hpos : 0 < z.units := by
    rcases hz with ⟨-, hz⟩ | ⟨-, hz⟩
    · rw [hz]
      exact Nat.mul_pos (Int.natAbs_pos.mpr hk) Magnitude.perOne_pos
    · exact Nat.lt_of_lt_of_le (Nat.mul_pos (by decide) Magnitude.perOne_pos) hz
  have hz0 : z.significand ≠ 0 := fun h0 => hpos.ne' (z.units_eq_zero_iff.mpr h0)
  have hlike : FloorsLike (rounded (a.val.natAbs * perOne * perOne) z.units)
      a.val.natAbs k.natAbs := by
    rcases hz with ⟨hk', hz⟩ | ⟨hk', hz⟩
    · refine floorsLike_of_ratio hpos (Int.natAbs_pos.mpr hk) ?_ (by omega) hk'
      rw [hz]
      ring
    · rcases Nat.eq_zero_or_pos a.val.natAbs with ha | ha
      · rw [ha, Nat.zero_mul, Nat.zero_mul]
        exact floorsLike_zero hpos _
      · -- A level over `2 ^ 53` or more is small, but the format reaches farther down.
        refine floorsLike_of_small hpos ?_ ?_ ha (by omega)
        · calc z.units ≤ limit := z.units_lt.le
            _ ≤ perOne * perOne := Magnitude.limit_le
            _ ≤ a.val.natAbs * (perOne * perOne) := Nat.le_mul_of_pos_left _ ha
            _ = a.val.natAbs * perOne * perOne := (Nat.mul_assoc _ _ _).symm
        · have h2 : 2 * a.val.natAbs ≤ 9007199254740992 := by omega
          calc 2 * (a.val.natAbs * perOne * perOne)
              = perOne * (2 * a.val.natAbs * perOne) := by ring
            _ ≤ perOne * (9007199254740992 * perOne) :=
              Nat.mul_le_mul_left _ (Nat.mul_le_mul_right _ h2)
            _ ≤ perOne * z.units := Nat.mul_le_mul_left _ hz
  rw [hx, div, if_neg hz0, hxu, floorLevel_roundUnits _ hpos, floor_intCast_div a.val hk,
    hlike.signed_ediv (Int.natAbs_pos.mpr hk)]

end Bendable.Binary64
