import Bendable.Binary64.Power
import Bendable.Proofs.Binary64.Integral

/-!
# Levels to a power

A whole number to a whole power is a whole number, so its level is the exact power, stopped at the
ends of the range; this also holds where the power is past the format and becomes an infinity, since
the sign is that of the exact power. To a negative power it is the reciprocal of a whole number. If
that number is not above `2 ^ 1074`, the reciprocal is not rounded to zero and has the floor of the
exact one: zero, or minus one below zero.

A power that is computed as a number may also be refused, where there is none or where it is past
the format. What then stands for it is found from the number and the exponent alone, and it is the
power.

## Main definitions

* `Binary64.powerExit`: the exit of a power, a number or a refusal
* `Binary64.PowerExit.recover`: the number that stands for an exit

## Main results

* `Binary64.power_whole`: the cases of a power with a whole exponent
* `Binary64.floorLevel_power`: powers that are not negative
* `Binary64.floorLevel_power_reciprocal`: negative powers
* `Binary64.recover_powerExit`: refused powers get their number back
-/

namespace Bendable.Binary64

open Magnitude (rounded perOne)

/-! ## The sign of a power -/

theorem pow_neg_iff (n : Int) (w : Nat) : n ^ w < 0 ↔ n < 0 ∧ w % 2 = 1 := by
  rcases Nat.even_or_odd w with h | h
  · have hnn : 0 ≤ n ^ w := h.pow_nonneg n
    have hmod : w % 2 = 0 := Nat.even_iff.mp h
    omega
  · have hmod : w % 2 = 1 := Nat.odd_iff.mp h
    rw [h.pow_neg_iff, hmod]
    exact (and_iff_left rfl).symm

/-- **The sign of a power** is that of the base for the odd exponents. -/
theorem signed_pow (n : Int) (w : Nat) :
    signed (n < 0 && w % 2 = 1) (n.natAbs ^ w) = n ^ w := by
  have hsign : (decide (n < 0) && decide (w % 2 = 1)) = decide (n ^ w < 0) := by
    rw [← Bool.decide_and, decide_eq_decide]
    exact (pow_neg_iff n w).symm
  rw [hsign, ← Int.natAbs_pow, signed_natAbs]

/-! ## Whole exponents -/

theorem magnitudePower_whole (negative reciprocal : Bool) (base w : Nat) :
    magnitudePower negative reciprocal base (w * perOne) =
      if 1100 ≤ base.log2 * w then if reciprocal then zero negative else infinite negative
      else roundPower negative reciprocal (base ^ w) 1 := by
  rw [magnitudePower]
  simp only [Nat.mul_div_cancel w Magnitude.perOne_pos, Nat.mul_mod_left, if_true]
  rfl

section Whole

variable {w : Nat} {y : Magnitude} (n : Int)

/-- **A power with a whole exponent.** -/
theorem power_whole (hy : y.units = w * perOne) (negative : Bool) :
    power n (finite negative y) =
      if w = 0 then one
      else if n = 0 then if negative then infinite false else zero false
      else if n.natAbs = 1 then roundQuotient (n < 0 && w % 2 = 1) 1 1
      else magnitudePower (n < 0 && w % 2 = 1) negative n.natAbs (w * perOne) := by
  have hs : y.significand = 0 ↔ w = 0 := by
    rw [← y.units_eq_zero_iff, hy, Nat.mul_eq_zero]
    exact or_iff_left Magnitude.perOne_pos.ne'
  simp only [power, hy, Nat.mul_div_cancel w Magnitude.perOne_pos, Nat.mul_mod_left, hs, not_true,
    and_false, if_false]

theorem pow_log2_le {base : Nat} (hb : base ≠ 0) (w : Nat) : 2 ^ (base.log2 * w) ≤ base ^ w := by
  rw [Nat.pow_mul]
  exact Nat.pow_le_pow_left (Nat.log2_self_le hb) w

/-- **A power that is not negative** is exact, as far as the range allows. -/
theorem floorLevel_power (hy : y.units = w * perOne) :
    (power n (finite false y)).floorLevel = Level.saturate (n ^ w) := by
  rw [power_whole n hy]
  by_cases hw : w = 0
  · rw [if_pos hw, one, floorLevel_whole, hw, Int.pow_zero]
    rfl
  rw [if_neg hw]
  by_cases hn : n = 0
  · rw [if_pos hn, if_neg Bool.false_ne_true, floorLevel_zero, hn, Int.zero_pow hw]
    rfl
  rw [if_neg hn, ← signed_pow n w]
  by_cases h1 : n.natAbs = 1
  · rw [if_pos h1, floorLevel_whole, h1, Nat.one_pow]
  rw [if_neg h1, magnitudePower_whole]
  by_cases hbig : 1100 ≤ n.natAbs.log2 * w
  · -- The infinity and the exact power are stopped at the same end of the range.
    rw [if_pos hbig, if_neg Bool.false_ne_true, floorLevel_infinite]
    have hpow : 2147483648 ≤ n.natAbs ^ w := by
      calc 2147483648 = 2 ^ 31 := by decide
        _ ≤ 2 ^ (n.natAbs.log2 * w) := Nat.pow_le_pow_right Nat.two_pos (by omega)
        _ ≤ n.natAbs ^ w := pow_log2_le (Int.natAbs_ne_zero.mpr hn) w
    exact (saturate_signed hpow _).symm
  · rw [if_neg hbig, roundPower, if_neg Bool.false_ne_true, floorLevel_whole]

end Whole

/-! ## Reciprocals -/

/-- **A reciprocal that is not rounded to zero** has the floor of the exact one. -/
theorem floorLevel_reciprocal (negative : Bool) {d : Nat} (h2 : 2 ≤ d) (hle : d ≤ perOne) :
    (roundQuotient negative 1 d).floorLevel = Level.saturate (signed negative 1 / d) := by
  have hpos : 0 < d := by omega
  have hlike : FloorsLike (rounded (1 * perOne) d) 1 d := by
    refine floorsLike_of_small hpos (by omega) ?_ Nat.one_pos (by omega)
    rw [Nat.one_mul, Nat.mul_comm]
    exact Nat.mul_le_mul_left perOne h2
  rw [roundQuotient, floorLevel_roundUnits negative hpos, hlike.signed_ediv hpos]

/-- The floor of a reciprocal is a level. -/
theorem val_saturate_signed_one_div (negative : Bool) (d : Nat) :
    (Level.saturate (signed negative 1 / d)).val = signed negative 1 / d := by
  have h := Int.natAbs_ediv_le_natAbs (signed negative 1) d
  rw [natAbs_signed] at h
  rw [Level.val_saturate]
  omega

/-- The reciprocal of a whole power, as a quotient of natural numbers with its sign. -/
theorem floor_zpow_neg {n : Int} (hn : n ≠ 0) (w : Nat) :
    ⌊(n : ℚ) ^ (-(w : Int))⌋ = signed (n < 0 && w % 2 = 1) 1 / ((n.natAbs ^ w : Nat) : Int) := by
  have hpow : n ^ w ≠ 0 := pow_ne_zero w hn
  have hsign : (decide ((1 : Int) < 0) != decide (n ^ w < 0)) =
      (decide (n < 0) && decide (w % 2 = 1)) := by
    rw [← Bool.decide_and, decide_eq_decide.mpr (pow_neg_iff n w)]
    exact Bool.false_bne _
  have h := floor_intCast_div 1 hpow
  rw [hsign, Int.natAbs_pow, Int.cast_one, Int.natAbs_one] at h
  rw [zpow_neg, zpow_natCast, ← one_div, ← Int.cast_pow, h]

/-- **A negative power** whose reciprocal is not above `2 ^ 1074` has the floor of the exact one. -/
theorem floorLevel_power_reciprocal {n : Int} {w : Nat} {y : Magnitude}
    (hy : y.units = w * perOne) (hw : w ≠ 0) (hn : n ≠ 0) (hle : n.natAbs ^ w ≤ perOne) :
    (power n (finite true y)).floorLevel.val = ⌊(n : ℚ) ^ (-(w : Int))⌋ := by
  rw [floor_zpow_neg hn, ← val_saturate_signed_one_div, power_whole n hy, if_neg hw, if_neg hn]
  by_cases h1 : n.natAbs = 1
  · rw [if_pos h1, floorLevel_whole, h1, Nat.one_pow, Nat.cast_one, Int.ediv_one]
  rw [if_neg h1, magnitudePower_whole]
  by_cases hbig : 1100 ≤ n.natAbs.log2 * w
  · -- So long a power is above `2 ^ 1074`.
    have hlt : perOne < n.natAbs ^ w := by
      rw [Magnitude.perOne_eq]
      calc 2 ^ Magnitude.places < 2 ^ (n.natAbs.log2 * w) :=
            Nat.pow_lt_pow_right Nat.one_lt_two (by unfold Magnitude.places; omega)
        _ ≤ n.natAbs ^ w := pow_log2_le (Int.natAbs_ne_zero.mpr hn) w
    exact absurd hle (Nat.not_le_of_lt hlt)
  · have h2 : 2 ≤ n.natAbs ^ w := Nat.le_trans (by omega) (Nat.le_self_pow hw _)
    rw [if_neg hbig, roundPower, if_pos rfl, floorLevel_reciprocal _ h2 hle]

/-! ## Refused powers -/

/-- **The exits of a power** that is computed as a number: it is one, there is none, or it is past
the format. -/
inductive PowerExit where
  | value (x : Binary64)
  | undefined
  | overflow

/-- **The exit of a power.** Zero has no negative powers, and a negative number has none with a
fractional exponent. An infinite exponent is never refused. -/
def powerExit (n : Int) : Binary64 → PowerExit
  | finite negative x =>
    if n = 0 ∧ negative = true ∧ x.significand ≠ 0 then .undefined
    else if n < 0 ∧ x.units % perOne ≠ 0 then .undefined
    else
      match power n (finite negative x) with
      | infinite _ => .overflow
      | z => .value z
  | y => .value (power n y)

/-- Whether a number is an odd integer. -/
def isOdd : Binary64 → Bool
  | finite _ x => x.units % perOne = 0 && x.units / perOne % 2 = 1
  | _ => false

/-- **The number that stands for a refused power**: for a power that is not defined, the infinity if
zero is raised to a negative number and else a NaN; past the format, the infinity whose sign is that
of the base for an odd exponent. -/
def PowerExit.recover (n : Int) (y : Binary64) : PowerExit → Binary64
  | value x => x
  | undefined => if n = 0 ∧ y.isNegative then infinite false else nan
  | overflow => infinite (n < 0 && y.isOdd)

section Infinite

variable {negative reciprocal s : Bool}

theorem eq_of_roundQuotient_eq_infinite {num den : Nat}
    (h : roundQuotient negative num den = infinite s) : s = negative := by
  rw [roundQuotient, roundUnits] at h
  cases hx : Magnitude.round? (num * perOne) den with
  | none =>
    rw [hx] at h
    exact (infinite.inj h).symm
  | some x =>
    rw [hx] at h
    cases h

theorem eq_of_roundPower_eq_infinite {num den : Nat}
    (h : roundPower negative reciprocal num den = infinite s) : s = negative := by
  rw [roundPower] at h
  split at h
  · exact eq_of_roundQuotient_eq_infinite h
  · exact eq_of_roundQuotient_eq_infinite h

/-- An enclosure has no negative ends. -/
theorem eq_of_roundIrrational_eq_infinite {base whole fraction tries : Nat} {bits : Nat}
    (h : roundIrrational reciprocal base whole fraction tries bits = infinite s) : s = false := by
  induction tries generalizing bits with
  | zero => exact eq_of_roundPower_eq_infinite h
  | succ tries ih =>
    rw [roundIrrational] at h
    split at h
    rename_i low high hends
    split at h
    · have hlow : low = (roundedEnds reciprocal base whole fraction bits).1 := by rw [hends]
      exact eq_of_roundPower_eq_infinite (hlow.symm.trans h)
    · exact ih h

theorem eq_of_magnitudePower_eq_infinite {base units : Nat}
    (hwhole : negative = true → units % perOne = 0)
    (h : magnitudePower negative reciprocal base units = infinite s) : s = negative := by
  rw [magnitudePower] at h
  split at h
  · split at h
    · cases h
    · exact (infinite.inj h).symm
  · split at h
    · exact eq_of_roundPower_eq_infinite h
    · -- Only a positive number is raised to an exponent that is not whole.
      rename_i hf
      have hn : negative = false := Bool.eq_false_iff.mpr fun ht => hf (hwhole ht)
      dsimp only at h
      split at h
      · exact eq_of_roundPower_eq_infinite h
      · exact (eq_of_roundIrrational_eq_infinite h).trans hn.symm

end Infinite

theorem isOdd_finite (negative : Bool) (x : Magnitude) :
    (finite negative x).isOdd =
      (decide (x.units % perOne = 0) && decide (x.units / perOne % 2 = 1)) := rfl

/-- **An infinite power is negative** exactly for a negative number and an odd exponent, if the
exponent is finite and the power is defined. -/
theorem eq_of_power_eq_infinite {n : Int} {negative s : Bool} {x : Magnitude}
    (hzero : ¬(n = 0 ∧ negative = true ∧ x.significand ≠ 0))
    (h : power n (finite negative x) = infinite s) : s = (n < 0 && (finite negative x).isOdd) := by
  rw [isOdd_finite]
  simp only [power] at h
  split at h
  · rename_i hs
    rw [eq_of_roundQuotient_eq_infinite h, x.units_eq_zero_iff.mpr hs]
    simp
  · rename_i hs
    split at h
    · rename_i hn
      cases negative with
      | false => cases h
      | true => exact absurd ⟨hn, rfl, hs⟩ hzero
    · split at h
      · cases h
      · rename_i hwhole
        have hand : (decide (n < 0) && decide (x.units / perOne % 2 = 1)) =
            (decide (n < 0) &&
              (decide (x.units % perOne = 0) && decide (x.units / perOne % 2 = 1))) := by
          by_cases hn : n < 0
          · rw [decide_eq_true (not_not.mp fun hw => hwhole ⟨hn, hw⟩), Bool.true_and]
          · rw [decide_eq_false hn, Bool.false_and, Bool.false_and]
        rw [← hand]
        split at h
        · exact eq_of_roundQuotient_eq_infinite h
        · refine eq_of_magnitudePower_eq_infinite (fun ht => ?_) h
          have hn : n < 0 := of_decide_eq_true (Bool.and_eq_true_iff.mp ht).1
          exact not_not.mp fun hw => hwhole ⟨hn, hw⟩

/-- **No power is lost by the exits**: what stands for a refused power is the power. -/
theorem recover_powerExit (n : Int) (y : Binary64) : (powerExit n y).recover n y = power n y := by
  cases y with
  | nan => rfl
  | infinite negative => rfl
  | finite negative x =>
    rw [powerExit]
    split
    · rename_i hzero
      obtain ⟨rfl, rfl, hs⟩ := hzero
      simp [PowerExit.recover, power, isNegative, hs]
    · rename_i hzero
      split
      · rename_i hbroken
        have hs : x.significand ≠ 0 := by
          intro h
          exact hbroken.2 (by rw [x.units_eq_zero_iff.mpr h, Nat.zero_mod])
        have hn : n ≠ 0 := Int.ne_of_lt hbroken.1
        simp [PowerExit.recover, power, hs, hn, hbroken.1, hbroken.2]
      · split
        · rename_i s hinf
          rw [hinf, eq_of_power_eq_infinite hzero hinf]
          rfl
        · rfl

end Bendable.Binary64
