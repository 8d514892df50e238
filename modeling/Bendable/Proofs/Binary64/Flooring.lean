import Mathlib.Data.Rat.Floor
import Bendable.Proofs.Binary64.Rounding
import Bendable.Proofs.Level.Narrow

/-!
# Flooring rounded quotients

A quotient is rounded to a number, and the number is floored to a level. Rounding may lose the
quotient, but the level is the one that the exact quotient has, in three cases: the quotient is a
whole number; it is a quotient of whole numbers of few bits, since the next whole number is then
farther off than rounding reaches; or it is small and not rounded to zero. The argument is the same
each time: a representable number is named between the quotient and the next whole number, and
rounding does not cross it.

## Main definitions

* `Binary64.signed negative n`: a natural number with a sign
* `Binary64.FloorsLike u n k`: the units `u` are floored like the quotient of `n` and `k`

## Main results

* `Binary64.floorLevel_roundUnits`: the level of a rounded quotient
* `Binary64.floorLevel_exact`, `Binary64.floorLevel_large`: whole quotients, and those past the
  range
* `Binary64.floorsLike_of_ratio`, `Binary64.floorsLike_of_small`: quotients that are not whole
-/

namespace Bendable.Binary64

open Magnitude (Representable rounded perOne limit)

/-- **A natural number with a sign.** -/
def signed (negative : Bool) (n : Nat) : Int := if negative then -(n : Int) else n

theorem signedUnits_eq (negative : Bool) (x : Magnitude) :
    signedUnits negative x = signed negative x.units := rfl

theorem signed_mul (negative : Bool) (m n : Nat) :
    signed negative (m * n) = signed negative m * n := by
  cases negative <;> simp [signed]

theorem natAbs_signed (negative : Bool) (n : Nat) : (signed negative n).natAbs = n := by
  cases negative <;> simp [signed]

/-- An integer is its absolute value with its sign. -/
theorem signed_natAbs (n : Int) : signed (n < 0) n.natAbs = n := by
  by_cases h : n < 0
  · simp only [signed, h, decide_true, if_true]
    omega
  · simp only [signed, h, decide_false, Bool.false_eq_true, if_false]
    omega

/-- The sign of a product is that of its factors. -/
theorem signed_mul_signed (s t : Bool) (m n : Nat) :
    signed (s != t) (m * n) = signed s m * signed t n := by
  cases s <;> cases t <;> simp [signed]

/-! ## The level of a rounded quotient -/

/-- **The end of the level range** on the side of a sign. -/
def bound (negative : Bool) : Level := if negative then Level.least else Level.greatest

theorem saturate_of_ge {n : Int} (h : 2147483647 ≤ n) : Level.saturate n = Level.greatest := by
  ext
  change max (-2147483648) (min n 2147483647) = 2147483647
  omega

theorem saturate_of_le {n : Int} (h : n ≤ -2147483648) : Level.saturate n = Level.least := by
  ext
  change max (-2147483648) (min n 2147483647) = -2147483648
  omega

theorem saturate_signed {n : Nat} (h : 2147483648 ≤ n) (negative : Bool) :
    Level.saturate (signed negative n) = bound negative := by
  cases negative with
  | false => exact saturate_of_ge (show (2147483647 : Int) ≤ n by omega)
  | true => exact saturate_of_le (show -(n : Int) ≤ -2147483648 by omega)

/-- Units that reach past the range are stopped at its end. -/
theorem saturate_signed_ediv {u : Nat} (h : 2147483648 * perOne ≤ u) (negative : Bool) :
    Level.saturate (signed negative u / perOne) = bound negative := by
  have hu : (2147483648 : Int) * perOne ≤ u := by exact_mod_cast h
  cases negative with
  | false =>
    have hq : 2147483648 ≤ (u : Int) / perOne := Int.le_ediv_of_mul_le perOne_pos hu
    exact saturate_of_ge (show (2147483647 : Int) ≤ u / perOne by omega)
  | true =>
    have hu' : -(u : Int) ≤ -2147483648 * perOne := by omega
    exact saturate_of_le (Int.ediv_le_of_le_mul perOne_pos hu')

/-- **A rounded quotient** is a number with the rounded units, or the infinity if these are past the
format. -/
theorem roundUnits_cases {den : Nat} (hd : 0 < den) (negative : Bool) (num : Nat) :
    (∃ x, roundUnits negative num den = finite negative x ∧ x.units = rounded num den) ∨
      (roundUnits negative num den = infinite negative ∧ limit ≤ rounded num den) := by
  rw [roundUnits]
  rcases Magnitude.round?_cases hd num with ⟨x, hx, hu⟩ | ⟨hx, hu⟩
  · rw [hx]
    exact .inl ⟨x, rfl, hu⟩
  · rw [hx]
    exact .inr ⟨rfl, hu⟩

theorem floorLevel_infinite (negative : Bool) :
    (infinite negative).floorLevel = bound negative := by
  cases negative <;> rfl

theorem floorLevel_zero (negative : Bool) : (zero negative).floorLevel = 0 := by
  have h : signedUnits negative 0 = 0 := by cases negative <;> rfl
  change Level.saturate ((signedUnits negative 0).fdiv perOne) = 0
  rw [h, Int.zero_fdiv]
  rfl

section Quotient

variable {num den : Nat} (negative : Bool)

/-- **The level of a rounded quotient** is the floor of the rounded number of units. An infinity
has the level at the end of the range, as every number past the format would. -/
theorem floorLevel_roundUnits (hd : 0 < den) :
    (roundUnits negative num den).floorLevel =
      Level.saturate (signed negative (rounded num den) / perOne) := by
  rcases roundUnits_cases hd negative num with ⟨x, hx, hu⟩ | ⟨hx, hu⟩
  · rw [hx]
    change Level.saturate ((signedUnits negative x).fdiv perOne) = _
    rw [Int.fdiv_eq_ediv_of_nonneg _ (Int.le_of_lt perOne_pos), signedUnits_eq, hu]
  · have hlimit : 2147483648 * perOne < limit := Magnitude.mul_perOne_lt_limit (by decide)
    rw [hx, floorLevel_infinite, saturate_signed_ediv (Nat.le_trans hlimit.le hu)]

/-- **A quotient past the range** is stopped at its end. -/
theorem floorLevel_large (hd : 0 < den) (h : 2147483648 * perOne * den ≤ num) :
    (roundUnits negative num den).floorLevel = bound negative := by
  rw [floorLevel_roundUnits negative hd]
  have hr : Representable (2147483648 * perOne) := Magnitude.representable_mul_perOne (by decide)
  exact saturate_signed_ediv (Magnitude.le_rounded hd hr h) negative

/-- **A whole quotient** keeps its value, as far as the range allows. -/
theorem floorLevel_exact (hd : 0 < den) (m : Nat) :
    (roundUnits negative (m * perOne * den) den).floorLevel =
      Level.saturate (signed negative m) := by
  rcases Nat.le_total m 2147483648 with hm | hm
  · have hr : Representable (m * perOne) := Magnitude.representable_mul_perOne (by omega)
    rw [floorLevel_roundUnits negative hd, Magnitude.rounded_eq hd hr, signed_mul,
      Int.mul_ediv_cancel _ perOne_pos.ne']
  · rw [saturate_signed hm]
    exact floorLevel_large negative hd
      (Nat.mul_le_mul_right den (Nat.mul_le_mul_right perOne hm))

/-- A whole number is floored to itself, as far as the range allows. -/
theorem floorLevel_whole (m : Nat) :
    (roundQuotient negative m 1).floorLevel = Level.saturate (signed negative m) := by
  have h := floorLevel_exact negative Nat.one_pos m
  rwa [Nat.mul_one] at h

end Quotient

/-! ## Quotients that are not whole -/

/-- **Units that are floored like a quotient**, with either sign: the whole part is the same, and
both are whole or neither is. -/
structure FloorsLike (u n k : Nat) : Prop where
  div : u / perOne = n / k
  dvd : perOne ∣ u ↔ k ∣ n

theorem FloorsLike.signed_ediv {u n k : Nat} (h : FloorsLike u n k) (hk : 0 < k)
    (negative : Bool) : signed negative u / perOne = signed negative n / k := by
  have hdiv : (u : Int) / perOne = n / k := by exact_mod_cast h.div
  cases negative with
  | false => exact hdiv
  | true =>
    change -(u : Int) / perOne = -(n : Int) / k
    have hp : (perOne : Int).sign = 1 := Int.sign_eq_one_of_pos perOne_pos
    have hk' : (k : Int).sign = 1 := Int.sign_natCast_of_ne_zero hk.ne'
    rw [Int.neg_ediv, Int.neg_ediv, hdiv, hp, hk']
    simp only [Int.natCast_dvd_natCast, h.dvd]

/-- Strictly between two neighbouring whole numbers, nothing is whole. -/
theorem FloorsLike.of_between {u n k q : Nat} (hlo : q * perOne < u) (hhi : u < (q + 1) * perOne)
    (hn : n / k = q) (hk : ¬k ∣ n) : FloorsLike u n k where
  div := (Nat.div_eq_of_lt_le (Nat.le_of_lt hlo) hhi).trans hn.symm
  dvd := by
    refine iff_of_false ?_ hk
    rintro ⟨c, rfl⟩
    rw [Nat.mul_comm perOne c] at hlo hhi
    have hqc : q < c := Nat.lt_of_mul_lt_mul_right hlo
    have hcq : c < q + 1 := Nat.lt_of_mul_lt_mul_right hhi
    omega

/-- Nothing is rounded to nothing. -/
theorem rounded_zero {den : Nat} (hd : 0 < den) : rounded 0 den = 0 :=
  Nat.le_zero.mp (Magnitude.rounded_le hd ⟨0, 0, by decide, rfl⟩ (Nat.zero_le _))

theorem floorsLike_zero {den : Nat} (hd : 0 < den) (k : Nat) : FloorsLike (rounded 0 den) 0 k where
  div := by rw [rounded_zero hd, Nat.zero_div, Nat.zero_div]
  dvd := by
    rw [rounded_zero hd]
    exact iff_of_true (Nat.dvd_zero _) (Nat.dvd_zero _)

section Ratio

variable {num den n k m j : Nat}

theorem perOne_eq_mul (hj : j ≤ Magnitude.places) :
    perOne = 2 ^ j * 2 ^ (Magnitude.places - j) := by
  rw [Magnitude.perOne_eq, ← Nat.pow_add, Nat.add_sub_cancel' hj]

/-- A binary fraction of up to 53 bits not above the quotient `n / k` is not above its rounding. -/
theorem fraction_le_rounded (hd : 0 < den) (hk : 0 < k) (hq : num * k = n * perOne * den)
    (hm : m ≤ 9007199254740992) (hj : j ≤ Magnitude.places) (h : m * k ≤ n * 2 ^ j) :
    m * 2 ^ (Magnitude.places - j) ≤ rounded num den := by
  refine Magnitude.le_rounded hd ⟨m, _, hm, rfl⟩ (Nat.le_of_mul_le_mul_right ?_ hk)
  rw [hq, perOne_eq_mul hj]
  calc m * 2 ^ (Magnitude.places - j) * den * k
      = m * k * (2 ^ (Magnitude.places - j) * den) := by ring
    _ ≤ n * 2 ^ j * (2 ^ (Magnitude.places - j) * den) := Nat.mul_le_mul_right _ h
    _ = n * (2 ^ j * 2 ^ (Magnitude.places - j)) * den := by ring

/-- A binary fraction of up to 53 bits not below the quotient `n / k` is not below its rounding. -/
theorem rounded_le_fraction (hd : 0 < den) (hk : 0 < k) (hq : num * k = n * perOne * den)
    (hm : m ≤ 9007199254740992) (hj : j ≤ Magnitude.places) (h : n * 2 ^ j ≤ m * k) :
    rounded num den ≤ m * 2 ^ (Magnitude.places - j) := by
  refine Magnitude.rounded_le hd ⟨m, _, hm, rfl⟩ (Nat.le_of_mul_le_mul_right ?_ hk)
  rw [hq, perOne_eq_mul hj]
  calc n * (2 ^ j * 2 ^ (Magnitude.places - j)) * den
      = n * 2 ^ j * (2 ^ (Magnitude.places - j) * den) := by ring
    _ ≤ m * k * (2 ^ (Magnitude.places - j) * den) := Nat.mul_le_mul_right _ h
    _ = m * 2 ^ (Magnitude.places - j) * den * k := by ring

/-- So many binary places as reach below one part in `k`, and the whole part still fits in front of
them. -/
theorem exists_places (hk : 0 < k) (hn : n ≤ 2147483648) (hk' : k < 9007199254740992) :
    ∃ j ≤ Magnitude.places, k ≤ 2 ^ j ∧ (n / k + 1) * 2 ^ j ≤ 9007199254740992 := by
  have hlog : k.log2 < 53 := (Nat.log2_lt hk.ne').mpr hk'
  have hle : 2 ^ k.log2 ≤ k := Nat.log2_self_le hk.ne'
  have hlt : k < 2 ^ (k.log2 + 1) := Nat.lt_log2_self
  refine ⟨k.log2 + 1, by unfold Magnitude.places; omega, Nat.le_of_lt hlt, ?_⟩
  rcases Nat.eq_zero_or_pos (n / k) with h | h
  · rw [h, Nat.zero_add, Nat.one_mul]
    exact Nat.pow_le_pow_right Nat.two_pos hlog
  · -- A divisor not above the level has few bits itself.
    have hkn : k ≤ k * (n / k) := Nat.le_mul_of_pos_right k h
    have hmul : k * (n / k) ≤ n := Nat.mul_div_le n k
    calc (n / k + 1) * 2 ^ (k.log2 + 1) = (n / k + 1) * 2 ^ k.log2 * 2 := by ring
      _ ≤ (n / k + 1) * k * 2 := Nat.mul_le_mul_right 2 (Nat.mul_le_mul_left _ hle)
      _ = (k * (n / k) + k) * 2 := by ring
      _ ≤ 9007199254740992 := by omega

/-- **A quotient of a level and a divisor of 53 bits** is floored as if it were not rounded: the
next whole number is at least one part in the divisor away. -/
theorem floorsLike_of_ratio (hd : 0 < den) (hk : 0 < k) (hq : num * k = n * perOne * den)
    (hn : n ≤ 2147483648) (hk' : k < 9007199254740992) : FloorsLike (rounded num den) n k := by
  by_cases hdvd : k ∣ n
  · obtain ⟨c, rfl⟩ := hdvd
    have hc : c ≤ k * c := Nat.le_mul_of_pos_left c hk
    have hnum : num = c * perOne * den := by
      refine Nat.eq_of_mul_eq_mul_right hk ?_
      rw [hq]
      ring
    have hr : Representable (c * perOne) := Magnitude.representable_mul_perOne (by omega)
    rw [hnum, Magnitude.rounded_eq hd hr]
    exact ⟨by rw [Nat.mul_div_cancel _ Magnitude.perOne_pos, Nat.mul_div_cancel_left _ hk],
      iff_of_true (Dvd.intro_left c rfl) (Dvd.intro c rfl)⟩
  · -- The binary fractions next to the whole numbers on both sides do not pass `n / k`.
    obtain ⟨j, hj, hkj, hbits⟩ := exists_places hk hn hk'
    have hdm : k * (n / k) + n % k = n := Nat.div_add_mod n k
    have hr : n % k ≠ 0 := fun h => hdvd (Nat.dvd_of_mod_eq_zero h)
    have hlt : n % k < k := Nat.mod_lt n hk
    have hpos : 0 < 2 ^ j := Nat.two_pow_pos j
    have hg : 0 < 2 ^ (Magnitude.places - j) := Nat.two_pow_pos _
    have hsucc : (n / k + 1) * 2 ^ j = n / k * 2 ^ j + 2 ^ j := Nat.succ_mul _ _
    have hlo : (n / k * 2 ^ j + 1) * 2 ^ (Magnitude.places - j) ≤ rounded num den := by
      refine fraction_le_rounded hd hk hq (by omega) hj ?_
      calc (n / k * 2 ^ j + 1) * k = k * (n / k) * 2 ^ j + k := by ring
        _ ≤ k * (n / k) * 2 ^ j + 1 * 2 ^ j := by omega
        _ ≤ k * (n / k) * 2 ^ j + n % k * 2 ^ j :=
          Nat.add_le_add_left (Nat.mul_le_mul_right _ (Nat.pos_of_ne_zero hr)) _
        _ = n * 2 ^ j := by rw [← Nat.add_mul, hdm]
    obtain ⟨m, hm⟩ : ∃ m, m + 1 = (n / k + 1) * 2 ^ j :=
      Nat.exists_eq_succ_of_ne_zero (Nat.mul_pos (Nat.succ_pos _) hpos).ne' |>.imp fun _ h => h.symm
    have hhi : rounded num den ≤ m * 2 ^ (Magnitude.places - j) := by
      refine rounded_le_fraction hd hk hq (by omega) hj (Nat.le_of_add_le_add_right (b := 2 ^ j) ?_)
      calc n * 2 ^ j + 2 ^ j = (k * (n / k) + n % k + 1) * 2 ^ j := by rw [hdm]; ring
        _ ≤ (k * (n / k) + k) * 2 ^ j := Nat.mul_le_mul_right _ (by omega)
        _ = (m + 1) * k := by rw [hm]; ring
        _ ≤ m * k + 2 ^ j := by rw [Nat.succ_mul]; omega
    refine .of_between ?_ ?_ rfl hdvd
    · rw [perOne_eq_mul hj]
      calc n / k * (2 ^ j * 2 ^ (Magnitude.places - j))
          < n / k * (2 ^ j * 2 ^ (Magnitude.places - j)) + 2 ^ (Magnitude.places - j) :=
            Nat.lt_add_of_pos_right hg
        _ = (n / k * 2 ^ j + 1) * 2 ^ (Magnitude.places - j) := by ring
        _ ≤ rounded num den := hlo
    · rw [perOne_eq_mul hj]
      calc rounded num den ≤ m * 2 ^ (Magnitude.places - j) := hhi
        _ < (m + 1) * 2 ^ (Magnitude.places - j) :=
          Nat.mul_lt_mul_of_pos_right (Nat.lt_succ_self m) hg
        _ = (n / k + 1) * (2 ^ j * 2 ^ (Magnitude.places - j)) := by rw [hm]; ring

end Ratio

/-- **A small quotient that is not rounded to zero** is floored like every quotient between zero and
one. -/
theorem floorsLike_of_small {num den n k : Nat} (hd : 0 < den) (hle : den ≤ num)
    (hhalf : 2 * num ≤ perOne * den) (hn : 0 < n) (hnk : n < k) :
    FloorsLike (rounded num den) n k := by
  -- A unit is not above the quotient and a half is not below it.
  have hone : 1 ≤ rounded num den :=
    Magnitude.le_rounded hd Magnitude.representable_one (by omega)
  have hp : perOne = 2 ^ 1 * 2 ^ (Magnitude.places - 1) := perOne_eq_mul (by decide)
  have hlt : rounded num den ≤ 2 ^ (Magnitude.places - 1) := by
    refine Magnitude.rounded_le hd ⟨1, _, by decide, (Nat.one_mul _).symm⟩ ?_
    rw [hp, Nat.mul_assoc] at hhalf
    omega
  have hg : 0 < 2 ^ (Magnitude.places - 1) := Nat.two_pow_pos _
  refine .of_between (q := 0) (by omega) (by omega) (Nat.div_eq_of_lt hnk) ?_
  exact fun h => Nat.not_le_of_lt hnk (Nat.le_of_dvd hn h)

/-- **The sign of the level** is the sign of the quotient, if no quotient but zero is rounded to
zero. -/
theorem floorLevel_roundUnits_neg_iff {num den : Nat} (hd : 0 < den) (negative : Bool)
    (h : num = 0 ∨ den ≤ num) :
    (roundUnits negative num den).floorLevel.val < 0 ↔ negative = true ∧ num ≠ 0 := by
  have hz : rounded num den = 0 ↔ num = 0 := by
    constructor
    · intro hr
      refine h.resolve_right fun hle => ?_
      have hone : 1 ≤ rounded num den :=
        Magnitude.le_rounded hd Magnitude.representable_one (by omega)
      omega
    · rintro rfl
      exact rounded_zero hd
  have hsign : 0 ≤ signed negative (rounded num den) / perOne ↔
      0 ≤ signed negative (rounded num den) := Int.ediv_nonneg_iff_of_pos perOne_pos
  rw [floorLevel_roundUnits negative hd, Level.val_saturate, Ne, ← hz]
  cases negative with
  | false =>
    have hnn : 0 ≤ signed false (rounded num den) := Int.natCast_nonneg _
    have hq := hsign.mpr hnn
    exact iff_of_false (by omega) (fun hf => Bool.false_ne_true hf.1)
  | true =>
    have hs : signed true (rounded num den) = -(rounded num den : Int) := rfl
    rw [hs] at hsign ⊢
    constructor
    · intro hlt
      exact ⟨rfl, by omega⟩
    · rintro ⟨-, hne⟩
      omega

end Bendable.Binary64
