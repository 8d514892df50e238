import Mathlib.Data.Nat.Dist
import Mathlib.Tactic.Ring
import Bendable.Binary64.Arithmetic

/-!
# Rounding a quotient to nearest

A quotient of natural numbers, in units of the least positive magnitude, is rounded to a multiple
of a power of two with a significand of 53 bits. No representable number of units is nearer to the
quotient. So a representable number that is not above the quotient is not above the rounded one
either, and the same below: what is known of a rounded number is found by looking for representable
numbers beside the quotient, and not by following the rounding. A number of units past the format
is an infinity.

## Main definitions

* `Magnitude.Representable u`: at most 53 bits of the number of units `u` count
* `Magnitude.rounded num den`: the rounded number of units, also past the format
* `Magnitude.limit`: the number of units where the format ends

## Main results

* `Magnitude.dist_rounded_le`: no representable number is nearer than the rounded one
* `Magnitude.le_rounded`, `Magnitude.rounded_le`: representable numbers stay on their side
* `Magnitude.round?_cases`: `round?` gives the rounded number of units, or is past the format
-/

namespace Bendable.Magnitude

/-- **A representable number of units**: a power of two times a significand of up to 53 bits. Any
power is allowed here. -/
def Representable (u : Nat) : Prop := ∃ m p, m ≤ 9007199254740992 ∧ u = m * 2 ^ p

/-- **The rounded number of units** nearest to a quotient, also where it is past the format. -/
def rounded (num den : Nat) : Nat :=
  nearestEven num (den <<< shiftFor (num / den)) <<< shiftFor (num / den)

/-- The number of units in `2 ^ 1024`, the least power of two past the format. -/
def limit : Nat := 1 <<< (places + 1024)

theorem perOne_eq : perOne = 2 ^ places :=
  Nat.one_shiftLeft places

theorem perOne_pos : 0 < perOne := by
  rw [perOne_eq]
  exact Nat.two_pow_pos places

/-! ## The nearest integer -/

theorem nearestEven_cases (num den : Nat) :
    (nearestEven num den = num / den ∧ 2 * (num % den) ≤ den) ∨
      (nearestEven num den = num / den + 1 ∧ den ≤ 2 * (num % den)) := by
  simp only [nearestEven]
  split
  · exact .inl ⟨rfl, by omega⟩
  · split
    · exact .inr ⟨rfl, by omega⟩
    · -- At a half it is the even one of the two neighbours.
      rcases Nat.mod_two_eq_zero_or_one (num / den) with h | h
      · exact .inl ⟨by rw [h, Nat.add_zero], by omega⟩
      · exact .inr ⟨by rw [h], by omega⟩

/-- **No integer is nearer to the quotient.** -/
theorem dist_nearestEven_le {den : Nat} (hd : 0 < den) (num k : Nat) :
    Nat.dist num (nearestEven num den * den) ≤ Nat.dist num (k * den) := by
  have hdm : num / den * den + num % den = num := Nat.div_add_mod' num den
  have hr : num % den < den := Nat.mod_lt num hd
  have hup : (num / den + 1) * den = num / den * den + den := Nat.succ_mul _ _
  -- Another integer is at most the quotient's whole part, or at least one more.
  have hk : k * den ≤ num / den * den ∨ (num / den + 1) * den ≤ k * den := by
    rcases Nat.lt_or_ge (num / den) k with h | h
    · exact .inr (Nat.mul_le_mul_right den h)
    · exact .inl (Nat.mul_le_mul_right den h)
  unfold Nat.dist
  rcases nearestEven_cases num den with ⟨he, hh⟩ | ⟨he, hh⟩
  · rw [he]
    omega
  · rw [he]
    omega

/-! ## The shift -/

/-- **The shift leaves 53 bits**: a quotient has that many whole bits after it, fewer only if
nothing is shifted. -/
theorem shiftFor_spec (num : Nat) {den : Nat} (hd : 0 < den) :
    num < 9007199254740992 * (den * 2 ^ shiftFor (num / den)) ∧
      (shiftFor (num / den) = 0 ∨
        4503599627370496 * (den * 2 ^ shiftFor (num / den)) ≤ num) := by
  have hswap : ∀ c p, c * (den * 2 ^ p) = c * 2 ^ p * den := by
    intro c p
    rw [Nat.mul_comm den, Nat.mul_assoc]
  rw [hswap, hswap, ← Nat.div_lt_iff_lt_mul hd, ← Nat.le_div_iff_mul_le hd]
  generalize num / den = u
  unfold shiftFor
  by_cases hu : u < 9007199254740992
  · rw [if_pos hu, Nat.pow_zero, Nat.mul_one]
    exact ⟨hu, .inl rfl⟩
  · rw [if_neg hu]
    have hne : u ≠ 0 := by omega
    have hlog : 53 ≤ u.log2 := (Nat.le_log2 hne).mpr (Nat.le_of_not_lt hu)
    have hle : 2 ^ u.log2 ≤ u := Nat.log2_self_le hne
    have hlt : u < 2 ^ (u.log2 + 1) := Nat.lt_log2_self
    have hpow : 4503599627370496 * 2 ^ (u.log2 - 52) = 2 ^ u.log2 := by
      rw [show (4503599627370496 : Nat) = 2 ^ 52 from rfl, ← Nat.pow_add]
      congr 1
      omega
    rw [Nat.pow_succ] at hlt
    exact ⟨by omega, .inr (by omega)⟩

/-- A representable number of units is a multiple of a power of two, or at most `2 ^ 52` of it. -/
theorem Representable.grid {y : Nat} (hy : Representable y) (s : Nat) :
    (∃ k, y = k * 2 ^ s) ∨ (s ≠ 0 ∧ y ≤ 4503599627370496 * 2 ^ s) := by
  obtain ⟨m, p, hm, rfl⟩ := hy
  rcases Nat.lt_or_ge p s with h | h
  · refine .inr ⟨by omega, ?_⟩
    calc m * 2 ^ p ≤ 4503599627370496 * 2 * 2 ^ p := Nat.mul_le_mul_right _ hm
      _ = 4503599627370496 * 2 ^ (p + 1) := by rw [Nat.pow_succ]; ring
      _ ≤ 4503599627370496 * 2 ^ s :=
        Nat.mul_le_mul_left _ (Nat.pow_le_pow_right Nat.two_pos h)
  · refine .inl ⟨m * 2 ^ (p - s), ?_⟩
    rw [Nat.mul_assoc, ← Nat.pow_add, Nat.sub_add_cancel h]

theorem representable_one : Representable 1 := ⟨1, 0, by decide, rfl⟩

/-- A whole number of up to 53 bits is representable. -/
theorem representable_mul_perOne {m : Nat} (h : m ≤ 9007199254740992) :
    Representable (m * perOne) :=
  ⟨m, places, h, congrArg (m * ·) perOne_eq⟩

/-! ## The rounded number -/

section Nearest

variable {num den y : Nat}

theorem rounded_mul (num den : Nat) :
    rounded num den * den = nearestEven num (den * 2 ^ shiftFor (num / den)) *
      (den * 2 ^ shiftFor (num / den)) := by
  rw [rounded, Nat.shiftLeft_eq, Nat.shiftLeft_eq]
  ring

/-- **The rounded number is nearest**: no representable number of units is nearer to the
quotient. -/
theorem dist_rounded_le (hd : 0 < den) (hy : Representable y) :
    Nat.dist num (rounded num den * den) ≤ Nat.dist num (y * den) := by
  have hD : 0 < den * 2 ^ shiftFor (num / den) := Nat.mul_pos hd (Nat.two_pow_pos _)
  rw [rounded_mul]
  rcases hy.grid (shiftFor (num / den)) with ⟨k, hk⟩ | ⟨hs, hle⟩
  · have hmul : y * den = k * (den * 2 ^ shiftFor (num / den)) := by
      rw [hk]
      ring
    rw [hmul]
    exact dist_nearestEven_le hD num k
  · -- Off the grid of the quotient, `2 ^ 52` steps of the grid lie between.
    have hbelow := (shiftFor_spec num hd).2.resolve_left hs
    have hmul : y * den ≤ 4503599627370496 * (den * 2 ^ shiftFor (num / den)) := by
      calc y * den ≤ 4503599627370496 * 2 ^ shiftFor (num / den) * den :=
            Nat.mul_le_mul_right den hle
        _ = 4503599627370496 * (den * 2 ^ shiftFor (num / den)) := by ring
    refine Nat.le_trans (dist_nearestEven_le hD num 4503599627370496) ?_
    unfold Nat.dist
    omega

/-- **A representable number not above the quotient** is not above the rounded number. -/
theorem le_rounded (hd : 0 < den) (hy : Representable y) (h : y * den ≤ num) :
    y ≤ rounded num den := by
  by_contra hlt
  have hmul : rounded num den * den < y * den :=
    Nat.mul_lt_mul_of_pos_right (Nat.lt_of_not_le hlt) hd
  have hdist : Nat.dist num (rounded num den * den) ≤ Nat.dist num (y * den) :=
    dist_rounded_le hd hy
  unfold Nat.dist at hdist
  omega

/-- **A representable number not below the quotient** is not below the rounded number. -/
theorem rounded_le (hd : 0 < den) (hy : Representable y) (h : num ≤ y * den) :
    rounded num den ≤ y := by
  by_contra hlt
  have hmul : y * den < rounded num den * den :=
    Nat.mul_lt_mul_of_pos_right (Nat.lt_of_not_le hlt) hd
  have hdist : Nat.dist num (rounded num den * den) ≤ Nat.dist num (y * den) :=
    dist_rounded_le hd hy
  unfold Nat.dist at hdist
  omega

/-- **A representable quotient is its own rounding.** -/
theorem rounded_eq (hd : 0 < den) (hy : Representable y) : rounded (y * den) den = y :=
  Nat.le_antisymm (rounded_le hd hy (Nat.le_refl _)) (le_rounded hd hy (Nat.le_refl _))

end Nearest

/-! ## The format -/

theorem limit_eq : limit = 2 ^ (places + 1024) :=
  Nat.one_shiftLeft (places + 1024)

/-- A whole number of up to 53 bits is far inside the format. -/
theorem mul_perOne_lt_limit {m : Nat} (h : m ≤ 9007199254740992) : m * perOne < limit := by
  have h53 : (9007199254740992 : Nat) = 2 ^ 53 := by decide
  refine Nat.lt_of_le_of_lt (Nat.mul_le_mul_right perOne h) ?_
  rw [h53, perOne_eq, limit_eq, ← Nat.pow_add]
  exact Nat.pow_lt_pow_right Nat.one_lt_two (by omega)

/-- The format reaches farther down than up. -/
theorem limit_le : limit ≤ perOne * perOne := by
  rw [limit_eq, perOne_eq, ← Nat.pow_add]
  exact Nat.pow_le_pow_right Nat.two_pos (by unfold places; omega)

theorem units_eq (x : Magnitude) : x.units = x.significand * 2 ^ x.shift :=
  Nat.shiftLeft_eq _ _

theorem representable_units (x : Magnitude) : Representable x.units :=
  ⟨x.significand, x.shift, x.normalised.1.le, x.units_eq⟩

theorem units_lt (x : Magnitude) : x.units < limit := by
  obtain ⟨hm, hp, -⟩ := x.normalised
  have hm' : x.significand < 2 ^ 53 := by omega
  rw [units_eq, limit_eq]
  calc x.significand * 2 ^ x.shift < 2 ^ 53 * 2 ^ x.shift :=
        Nat.mul_lt_mul_of_pos_right hm' (Nat.two_pow_pos _)
    _ = 2 ^ (53 + x.shift) := (Nat.pow_add 2 53 x.shift).symm
    _ ≤ 2 ^ (places + 1024) := Nat.pow_le_pow_right Nat.two_pos (by unfold places; omega)

theorem units_eq_zero_iff (x : Magnitude) : x.units = 0 ↔ x.significand = 0 := by
  rw [units_eq, Nat.mul_eq_zero]
  exact or_iff_left (Nat.two_pow_pos _).ne'

/-- A significand and a shift make a magnitude unless they are past the format. -/
theorem mk?_cases {m p : Nat} (hm : m < 9007199254740992) (hn : 4503599627370496 ≤ m ∨ p = 0) :
    (∃ x, mk? m p = some x ∧ x.units = m * 2 ^ p) ∨ (mk? m p = none ∧ limit ≤ m * 2 ^ p) := by
  rw [mk?]
  by_cases hp : p ≤ 2045
  · rw [dif_pos ⟨hm, hp, hn⟩]
    exact .inl ⟨_, rfl, units_eq _⟩
  · rw [dif_neg fun h => hp h.2.1, limit_eq]
    refine .inr ⟨rfl, ?_⟩
    have hm' : 2 ^ 52 ≤ m := hn.resolve_right (by omega)
    calc 2 ^ (places + 1024) ≤ 2 ^ (52 + p) :=
          Nat.pow_le_pow_right Nat.two_pos (by unfold places; omega)
      _ = 2 ^ 52 * 2 ^ p := Nat.pow_add 2 52 p
      _ ≤ m * 2 ^ p := Nat.mul_le_mul_right _ hm'

/-- **Rounding to the format** gives the rounded number of units, unless that is past the
format. -/
theorem round?_cases {den : Nat} (hd : 0 < den) (num : Nat) :
    (∃ x, round? num den = some x ∧ x.units = rounded num den) ∨
      (round? num den = none ∧ limit ≤ rounded num den) := by
  obtain ⟨hlt, hlow⟩ := shiftFor_spec num hd
  have hD : 0 < den * 2 ^ shiftFor (num / den) := Nat.mul_pos hd (Nat.two_pow_pos _)
  simp only [round?, rounded, Nat.shiftLeft_eq]
  generalize shiftFor (num / den) = p at *
  have hq : num / (den * 2 ^ p) < 9007199254740992 := (Nat.div_lt_iff_lt_mul hD).mpr hlt
  have hq' : p = 0 ∨ 4503599627370496 ≤ num / (den * 2 ^ p) :=
    hlow.imp_right (Nat.le_div_iff_mul_le hD).mpr
  have hc := nearestEven_cases num (den * 2 ^ p)
  generalize nearestEven num (den * 2 ^ p) = m at *
  split
  · -- A significand that is rounded up to 54 bits is carried into the shift.
    rename_i h
    have hcarry : m * 2 ^ p = 4503599627370496 * 2 ^ (p + 1) := by
      rw [h, Nat.pow_succ]
      ring
    rw [hcarry]
    exact mk?_cases (by decide) (.inl (Nat.le_refl _))
  · exact mk?_cases (by omega) (by omega)

end Bendable.Magnitude
