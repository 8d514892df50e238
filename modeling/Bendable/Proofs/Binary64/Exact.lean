import Mathlib.Data.Rat.Floor
import Mathlib.Order.WithBot
import Bendable.Proofs.Binary64.Rounding
import Bendable.Proofs.Level.Narrow

/-!
# Exact values

A finite number is a rational number: its sign, and its significand times a power of two. Counting
units of the least positive number is counting in steps of `2 ^ -1074` of that value, so the integer
division of the units is the floor of the value. The infinities are below and above all rational
numbers, and a NaN has no place among them.

## Main definitions

* `Binary64.exactValue negative x`: the rational number that a finite number is
* `Binary64.extended? x`: the place of a number that is no NaN among the extended rationals

## Main results

* `Binary64.floor_exactValue`: the floor of a finite number is the floor of its value
* `Binary64.exactValue_ofBits`: the value that the fields of an encoding say
* `Binary64.ofBits_toBits`: every number has an encoding
-/

namespace Bendable.Binary64

open Magnitude (perOne places)

/-! ## Finite numbers -/

/-- **The exact value** of a finite number: the significand times a power of two, with the sign. -/
def exactValue (negative : Bool) (x : Magnitude) : ℚ :=
  (if negative then -1 else 1) * (x.significand * 2 ^ ((x.shift : ℤ) - places))

/-- The value counts units, and `perOne` of them are one. -/
theorem exactValue_eq (negative : Bool) (x : Magnitude) :
    exactValue negative x = signedUnits negative x / (perOne : ℕ) := by
  have hunits : (x.significand : ℚ) * 2 ^ ((x.shift : ℤ) - places) = x.units / (perOne : ℕ) := by
    rw [x.units_eq, Magnitude.perOne_eq, zpow_sub₀ two_ne_zero, zpow_natCast, zpow_natCast,
      ← mul_div_assoc]
    push_cast
    rfl
  rw [exactValue, hunits]
  cases negative with
  | false => simp [signedUnits]
  | true => simp [signedUnits, neg_div]

/-- **The floor of a finite number** is the floor of its value. -/
theorem floor_exactValue (negative : Bool) (x : Magnitude) :
    ⌊exactValue negative x⌋ = (finite negative x).floor := by
  rw [exactValue_eq, Rat.floor_intCast_div_natCast, floor,
    Int.fdiv_eq_ediv_of_nonneg _ (Int.le_of_lt perOne_pos)]

/-! ## Order -/

/-- **The place of a number** among the rational numbers and the two infinities. -/
def extended? : Binary64 → Option (WithBot (WithTop ℚ))
  | nan => none
  | infinite true => some ⊥
  | infinite false => some ⊤
  | finite negative x => some (exactValue negative x : WithTop ℚ)

/-- **Numbers in order** start at the lower infinity, end at the upper one, or are finite and have
values in order. -/
theorem cases_of_le {x y : Binary64} {p q : WithBot (WithTop ℚ)} (hx : x.extended? = some p)
    (hy : y.extended? = some q) (h : p ≤ q) :
    x = infinite true ∨ y = infinite false ∨
      ∃ s m t n, x = finite s m ∧ y = finite t n ∧ exactValue s m ≤ exactValue t n := by
  cases x with
  | nan => cases hx
  | infinite negative =>
    cases negative with
    | true => exact .inl rfl
    | false =>
      -- Nothing but the upper infinity itself is above it.
      cases hx
      obtain rfl : q = ⊤ := top_le_iff.mp h
      cases y with
      | nan => cases hy
      | infinite negative =>
        cases negative with
        | true => cases hy
        | false => exact .inr (.inl rfl)
      | finite t n => exact absurd (WithBot.coe_inj.mp (Option.some.inj hy)) WithTop.coe_ne_top
  | finite s m =>
    cases hx
    cases y with
    | nan => cases hy
    | infinite negative =>
      cases negative with
      | true =>
        cases hy
        exact absurd h (WithBot.bot_lt_coe _).not_ge
      | false => exact .inr (.inl rfl)
    | finite t n =>
      cases hy
      have hle := WithTop.coe_le_coe.mp (WithBot.coe_le_coe.mp h)
      exact .inr (.inr ⟨s, m, t, n, rfl, rfl, hle⟩)

/-! ## Encodings -/

/-- The eleven bits of the exponent. -/
def exponentField (bits : Nat) : Nat := (bits >>> 52) % 2048

/-- The 52 bits of the fraction. -/
def fractionField (bits : Nat) : Nat := bits % 4503599627370496

/-- **An encoding whose exponent is not the reserved one** is a finite number. A fraction has a
leading one in front of it, unless the exponent field is zero. -/
theorem ofBits_finite {bits : Nat} (h : exponentField bits ≠ 2047) :
    ∃ x, ofBits bits = finite (bits.testBit 63) x ∧ x.shift = exponentField bits - 1 ∧
      x.significand = (if exponentField bits = 0 then 0 else 4503599627370496) +
        fractionField bits := by
  unfold exponentField fractionField at *
  simp only [ofBits, dif_neg h]
  split
  · rename_i h0
    exact ⟨_, rfl, by rw [h0], (Nat.zero_add _).symm⟩
  · exact ⟨_, rfl, rfl, rfl⟩

/-- **The value of an encoding**: the significand times a power of two. The exponent field zero
stands for the same power as one. -/
theorem exactValue_ofBits {bits field fraction : Nat} {negative : Bool}
    (hs : bits.testBit 63 = negative) (he : exponentField bits = field)
    (hf : fractionField bits = fraction) (h : field ≠ 2047) :
    ∃ x, ofBits bits = finite negative x ∧
      exactValue negative x = (if negative then -1 else 1) *
        if field = 0 then (fraction : ℚ) * 2 ^ (-1074 : ℤ)
        else (4503599627370496 + fraction : ℚ) * 2 ^ ((field : ℤ) - 1075) := by
  obtain ⟨x, hx, hshift, hsig⟩ := ofBits_finite (he.trans_ne h)
  rw [he] at hshift hsig
  rw [hf] at hsig
  refine ⟨x, hs ▸ hx, ?_⟩
  rw [exactValue, hshift, hsig]
  by_cases h0 : field = 0
  · simp only [h0, if_true, Nat.zero_add]
    rfl
  · have hpower : ((field - 1 : Nat) : ℤ) - places = (field : ℤ) - 1075 := by
      unfold places
      omega
    rw [if_neg h0, if_neg h0, hpower]
    push_cast
    rfl

/-- The fields of an encoding stand side by side, so that none reaches into another. -/
theorem fields_add (negative : Bool) {field fraction : Nat} (he : field < 2048)
    (hf : fraction < 4503599627370496) :
    (toBits.sign negative + (field <<< 52 + fraction)).testBit 63 = negative ∧
      exponentField (toBits.sign negative + (field <<< 52 + fraction)) = field ∧
        fractionField (toBits.sign negative + (field <<< 52 + fraction)) = fraction := by
  have hs : toBits.sign negative = if negative then 9223372036854775808 else 0 := by
    cases negative <;> rfl
  have hfield : field <<< 52 = field * 4503599627370496 := Nat.shiftLeft_eq field 52
  have h63 : 2 ^ 63 = 9223372036854775808 := by decide
  have h52 : 2 ^ 52 = 4503599627370496 := by decide
  unfold exponentField fractionField
  rw [hs, hfield, Nat.testBit_eq_decide_div_mod_eq, Nat.shiftRight_eq_div_pow, h63, h52]
  cases negative with
  | false =>
    simp only [Bool.false_eq_true, if_false, decide_eq_false_iff_not]
    omega
  | true =>
    simp only [if_true, decide_eq_true_eq]
    omega

/-- The fields of a finite number: the exponent field is zero exactly if the significand has no
leading one. -/
theorem exists_fields (x : Magnitude) :
    ∃ field fraction, field < 2047 ∧ fraction < 4503599627370496 ∧ x.shift = field - 1 ∧
      x.significand = (if field = 0 then 0 else 4503599627370496) + fraction ∧
        ∀ negative, toBits (finite negative x) =
          toBits.sign negative + (field <<< 52 + fraction) := by
  obtain ⟨hm, hp, hn⟩ := x.normalised
  by_cases h : x.significand < 4503599627370496
  · refine ⟨0, x.significand, by decide, h, by omega, (Nat.zero_add _).symm, ?_⟩
    intro negative
    rw [toBits, if_pos h, Nat.zero_shiftLeft, Nat.zero_add]
  · refine ⟨x.shift + 1, x.significand - 4503599627370496, by omega, by omega, rfl, ?_, ?_⟩
    · rw [if_neg (Nat.succ_ne_zero _)]
      omega
    · intro negative
      rw [toBits, if_neg h]

/-- **Every number has an encoding**, which reads back as the number. -/
theorem ofBits_toBits (x : Binary64) : ofBits x.toBits = x := by
  cases x with
  | nan => rfl
  | infinite negative => cases negative <;> rfl
  | finite negative x =>
    obtain ⟨field, fraction, he, hf, hshift, hsig, hbits⟩ := exists_fields x
    obtain ⟨hsign, hexp, hfrac⟩ := fields_add negative (Nat.lt_succ_of_lt he) hf
    rw [← hbits] at hsign hexp hfrac
    obtain ⟨y, hy, hshift', hsig'⟩ := ofBits_finite (hexp.trans_ne he.ne)
    rw [hexp, ← hshift] at hshift'
    rw [hexp, hfrac, ← hsig] at hsig'
    -- Shift and significand are what the fields say, and there is nothing more to a magnitude.
    have hyx : y = x := by
      cases x
      cases y
      cases hshift'
      cases hsig'
      rfl
    rw [hy, hsign, hyx]

end Bendable.Binary64
