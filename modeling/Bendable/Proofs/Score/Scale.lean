import Bendable.Diagnostics
import Bendable.Score.Scale
import Bendable.Proofs.Binary64.Power
import Bendable.Proofs.Binary64.Sign

/-!
# Scaled scores

A score is scaled through rounded numbers. By an integer the result is what exact arithmetic gives:
each level is multiplied, divided and floored, or raised to the power as a whole number or a
fraction, and stopped at the ends of the range. By any positive number the levels keep their signs,
so a score is as feasible afterwards as before, and the same hard levels are broken.

## Main definitions

* `Score.SameState s t`: the two scores are equally assigned, equally feasible and broken alike

## Main results

* `Score.scale_integer`: products with integers and quotients by them are exact
* `Score.power_integer`: powers with an exponent that is exactly an integer are exact
* `Score.scale_positive_sameState`: a positive factor or divisor keeps the state
-/

namespace Bendable

open Binary64 (ofLevel)

/-- An integer stands for a number unless it is past the format. -/
theorem Value.toReal_int_eq_ok {k : Int} {y : Binary64} (h : Binary64.ofInt? k = some y) :
    (Value.int k).toReal = .ok y := by
  rw [Value.toReal, h]
  rfl

theorem Value.toReal_real (x : Binary64) : (Value.real x).toReal = .ok x := by
  rw [Value.toReal]

theorem Value.exists_ofInt?_of_isOk {k : Int} (h : (Value.int k).toReal.isOk) :
    ∃ y, Binary64.ofInt? k = some y := by
  rw [Value.toReal] at h
  cases hy : Binary64.ofInt? k with
  | none =>
    rw [hy] at h
    cases h
  | some y => exact ⟨y, rfl⟩

namespace Score

section Number

variable (s : Score) {v : Value} {y : Binary64}

theorem multiply_eq (h : v.toReal = .ok y) :
    s.multiply v = .ok (s.map fun a => ((ofLevel a).mul y).floorLevel) := by
  rw [multiply, h]
  rfl

theorem divide_eq (h : v.toReal = .ok y) :
    s.divide v = .ok (s.map fun a => ((ofLevel a).div y).floorLevel) := by
  rw [divide, h]
  rfl

theorem power_eq (h : v.toReal = .ok y) :
    s.power v = .ok (s.map fun a => (Binary64.power a.val y).floorLevel) := by
  rw [power, h]
  rfl

end Number

/-! ## Scaling by integers -/

/-- **Scaling by an integer is exact**, for every integer that is not past the format: a level is
multiplied, or divided and floored, and stopped at the ends of the range. -/
theorem scale_integer (s : Score) {k : Int} (hk : (Value.int k).toReal.isOk) :
    s.multiply (.int k) = .ok (s.map fun a => Level.saturate (a.val * k)) ∧
      (k ≠ 0 → s.divide (.int k) = .ok (s.map fun a => Level.saturate ⌊(a.val : ℚ) / k⌋)) := by
  obtain ⟨y, hy⟩ := Value.exists_ofInt?_of_isOk hk
  have hv := Value.toReal_int_eq_ok hy
  constructor
  · have hmul : (fun a => ((ofLevel a).mul y).floorLevel) =
        fun a => Level.saturate (a.val * k) := funext fun a => Binary64.floorLevel_mul_ofInt a hy
    rw [multiply_eq s hv, hmul]
  · intro hk0
    have hdiv : (fun a => ((ofLevel a).div y).floorLevel) =
        fun a => Level.saturate ⌊(a.val : ℚ) / k⌋ :=
      funext fun a => Binary64.floorLevel_div_ofInt a hk0 hy
    rw [divide_eq s hv, hdiv]

/-- The least level over minus one is the quotient that leaves the range; `7 / -1` does not. -/
theorem scale_minus_one :
    (Value.int (-1)).toReal.isOk = true ∧
      Score.multiply ⟨Level.least, [Level.saturate 7], []⟩ (.int (-1)) =
        .ok ⟨Level.greatest, [Level.saturate (-7)], []⟩ ∧
      Score.divide ⟨Level.least, [Level.saturate 7], []⟩ (.int (-1)) =
        .ok ⟨Level.greatest, [Level.saturate (-7)], []⟩ := by
  have hk : (Value.int (-1)).toReal.isOk = true := by decide +kernel
  have h := scale_integer ⟨Level.least, [Level.saturate 7], []⟩ hk
  refine ⟨hk, h.1.trans (congrArg Except.ok ?_), (h.2 (by decide)).trans (congrArg Except.ok ?_)⟩
  · decide
  · decide +kernel

/-- **Powers with an integer exponent are exact**, for every integer that is exactly a number. A
power that is not negative is stopped at the ends of the range. To a negative power, zero becomes
the greatest level, and any other level has the floor of the exact power, as long as the reciprocal
of that power is not above `2 ^ 1074`. -/
theorem power_integer (s : Score) {k : Int} {x : Binary64} (hk : Value.equalsReal k x) :
    (0 ≤ k → s.power (.int k) = .ok (s.map fun a => Level.saturate (a.val ^ k.toNat))) ∧
      (k < 0 → ∃ f : Level → Level, s.power (.int k) = .ok (s.map f) ∧ f 0 = Level.greatest ∧
        ∀ a, a.val ≠ 0 → a.val.natAbs ^ k.natAbs ≤ 2 ^ 1074 →
          (f a).val = ⌊(a.val : ℚ) ^ k⌋) := by
  obtain ⟨z, hz, hzu⟩ := Binary64.ofInt?_of_equalsReal hk
  have hpow := power_eq s (Value.toReal_int_eq_ok hz)
  constructor
  · intro h0
    have hneg : decide (k < 0) = false := decide_eq_false (Int.not_lt.mpr h0)
    have hnat : k.toNat = k.natAbs := by omega
    have hlevel : (fun a : Level => (Binary64.power a.val (.finite false z)).floorLevel) =
        fun a => Level.saturate (a.val ^ k.toNat) :=
      funext fun a => hnat ▸ Binary64.floorLevel_power a.val hzu
    rw [hpow, hneg, hlevel]
  · intro h0
    rw [decide_eq_true h0] at hpow
    have hw : k.natAbs ≠ 0 := by omega
    refine ⟨_, hpow, ?_, ?_⟩
    · change (Binary64.power 0 (.finite true z)).floorLevel = Level.greatest
      rw [Binary64.power_whole 0 hzu, if_neg hw, if_pos rfl, if_pos rfl]
      rfl
    · intro a ha hle
      have hle' : a.val.natAbs ^ k.natAbs ≤ Magnitude.perOne := by
        rw [Magnitude.perOne_eq, show Magnitude.places = 1074 from rfl]
        exact hle
      have hkn : -(k.natAbs : Int) = k := by omega
      rw [Binary64.floorLevel_power_reciprocal hzu hw ha hle', hkn]

/-- An odd power of the least level is past the format, and keeps the end of the range that it
belongs to; a reciprocal is floored below zero. -/
theorem power_thirty_five_minus_three :
    Value.equalsReal 35 (Binary64.roundQuotient false 35 1) = true ∧
      Score.power ⟨0, [Level.least], [Level.greatest]⟩ (.int 35) =
        .ok ⟨0, [Level.least], [Level.greatest]⟩ ∧
      Value.equalsReal (-3) (Binary64.roundQuotient true 3 1) = true ∧
      Score.power ⟨0, [Level.saturate (-2)], [Level.saturate 2]⟩ (.int (-3)) =
        .ok ⟨Level.greatest, [Level.saturate (-1)], [0]⟩ := by
  have hpos : Value.equalsReal 35 (Binary64.roundQuotient false 35 1) = true := by decide +kernel
  have hneg : Value.equalsReal (-3) (Binary64.roundQuotient true 3 1) = true := by
    decide +kernel
  have h35 := (power_integer ⟨0, [Level.least], [Level.greatest]⟩ hpos).1 (by decide)
  refine ⟨hpos, h35.trans (congrArg Except.ok (by decide)), hneg, ?_⟩
  obtain ⟨f, hf, hzero, hfloor⟩ :=
    (power_integer ⟨0, [Level.saturate (-2)], [Level.saturate 2]⟩ hneg).2 (by decide)
  have hlow : f (Level.saturate (-2)) = Level.saturate (-1) := by
    ext
    rw [hfloor _ (by decide) (by decide +kernel)]
    decide +kernel
  have hhigh : f (Level.saturate 2) = 0 := by
    ext
    rw [hfloor _ (by decide) (by decide +kernel)]
    decide +kernel
  rw [hf, map, List.map_singleton, List.map_singleton, hzero, hlow, hhigh]

/-! ## Scaling by positive numbers -/

/-- **Scores in the same state**: equally assigned, equally feasible, and broken on the same hard
levels. -/
structure SameState (s t : Score) : Prop where
  initialized : t.isInitialized = s.isInitialized
  feasible : t.isFeasible = s.isFeasible
  broken : (Diagnostics.ofScore t).brokenHardLevels = (Diagnostics.ofScore s).brokenHardLevels

/-- What keeps the sign of every level keeps the state. -/
theorem sameState_map {f : Level → Level} (hf : ∀ a, (f a).SameSign a) (s : Score) :
    SameState s (s.map f) := by
  have hnn : ∀ a, decide (0 ≤ (f a).val) = decide (0 ≤ a.val) := by
    intro a
    rw [decide_eq_decide, ← Int.not_lt, ← Int.not_lt]
    exact not_congr (hf a)
  have hinit : (s.map f).isInitialized = s.isInitialized := hnn s.init
  refine ⟨hinit, ?_, ?_⟩
  · rw [isFeasible, isFeasible, hinit]
    change (s.isInitialized && (s.hard.map f).all (0 ≤ ·.val)) = _
    rw [List.all_map]
    simp only [Function.comp_def, hnn]
  · change Diagnostics.negativeFrom 0 (s.hard.map f) = Diagnostics.negativeFrom 0 s.hard
    generalize 0 = index
    induction s.hard generalizing index with
    | nil => rfl
    | cons a rest ih =>
      have hif : (f a).val < 0 ↔ a.val < 0 := hf a
      simp only [List.map_cons, Diagnostics.negativeFrom, hif, ih]

/-- **A positive number keeps the state** of a score, as a factor and, if it is finite, as a
divisor. So does the divisor zero. -/
theorem scale_positive_sameState (s : Score) :
    (∀ f : Binary64, f.Positive →
        ∃ t, s.multiply (.real f) = .ok t ∧ SameState s t) ∧
      ∀ d : Magnitude, ∃ t, s.divide (.real (.finite false d)) = .ok t ∧ SameState s t := by
  constructor
  · intro f hf
    exact ⟨_, multiply_eq s (Value.toReal_real f),
      sameState_map (fun a => Binary64.sameSign_floorLevel_mul a hf) s⟩
  · intro d
    exact ⟨_, divide_eq s (Value.toReal_real _),
      sameState_map (fun a => Binary64.sameSign_floorLevel_div a d) s⟩

/-- The least positive number does not make a broken level zero. -/
theorem scale_least_positive :
    (Binary64.finite false ⟨1, 0, by decide⟩).Positive ∧
      ∃ t, Score.multiply ⟨0, [Level.saturate (-1)], []⟩
        (.real (.finite false ⟨1, 0, by decide⟩)) = .ok t ∧ t.isFeasible = false := by
  have hf : (Binary64.finite false ⟨1, 0, by decide⟩).Positive := ⟨rfl, by decide⟩
  obtain ⟨t, ht, hstate⟩ :=
    (scale_positive_sameState ⟨0, [Level.saturate (-1)], []⟩).1 _ hf
  exact ⟨hf, t, ht, hstate.feasible.trans (by decide)⟩

end Score

end Bendable
