import Bendable.Proofs.Binary64.Monotone
import Bendable.Proofs.Score.Group
import Bendable.Proofs.Score.Scale

/-!
# Factors and divisors

What holds of single levels under a factor or a divisor holds of a score in each of its places. A
score that is at most another one in every place stays so under a number whose sign is clear, and
comes to be at least the other under one whose sign is set. The special operands make a score of
extremes, of zeros or of ones, and products and quotients answer to each other there: a zero divides
as the infinity of its sign multiplies.

## Main definitions

* `Score.Levelwise R s t`: `R` relates the levels of `s` and `t` in each place
* `Score.LevelwiseLE s t`: every level of `s` is at most the level of `t` in its place

## Main results

* `Score.scale_monotone`: products and quotients by a number that is no NaN
* `Score.scale_special`: infinities, zeros and NaNs as factors, divisors and exponents
-/

namespace Bendable.Score

/-! ## Scores place by place -/

/-- **Scores related place by place**: they have one shape, and the relation holds of the init scores
and of the levels in each place. -/
structure Levelwise (R : Level → Level → Prop) (s t : Score) : Prop where
  init : R s.init t.init
  hard : List.Forall₂ R s.hard t.hard
  soft : List.Forall₂ R s.soft t.soft

/-- **A score that is at most another one** in every place. -/
def LevelwiseLE (s t : Score) : Prop := Levelwise (fun a b => a.val ≤ b.val) s t

namespace Levelwise

variable {R R' : Level → Level → Prop} {s t : Score}

theorem flip (h : Levelwise R s t) : Levelwise (fun a b => R b a) t s where
  init := h.init
  hard := h.hard.flip
  soft := h.soft.flip

/-- A relation between levels that a function respects. -/
theorem map {f : Level → Level} (h : Levelwise R s t) (hf : ∀ a b, R a b → R' (f a) (f b)) :
    Levelwise R' (s.map f) (t.map f) where
  init := hf _ _ h.init
  hard := List.forall₂_map_left_iff.mpr (List.forall₂_map_right_iff.mpr (h.hard.imp hf))
  soft := List.forall₂_map_left_iff.mpr (List.forall₂_map_right_iff.mpr (h.soft.imp hf))

end Levelwise

/-! ## Order -/

/-- **Scaling is monotone place by place.** Products and quotients by a number keep the order of two
scores if the sign of the number is clear, and turn it around if the sign is set. The number may be
an infinity or a zero, but no NaN. -/
theorem scale_monotone {s t : Score} (h : s.LevelwiseLE t) {f : Binary64} (hf : f ≠ .nan) :
    ∃ ms mt ds dt, s.multiply (.real f) = .ok ms ∧ t.multiply (.real f) = .ok mt ∧
      s.divide (.real f) = .ok ds ∧ t.divide (.real f) = .ok dt ∧
        (f.isNegative = false → ms.LevelwiseLE mt ∧ ds.LevelwiseLE dt) ∧
          (f.isNegative = true → mt.LevelwiseLE ms ∧ dt.LevelwiseLE ds) := by
  have hv := Value.toReal_real f
  refine ⟨_, _, _, _, multiply_eq s hv, multiply_eq t hv, divide_eq s hv, divide_eq t hv, ?_⟩
  have hm := h.map fun a b hab => Binary64.ordered_floorLevel_mul hf hab
  have hd := h.map fun a b hab => Binary64.ordered_floorLevel_div hf hab
  constructor
  · intro hs
    rw [hs] at hm hd
    exact ⟨hm, hd⟩
  · intro hs
    rw [hs] at hm hd
    exact ⟨hm.flip, hd.flip⟩

/-- The negative zero is no number below zero, but as a divisor it turns the order around. -/
theorem scale_monotone_negative_zero :
    let s : Score := ⟨Level.saturate (-1), [Level.least, 0], [Level.saturate 3]⟩
    let t : Score := ⟨0, [Level.saturate (-7), Level.one], [Level.greatest]⟩
    let f := Binary64.zero true
    s.LevelwiseLE t ∧ f ≠ .nan ∧ f.isNegative = true ∧
      ∃ ds dt, s.divide (.real f) = .ok ds ∧ t.divide (.real f) = .ok dt ∧ dt.LevelwiseLE ds := by
  intro s t f
  have hst : s.LevelwiseLE t :=
    ⟨by decide, .cons (by decide) (.cons (by decide) .nil), .cons (by decide) .nil⟩
  have hf : f ≠ .nan := by
    show Binary64.finite true 0 ≠ .nan
    nofun
  obtain ⟨_, _, ds, dt, -, -, hds, hdt, -, hneg⟩ := scale_monotone hst hf
  exact ⟨hst, hf, rfl, ds, dt, hds, hdt, (hneg rfl).2⟩

/-! ## Special operands -/

section Special

variable (s : Score)

theorem map_zero : (s.map fun _ => 0) = zero s.hard.length s.soft.length := by
  simp only [map, zero, List.map_const']

/-- A product whose levels are known. -/
theorem multiply_of_levels {f : Binary64} {g : Level → Level}
    (h : ∀ a, ((Binary64.ofLevel a).mul f).floorLevel = g a) :
    s.multiply (.real f) = .ok (s.map g) := by
  rw [multiply_eq s (Value.toReal_real f), funext h]

theorem divide_of_levels {f : Binary64} {g : Level → Level}
    (h : ∀ a, ((Binary64.ofLevel a).div f).floorLevel = g a) :
    s.divide (.real f) = .ok (s.map g) := by
  rw [divide_eq s (Value.toReal_real f), funext h]

theorem power_of_levels {f : Binary64} {g : Level → Level}
    (h : ∀ a : Level, (Binary64.power a.val f).floorLevel = g a) :
    s.power (.real f) = .ok (s.map g) := by
  rw [power_eq s (Value.toReal_real f), funext h]

/-- **Special operands.** An infinity multiplies as the zero of its sign divides: each level becomes
its extreme. The other products and quotients by infinities, zeros and NaNs are the zero score of the
shape. To the power of a NaN one stays one and all else becomes zero, and to the power of a zero
everything becomes one. -/
theorem scale_special :
    (∀ negative, s.multiply (.real (.infinite negative)) = .ok (s.map (Level.extreme negative)) ∧
      s.divide (.real (Binary64.zero negative)) = .ok (s.map (Level.extreme negative))) ∧
    (∀ negative,
      s.divide (.real (.infinite negative)) = .ok (zero s.hard.length s.soft.length) ∧
        s.multiply (.real (Binary64.zero negative)) =
          .ok (zero s.hard.length s.soft.length)) ∧
    (s.multiply (.real .nan) = .ok (zero s.hard.length s.soft.length) ∧
      s.divide (.real .nan) = .ok (zero s.hard.length s.soft.length)) ∧
    s.power (.real .nan) = .ok (s.map fun a => if a.val = 1 then Level.one else 0) ∧
    (∀ negative, s.power (.real (Binary64.zero negative)) = .ok (s.map fun _ => Level.one)) ∧
    (s.hard.length ≤ maxLength → s.soft.length ≤ maxLength →
      zeroOf (.int s.hard.length) (.int s.soft.length) =
        .ok (zero s.hard.length s.soft.length)) := by
  rw [← s.map_zero]
  refine ⟨fun negative => ⟨?_, ?_⟩, fun negative => ⟨?_, ?_⟩, ⟨?_, ?_⟩, ?_, fun negative => ?_, ?_⟩
  · exact s.multiply_of_levels fun a => Binary64.floorLevel_mul_infinite a negative
  · exact s.divide_of_levels fun a => Binary64.floorLevel_div_zero a negative rfl
  · exact s.divide_of_levels fun a => Binary64.floorLevel_div_infinite a negative
  · exact s.multiply_of_levels fun a => Binary64.floorLevel_mul_zero a negative rfl
  · exact s.multiply_of_levels Binary64.floorLevel_mul_nan
  · exact s.divide_of_levels Binary64.floorLevel_div_nan
  · exact s.power_of_levels Binary64.floorLevel_power_nan
  · exact s.power_of_levels fun a => Binary64.floorLevel_power_zero a negative rfl
  · intro hh hs
    rw [s.map_zero]
    exact zeroOf_shape hh hs

end Special

end Bendable.Score
