import Mathlib.Data.Int.ModEq
import Mathlib.Tactic.Ring
import Bendable.Proofs.Level.Narrow

/-!
# Wrapping to the residue

The level range holds as many integers as the modulus `4294967296` says, so of the integers that are
congruent to a given one exactly one lies in the range. Wrapping finds it, on both sides of zero and
at any distance: the remainder in its formula is never negative, and the two offsets cancel. That
makes wrapping a question of congruence alone. Two integers wrap to the same level exactly if they
are congruent, and since congruences can be added, subtracted and negated, it makes no difference
whether an integer was wrapped before.

## Main definitions

* `Level.IsResidue n k`: the integer `k` lies in the range and is congruent to `n`

## Main results

* `Level.isResidue_iff`: the wrapped integer is the only residue
* `Level.wrap_eq_wrap_iff`: what wraps to the same level
* `Level.wrap_canonical_residue`: wrapping is the canonical residue, and the laws that follow
-/

namespace Bendable.Level

/-- **A residue of `n`**: an integer in the range that is congruent to it modulo the 32nd power of
two. -/
structure IsResidue (n k : Int) : Prop where
  inRange : InRange k
  modEq : k ≡ n [ZMOD 4294967296]

/-! ## The residue -/

/-- The remainder is congruent to what it is taken of, and the offsets cancel. -/
theorem wrapped_modEq (n : Int) : wrapped n ≡ n [ZMOD 4294967296] :=
  calc (n - -2147483648) % 4294967296 + -2147483648
      ≡ n - -2147483648 + -2147483648 [ZMOD 4294967296] := (Int.mod_modEq _ _).add_right _
    _ = n := by ring

theorem wrap_modEq (n : Int) : (wrap n).val ≡ n [ZMOD 4294967296] := by
  rw [val_wrap_eq]
  exact wrapped_modEq n

/-- **Congruent integers in the range are equal**: their difference is a multiple of the modulus,
and the range is too short for another one than zero. -/
theorem eq_of_modEq {k m : Int} (hk : InRange k) (hm : InRange m)
    (h : k ≡ m [ZMOD 4294967296]) : k = m := by
  have hdvd : (4294967296 : Int) ∣ m - k := h.dvd
  obtain ⟨hk₀, hk₁⟩ := hk
  obtain ⟨hm₀, hm₁⟩ := hm
  omega

/-- **The wrapped integer is the only residue.** -/
theorem isResidue_iff {n k : Int} : IsResidue n k ↔ k = (wrap n).val := by
  constructor
  · intro h
    exact eq_of_modEq h.inRange (wrap n).inRange (h.modEq.trans (wrap_modEq n).symm)
  · rintro rfl
    exact ⟨(wrap n).inRange, wrap_modEq n⟩

/-! ## Congruence -/

/-- **Integers wrap to the same level exactly if they are congruent.** -/
theorem wrap_eq_wrap_iff {m n : Int} : wrap m = wrap n ↔ m ≡ n [ZMOD 4294967296] := by
  constructor
  · intro h
    have hm : (wrap n).val ≡ m [ZMOD 4294967296] := h ▸ wrap_modEq m
    exact hm.symm.trans (wrap_modEq n)
  · intro h
    have hres : IsResidue n (wrap m).val := ⟨(wrap m).inRange, (wrap_modEq m).trans h⟩
    exact ext (isResidue_iff.mp hres)

theorem wrap_val_add_val (m n : Int) : wrap ((wrap m).val + (wrap n).val) = wrap (m + n) :=
  wrap_eq_wrap_iff.mpr ((wrap_modEq m).add (wrap_modEq n))

theorem wrap_val_sub_val (m n : Int) : wrap ((wrap m).val - (wrap n).val) = wrap (m - n) :=
  wrap_eq_wrap_iff.mpr ((wrap_modEq m).sub (wrap_modEq n))

theorem wrap_neg_val (n : Int) : wrap (-(wrap n).val) = wrap (-n) :=
  wrap_eq_wrap_iff.mpr (wrap_modEq n).neg

/-- **Wrapping is the canonical residue**, for all integers. The remainder between two offsets that
wrapping computes is the one integer in the range that is congruent to the given one. So an integer
in the range stays, wrapping twice is wrapping once, and integers may be wrapped before they are
added, subtracted or negated. -/
theorem wrap_canonical_residue (v w : Int) :
    (wrap v).val = wrapped v ∧ (∀ k, IsResidue v k ↔ k = (wrap v).val) ∧
      (InRange v → (wrap v).val = v) ∧ wrap (wrap v).val = wrap v ∧
        wrap ((wrap v).val + (wrap w).val) = wrap (v + w) ∧
          wrap ((wrap v).val - (wrap w).val) = wrap (v - w) ∧
            wrap (-(wrap v).val) = wrap (-v) := by
  refine ⟨val_wrap_eq v, fun k => isResidue_iff, ?_, wrap_val (wrap v), wrap_val_add_val v w,
    wrap_val_sub_val v w, wrap_neg_val v⟩
  intro hv
  -- An integer in the range is a residue of itself.
  have hres : IsResidue v v := ⟨hv, Int.ModEq.refl v⟩
  exact (isResidue_iff.mp hres).symm

/-- The least level is its own residue and its own negative, and one less is the greatest. -/
theorem wrap_canonical_residue_least :
    InRange (-2147483648) ∧ (wrap (-2147483648)).val = -2147483648 ∧
      (∀ k, IsResidue (-2147483648) k → k = -2147483648) ∧
        wrap ((wrap (-2147483648)).val - (wrap 1).val) = greatest ∧
          wrap (-(wrap (-2147483648)).val) = least := by
  have hr : InRange (-2147483648) := by decide
  obtain ⟨-, hres, hstay, -, -, hsub, hneg⟩ := wrap_canonical_residue (-2147483648) 1
  refine ⟨hr, hstay hr, ?_, hsub.trans (by decide), hneg.trans (by decide)⟩
  intro k hk
  exact ((hres k).mp hk).trans (hstay hr)

end Bendable.Level
