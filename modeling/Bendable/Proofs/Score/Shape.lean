import Bendable.Proofs.Refusal
import Bendable.Score.Order

/-!
# Scores of one shape

Two scores combine only if they have the same numbers of hard and of soft levels. Otherwise the
sum, the difference and the comparison are refused with the one shape error that names both.

## Main definitions

* `Fault.IsShapeError f`: the fault `f` is a shape error
* `RefusedByShape x`: the run `x` refuses with one

## Main results

* `Score.validate_bind`: the check of two scores, and what it guards
* `Score.add_eq`, `Score.subtract_eq`, `Score.compare_eq`: sums, differences and comparisons
-/

namespace Bendable

/-- **A shape error.** -/
def Fault.IsShapeError (f : Fault) : Prop := ∃ e, f = .score (.shape e)

/-- **A run that refuses with a shape error.** -/
def RefusedByShape {α : Type} (x : Except Fault α) : Prop := ∃ f, x = .error f ∧ f.IsShapeError

namespace Score

theorem isCompatible_eq (s t : Score) :
    (Operand.score s).isCompatible (.score t) = decide (s.shape = t.shape) := by
  rw [Bool.eq_iff_iff]
  simp [Operand.isCompatible, Operand.shape]

/-- **The check of two scores** lets a run through exactly if their shapes are equal. -/
theorem validate_bind {α : Type} (s t : Score) (x : Except Fault α) :
    (s.validate t >>= fun _ => x) =
      if s.shape = t.shape then x else .error (.score (.shape ⟨.score s, .score t⟩)) := by
  simp only [validate, Operand.validate, isCompatible_eq, decide_eq_true_eq]
  split <;> rfl

/-- The check of two scores refuses with a shape error only. -/
theorem refusesWith_validate (s t : Score) : RefusesWith Fault.IsShapeError (s.validate t) := by
  unfold validate Operand.validate
  split
  · exact .ok ()
  · exact .error ⟨_, rfl⟩

theorem add_eq (s t : Score) :
    s.add t = if s.shape = t.shape then .ok (zipWith Level.add s t)
      else .error (.score (.shape ⟨.score s, .score t⟩)) :=
  validate_bind s t _

theorem subtract_eq (s t : Score) :
    s.subtract t = if s.shape = t.shape then .ok (zipWith Level.subtract s t)
      else .error (.score (.shape ⟨.score s, .score t⟩)) :=
  validate_bind s t _

theorem compare_eq (s t : Score) :
    s.compare t = if s.shape = t.shape then .ok (s.order t)
      else .error (.score (.shape ⟨.score s, .score t⟩)) :=
  validate_bind s t _

theorem add_refusedByShape_iff (s t : Score) : RefusedByShape (s.add t) ↔ s.shape ≠ t.shape := by
  rw [add_eq]
  by_cases h : s.shape = t.shape
  · simp [RefusedByShape, h]
  · simp only [ne_eq, h, not_false_iff, iff_true]
    exact ⟨_, rfl, _, rfl⟩

end Score

end Bendable
