import Bendable.Proofs.Score.Shape
import Bendable.Score.Operator

/-!
# The guard of the operations on two scores

Sums, differences, comparisons and the operators for them pair off levels by their places, and
pairing off stops at the end of the shorter group without a word. One rule stands in front of all
of them: two operands are compatible if they are scores with as many hard and as many soft levels.
The rule treats its operands alike. What it refuses is refused with one error, which carries the
shapes in the order of the operands, and whose message names the counts that differ, those of the
hard levels first.

## Main definitions

* `Group.countClash g s t`: the message about two scores with different counts in a group
* `ShapeError.Blames e s t`: the error `e` is about the scores `s` and `t`
* `Guarded f`: the rule guards the operation `f`

## Main results

* `Operand.isCompatible_comm`, `Operand.isCompatible_iff`: the rule
* `Guarded.bind_ok`: what is made of the result of a guarded operation is guarded
* `Operand.isCompatible_guards`: the rule guards every operation on two scores
-/

namespace Bendable

/-! ## The rule -/

namespace Operand

theorem isCompatible_comm (a b : Operand) : a.isCompatible b = b.isCompatible a := by
  unfold isCompatible
  by_cases h : a.shape = b.shape
  · rw [h]
  · have hab : (a.shape == b.shape) = false := beq_eq_false_iff_ne.mpr h
    have hba : (b.shape == a.shape) = false := beq_eq_false_iff_ne.mpr (Ne.symm h)
    rw [hab, hba, Bool.and_false, Bool.and_false]

/-- **Compatible operands** are scores with equal hard counts and equal soft counts. -/
theorem isCompatible_iff {a b : Operand} :
    a.isCompatible b = true ↔ ∃ s t, a = .score s ∧ b = .score t ∧
      s.hard.length = t.hard.length ∧ s.soft.length = t.soft.length := by
  constructor
  · intro h
    cases a with
    | value v => cases h
    | score s =>
      cases b with
      | value v => cases h
      | score t =>
        rw [Score.isCompatible_eq, decide_eq_true_eq] at h
        obtain ⟨hh, hs⟩ := Prod.mk.inj h
        exact ⟨s, t, rfl, rfl, hh, hs⟩
  · rintro ⟨s, t, rfl, rfl, hh, hs⟩
    rw [Score.isCompatible_eq, decide_eq_true_eq]
    exact Prod.ext hh hs

/-- The check lets exactly the compatible operands through. -/
theorem validate_eq_ok_iff {a b : Operand} : a.validate b = .ok () ↔ a.isCompatible b = true := by
  unfold validate
  by_cases h : a.isCompatible b = true
  · rw [if_pos h]
    exact iff_of_true rfl h
  · rw [if_neg h]
    exact iff_of_false (fun h' => by cases h') h

end Operand

/-! ## The error -/

/-- **The message about two scores with different counts** of a group of levels. -/
def Group.countClash (g : Group) (s t : Score) : String :=
  "The score (" ++ toString s ++ ") with " ++ g.countName ++ " (" ++
    intText (s.group g).length ++ ") is not compatible with the other score (" ++ toString t ++
    ") with " ++ g.countName ++ " (" ++ intText (t.group g).length ++ ")"

/-- **A shape error about two scores**: it carries their shapes in order, and its message names
the hard counts if they differ, and otherwise the soft counts. -/
structure ShapeError.Blames (e : ShapeError) (s t : Score) : Prop where
  left : e.left.shape = some (s.hard.length, s.soft.length)
  right : e.right.shape = some (t.hard.length, t.soft.length)
  hard : s.hard.length ≠ t.hard.length → e.message = Group.hard.countClash s t
  soft : s.hard.length = t.hard.length → e.message = Group.soft.countClash s t

theorem ShapeError.blames (s t : Score) : Blames ⟨.score s, .score t⟩ s t where
  left := rfl
  right := rfl
  hard := fun h => if_neg h
  soft := fun h => if_pos h

/-! ## Guarded operations -/

/-- **A guarded operation** on two scores succeeds on compatible ones. On all others it raises the
shape error about its operands, and with the operands swapped the error that carries the shapes
the other way round. -/
structure Guarded {α : Type} (f : Score → Score → Except Fault α) : Prop where
  ok : ∀ s t, (Operand.score s).isCompatible (.score t) = true → ∃ a, f s t = .ok a
  refused : ∀ s t, (Operand.score s).isCompatible (.score t) = false →
    ∃ e e', f s t = .error (.score (.shape e)) ∧ e.Blames s t ∧
      f t s = .error (.score (.shape e')) ∧ e'.Blames t s ∧
      e'.left.shape = e.right.shape ∧ e'.right.shape = e.left.shape

namespace Guarded

variable {α β : Type} {f : Score → Score → Except Fault α}

/-- An operation is guarded if its whole result hangs on the comparison of the shapes. -/
theorem of_eq {g : Score → Score → α}
    (h : ∀ s t, f s t = if s.shape = t.shape then .ok (g s t)
      else .error (.score (.shape ⟨.score s, .score t⟩))) : Guarded f where
  ok := by
    intro s t hc
    rw [Score.isCompatible_eq, decide_eq_true_eq] at hc
    exact ⟨g s t, (h s t).trans (if_pos hc)⟩
  refused := by
    intro s t hc
    rw [Score.isCompatible_eq, decide_eq_false_iff_not] at hc
    exact ⟨_, _, (h s t).trans (if_neg hc), ShapeError.blames s t,
      (h t s).trans (if_neg (Ne.symm hc)), ShapeError.blames t s, rfl, rfl⟩

/-- What is made of the result of a guarded operation is guarded by the same check. -/
theorem bind_ok (hf : Guarded f) (g : α → β) : Guarded fun s t => f s t >>= fun a => .ok (g a) where
  ok := by
    intro s t hc
    obtain ⟨a, ha⟩ := hf.ok s t hc
    refine ⟨g a, ?_⟩
    rw [ha]
    rfl
  refused := by
    intro s t hc
    obtain ⟨e, e', he, hb, he', hb', hl, hr⟩ := hf.refused s t hc
    refine ⟨e, e', ?_, hb, ?_, hb', hl, hr⟩
    · rw [he]
      rfl
    · rw [he']
      rfl

end Guarded

namespace Score

theorem guarded_validate : Guarded validate := by
  refine .of_eq (g := fun _ _ => ()) fun s t => ?_
  rw [← validate_bind]
  cases s.validate t <;> rfl

theorem guarded_add : Guarded add := .of_eq add_eq

theorem guarded_subtract : Guarded subtract := .of_eq subtract_eq

theorem guarded_compare : Guarded compare := .of_eq compare_eq

end Score

namespace Operand

/-- The operators that take two scores of one shape. -/
def guardedOperators : List Operator := [.add, .subtract, .lt, .le, .gt, .ge]

/-- An operator hands its operands on to the operation that it stands for. -/
theorem guarded_apply {op : Operator} (h : op ∈ guardedOperators) :
    Guarded fun s t => apply op (.score s) (.score t) := by
  simp only [guardedOperators, List.mem_cons, List.not_mem_nil, or_false] at h
  rcases h with rfl | rfl | rfl | rfl | rfl | rfl
  · exact Score.guarded_add.bind_ok Result.score
  · exact Score.guarded_subtract.bind_ok Result.score
  · exact Score.guarded_compare.bind_ok fun o => Result.truth o.isLT
  · exact Score.guarded_compare.bind_ok fun o => Result.truth o.isLE
  · exact Score.guarded_compare.bind_ok fun o => Result.truth o.isGT
  · exact Score.guarded_compare.bind_ok fun o => Result.truth o.isGE

/-- **One rule guards every operation on two scores.** It treats its operands alike, lets through
exactly scores with equal hard counts and equal soft counts, and is what the check decides by. The
check itself, sums, differences, comparisons and the operators for them all stand behind it. -/
theorem isCompatible_guards (a b : Operand) :
    (a.isCompatible b = b.isCompatible a ∧
      (a.isCompatible b = true ↔ ∃ s t, a = .score s ∧ b = .score t ∧
        s.hard.length = t.hard.length ∧ s.soft.length = t.soft.length) ∧
      (a.isCompatible b = true ↔ a.validate b = .ok ())) ∧
    Guarded Score.validate ∧ Guarded Score.add ∧ Guarded Score.subtract ∧ Guarded Score.compare ∧
      ∀ op ∈ guardedOperators, Guarded fun s t => apply op (.score s) (.score t) := by
  refine ⟨⟨isCompatible_comm a b, isCompatible_iff, validate_eq_ok_iff.symm⟩, ?_⟩
  exact ⟨Score.guarded_validate, Score.guarded_add, Score.guarded_subtract, Score.guarded_compare,
    fun op h => guarded_apply h⟩

/-- A value is compatible with no score. Scores that differ in their soft counts only are refused
by `<`, and the message names the soft counts. -/
theorem isCompatible_guards_soft :
    let s : Score := ⟨0, [Level.wrap 4], [Level.wrap (-7)]⟩
    let t : Score := ⟨Level.wrap (-1), [Level.wrap 4], [0, Level.wrap 9]⟩
    Operand.isCompatible (.value (.int 4)) (.score s) = false ∧ Operator.lt ∈ guardedOperators ∧
      ∃ e, apply .lt (.score s) (.score t) = .error (.score (.shape e)) ∧
        e.left.shape = some (1, 1) ∧ e.right.shape = some (1, 2) ∧
        e.message = "The score ([4]hard/[-7]soft) with soft_levels_count (1) is not compatible " ++
          "with the other score (-1init[4]hard/[0/9]soft) with soft_levels_count (2)" := by
  intro s t
  have h := isCompatible_guards (.value (.int 4)) (.score s)
  have hmem : Operator.lt ∈ guardedOperators := by decide
  obtain ⟨e, _, he, hb, -⟩ := (h.2.2.2.2.2 .lt hmem).refused s t (by decide)
  refine ⟨h.1.1.trans rfl, hmem, e, he, hb.left, hb.right, (hb.soft rfl).trans ?_⟩
  decide +kernel

end Operand

end Bendable
