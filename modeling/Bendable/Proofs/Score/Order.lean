import Mathlib.Data.List.Basic
import Bendable.Proofs.Score.Shape
import Bendable.Score.Operator

/-!
# The order of scores

Scores of one shape are compared in three stages: the init scores, the hard levels and the soft
levels, each up to the first difference. Lists of one length are compared as their concatenations
are, so the stages together are one lexicographic comparison of the sequence of all numbers, and
the laws of a total order are those of lists of integers.

## Main definitions

* `Score.numbers s`: the init score and the levels of `s` in order of priority
* `Operator.Decides op s t b`: between the scores `s` and `t` the operator `op` has the truth `b`
* `Score.Ordered s t o`: comparison and operators all place `s` and `t` in the order `o`

## Main results

* `Score.order_eq`: the order of scores is the lexicographic order of their numbers
* `Score.numbers_inj`: scores of one shape have the same numbers only if they are the same
* `Score.compare_totalOrder`: scores of one shape are totally ordered
-/

namespace Bendable

/-- **The truth of an operator between two scores.** -/
def Operator.Decides (op : Operator) (s t : Score) (b : Bool) : Prop :=
  Operand.apply op (.score s) (.score t) = .ok (.truth b)

/-- An operator has one truth between two scores. -/
theorem Operator.Decides.iff {op : Operator} {s t : Score} {b : Bool} (h : op.Decides s t b)
    (b' : Bool) : op.Decides s t b' ↔ b = b' := by
  rw [Operator.Decides] at h ⊢
  simp [h]

namespace Score

/-- **The numbers of a score** in order of priority: the init score, the hard and the soft
levels. -/
def numbers (s : Score) : List Int := (s.init :: s.levels).map Level.val

/-! ## One lexicographic comparison -/

/-- Two stages are one comparison of the concatenated lists. -/
theorem orderLevels_append {as bs : List Level} (h : as.length = bs.length)
    (as' bs' : List Level) :
    (orderLevels as bs).then (orderLevels as' bs') = orderLevels (as ++ as') (bs ++ bs') := by
  -- Induction on the first stage: either its heads decide, or they are equal and drop out.
  induction as generalizing bs with
  | nil =>
    obtain rfl := List.length_eq_zero_iff.mp h.symm
    rfl
  | cons a as ih =>
    cases bs with
    | nil => cases h
    | cons b bs =>
      simp only [List.cons_append, orderLevels]
      by_cases hab : a = b
      · rw [if_pos hab, if_pos hab]
        exact ih (Nat.succ.inj h)
      · rw [if_neg hab, if_neg hab]
        split <;> rfl

/-- Lists of levels of one length are ordered as the lists of their values. -/
theorem orderLevels_eq {as bs : List Level} (h : as.length = bs.length) :
    orderLevels as bs = List.compareLex Ord.compare (as.map Level.val) (bs.map Level.val) := by
  induction as generalizing bs with
  | nil =>
    obtain rfl := List.length_eq_zero_iff.mp h.symm
    rfl
  | cons a as ih =>
    cases bs with
    | nil => cases h
    | cons b bs =>
      rw [orderLevels, List.map_cons, List.map_cons, List.compareLex_cons_cons]
      by_cases hab : a = b
      · rw [if_pos hab, hab, Int.compare_eq_eq.mpr rfl, ih (Nat.succ.inj h)]
        rfl
      · rw [if_neg hab]
        have hne : a.val ≠ b.val := fun hv => hab (Level.ext hv)
        split
        · rename_i hlt
          rw [Int.compare_eq_lt.mpr hlt]
          rfl
        · rename_i hlt
          rw [Int.compare_eq_gt.mpr (by omega)]
          rfl

variable {s t u : Score}

/-- **The order of scores is lexicographic**: the first of all numbers that differs decides. -/
theorem order_eq (h : s.shape = t.shape) :
    s.order t = List.compareLex Ord.compare s.numbers t.numbers := by
  obtain ⟨hh, hs⟩ := Prod.mk.inj h
  calc s.order t
      = (orderLevels [s.init] [t.init]).then (orderLevels s.levels t.levels) := by
        rw [order, orderLevels_append hh]
        rfl
    _ = orderLevels ([s.init] ++ s.levels) ([t.init] ++ t.levels) :=
        @orderLevels_append [s.init] [t.init] rfl _ _
    _ = List.compareLex Ord.compare s.numbers t.numbers :=
        orderLevels_eq (by simp [levels, hh, hs])

/-- Scores of one shape have the same numbers only if they are the same. -/
theorem numbers_inj (h : s.shape = t.shape) : s.numbers = t.numbers ↔ s = t := by
  refine ⟨fun hn => ?_, congrArg numbers⟩
  have hv : Function.Injective Level.val := fun _ _ => Level.ext
  obtain ⟨hi, hl⟩ := List.cons.inj (List.map_injective_iff.mpr hv hn)
  obtain ⟨hh, hs⟩ := List.append_inj hl (Prod.mk.inj h).1
  cases s
  cases t
  simp_all

/-! ## The laws of a total order -/

theorem compare_of_shape_eq (h : s.shape = t.shape) :
    s.compare t = .ok (List.compareLex Ord.compare s.numbers t.numbers) := by
  rw [compare_eq, if_pos h, order_eq h]

/-- A comparison operator tests the order. -/
theorem compareBy_eq {o : Ordering} (h : s.compare t = .ok o) (test : Ordering → Bool) :
    Operand.compareBy test s t = .ok (.truth (test o)) := by
  rw [Operand.compareBy, h]
  rfl

/-- **Two scores in an order**: the comparison gives it, and gives the opposite one if the scores
change places; the operators test it; and exactly one of `<`, `==` and `>` is true. -/
structure Ordered (s t : Score) (o : Ordering) : Prop where
  compare : s.compare t = .ok o
  swap : t.compare s = .ok o.swap
  lt : Operator.lt.Decides s t o.isLT
  le : Operator.le.Decides s t o.isLE
  gt : Operator.gt.Decides s t o.isGT
  ge : Operator.ge.Decides s t o.isGE
  eq : Operator.eq.Decides s t o.isEq
  ne : Operator.ne.Decides s t o.isNe
  trichotomy : ∃ x y z, Operator.lt.Decides s t x ∧ Operator.eq.Decides s t y ∧
    Operator.gt.Decides s t z ∧ [x, y, z].count true = 1

/-- Equality is equality in order. -/
theorem beq_eq_isEq (h : s.shape = t.shape) :
    (s == t) = (List.compareLex Ord.compare s.numbers t.numbers).isEq := by
  rw [Bool.eq_iff_iff, beq_iff_eq, Ordering.isEq_iff_eq_eq, Std.LawfulEqCmp.compare_eq_iff_eq,
    numbers_inj h]

/-- Scores of one shape stand in the lexicographic order of their numbers. -/
theorem ordered_of_shape_eq (h : s.shape = t.shape) :
    Ordered s t (List.compareLex Ord.compare s.numbers t.numbers) := by
  have hc := compare_of_shape_eq h
  have heq : Operator.eq.Decides s t (List.compareLex Ord.compare s.numbers t.numbers).isEq :=
    congrArg (Except.ok ∘ Operand.Result.truth) (beq_eq_isEq h)
  refine
    { compare := hc
      swap := ?_
      lt := compareBy_eq hc _
      le := compareBy_eq hc _
      gt := compareBy_eq hc _
      ge := compareBy_eq hc _
      eq := heq
      ne := ?_
      trichotomy := ⟨_, _, _, compareBy_eq hc _, heq, compareBy_eq hc _, ?_⟩ }
  · rw [compare_of_shape_eq h.symm,
      @Std.OrientedCmp.eq_swap _ (List.compareLex Ord.compare) _ t.numbers s.numbers]
  · refine congrArg (Except.ok ∘ Operand.Result.truth) ?_
    rw [bne, beq_eq_isEq h]
    cases List.compareLex Ord.compare s.numbers t.numbers <;> rfl
  · cases List.compareLex Ord.compare s.numbers t.numbers <;> rfl

theorem le_decides_iff (h : s.shape = t.shape) :
    Operator.le.Decides s t true ↔
      (List.compareLex Ord.compare s.numbers t.numbers).isLE = true := by
  rw [(ordered_of_shape_eq h).le.iff]

/-- **Scores of one shape are totally ordered**: they stand in the lexicographic order of their
numbers, and `<=` is transitive. -/
theorem compare_totalOrder (hst : s.shape = t.shape) (htu : t.shape = u.shape) :
    Ordered s t (List.compareLex Ord.compare s.numbers t.numbers) ∧
      (Operator.le.Decides s t true → Operator.le.Decides t u true →
        Operator.le.Decides s u true) := by
  refine ⟨ordered_of_shape_eq hst, fun h h' => ?_⟩
  rw [le_decides_iff hst] at h
  rw [le_decides_iff htu] at h'
  rw [le_decides_iff (hst.trans htu)]
  exact Std.TransCmp.isLE_trans h h'

/-- Three scores in ascending order: the second hard level decides between the first two, and the
soft level between the last two. -/
theorem compare_totalOrder_ascending :
    let s : Score := ⟨0, [Level.wrap 1, Level.least], [Level.greatest]⟩
    let t : Score := ⟨0, [Level.wrap 1, 0], [Level.wrap (-3)]⟩
    let u : Score := ⟨0, [Level.wrap 1, 0], [Level.wrap 5]⟩
    s.shape = t.shape ∧ t.shape = u.shape ∧ Ordered s t .lt ∧ Operator.le.Decides s t true ∧
      Operator.le.Decides t u true ∧ Operator.le.Decides s u true := by
  intro s t u
  have h := @compare_totalOrder s t u rfl rfl
  have hst : Operator.le.Decides s t true := h.1.le
  have htu : Operator.le.Decides t u true := (@ordered_of_shape_eq t u rfl).le
  exact ⟨rfl, rfl, h.1, hst, htu, h.2 hst htu⟩

end Score

end Bendable
