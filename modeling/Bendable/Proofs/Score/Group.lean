import Mathlib.Algebra.Group.Basic
import Bendable.Proofs.Level.Wrap
import Bendable.Proofs.Score.Shape
import Bendable.Score.Build

/-!
# The group of scores of one shape

Scores of one shape are added and negated level by level, so they inherit the group of the levels:
`OfShape hard soft` is an abelian group with the zero score of the shape. The runs that add,
subtract and negate scores compute in that group, and refuse as soon as two shapes differ. Adding
keeps the shape, so it does not matter for the refusal in which order three scores are added.

## Main definitions

* `Score.OfShape hard soft`: the scores with `hard` hard and `soft` soft levels
* `Score.GroupLaws a b c`: the laws of an abelian group for three scores

## Main results

* `AddCommGroup (OfShape hard soft)`: the scores of one shape are an abelian group
* `Score.OfShape.add_score`, `Score.OfShape.subtract_score`: sums and differences are those of the
  group
* `Score.groupLaws_and_refusal`: the laws as runs, and when three scores are not added
-/

namespace Bendable.Score

/-! ## Laws level by level -/

section LevelByLevel

variable {f : Level → Level → Level}

theorem zipWith_comm (h : ∀ a b, f a b = f b a) (s t : Score) :
    zipWith f s t = zipWith f t s := by
  simp only [zipWith, h s.init t.init, List.zipWith_comm_of_comm h]

theorem listZipWith_assoc (h : ∀ a b c, f (f a b) c = f a (f b c)) (as bs cs : List Level) :
    List.zipWith f (List.zipWith f as bs) cs = List.zipWith f as (List.zipWith f bs cs) := by
  -- Induction on the first list; where one of the others ends, both sides end.
  induction as generalizing bs cs with
  | nil => simp
  | cons a as ih =>
    cases bs with
    | nil => simp
    | cons b bs =>
      cases cs with
      | nil => simp
      | cons c cs => simp [h, ih]

theorem zipWith_assoc (h : ∀ a b c, f (f a b) c = f a (f b c)) (s t u : Score) :
    zipWith f (zipWith f s t) u = zipWith f s (zipWith f t u) := by
  simp only [zipWith, h, listZipWith_assoc h]

theorem listZipWith_zero (h : ∀ a, f 0 a = a) (as : List Level) :
    List.zipWith f (List.replicate as.length 0) as = as := by
  induction as with
  | nil => rfl
  | cons a as ih => simp [List.replicate_succ, h, ih]

theorem zipWith_zero (h : ∀ a, f 0 a = a) (s : Score) :
    zipWith f (zero s.hard.length s.soft.length) s = s := by
  simp only [zipWith, zero, h, listZipWith_zero h]

theorem zipWith_map_self {g : Level → Level} (h : ∀ a, f (g a) a = 0) (s : Score) :
    zipWith f (s.map g) s = zero s.hard.length s.soft.length := by
  simp [zipWith, map, zero, h, List.zipWith_map_left, List.zipWith_self, List.map_const']

theorem zipWith_map_right (g : Level → Level) (s t : Score) :
    zipWith f s (t.map g) = zipWith (fun a b => f a (g b)) s t := by
  simp only [zipWith, map, List.zipWith_map_right]

end LevelByLevel

/-! ## The group -/

/-- **The scores of one shape.** -/
@[ext] structure OfShape (hard soft : Nat) where
  score : Score
  shape_eq : score.shape = (hard, soft)

namespace OfShape

variable {hard soft : Nat}

theorem shape_eq_shape (s t : OfShape hard soft) : s.score.shape = t.score.shape :=
  s.shape_eq.trans t.shape_eq.symm

/-- A combination of two scores of one shape has that shape. -/
def combine (f : Level → Level → Level) (s t : OfShape hard soft) : OfShape hard soft :=
  ⟨zipWith f s.score t.score, (shape_zipWith f (shape_eq_shape s t)).trans s.shape_eq⟩

instance : Zero (OfShape hard soft) := ⟨⟨zero hard soft, shape_zero hard soft⟩⟩

instance : Add (OfShape hard soft) := ⟨combine Level.add⟩

instance : Sub (OfShape hard soft) := ⟨combine Level.subtract⟩

instance : Neg (OfShape hard soft) :=
  ⟨fun s => ⟨s.score.negate, (shape_map Level.negate s.score).trans s.shape_eq⟩⟩

/-- The zero of the group is the zero score with as many levels as any score of the shape. -/
theorem score_zero (s : OfShape hard soft) :
    (0 : OfShape hard soft).score = zero s.score.hard.length s.score.soft.length := by
  obtain ⟨s, hs⟩ := s
  cases hs
  rfl

protected theorem add_assoc (s t u : OfShape hard soft) : s + t + u = s + (t + u) :=
  OfShape.ext (zipWith_assoc Level.add_assoc s.score t.score u.score)

protected theorem zero_add (s : OfShape hard soft) : 0 + s = s := by
  ext1
  change zipWith Level.add (0 : OfShape hard soft).score s.score = s.score
  rw [score_zero s]
  exact zipWith_zero Level.zero_add s.score

protected theorem neg_add_cancel (s : OfShape hard soft) : -s + s = 0 := by
  ext1
  rw [score_zero s]
  exact zipWith_map_self Level.neg_add_cancel s.score

protected theorem add_comm (s t : OfShape hard soft) : s + t = t + s :=
  OfShape.ext (zipWith_comm Level.add_comm s.score t.score)

protected theorem sub_eq_add_neg (s t : OfShape hard soft) : s - t = s + -t := by
  ext1
  change zipWith Level.subtract s.score t.score =
    zipWith Level.add s.score (t.score.map Level.negate)
  rw [zipWith_map_right]
  exact congrArg (zipWith · s.score t.score) (funext₂ Level.sub_eq_add_neg)

/-- **The group of scores of one shape.** -/
instance : AddCommGroup (OfShape hard soft) :=
  { AddGroup.ofLeftAxioms OfShape.add_assoc OfShape.zero_add OfShape.neg_add_cancel with
    sub := Sub.sub
    sub_eq_add_neg := OfShape.sub_eq_add_neg
    add_comm := OfShape.add_comm }

/-! ## Runs in the group -/

/-- Two scores of one shape are added in the group. -/
theorem add_score (s t : OfShape hard soft) : s.score.add t.score = .ok (s + t).score := by
  rw [add_eq, if_pos (shape_eq_shape s t)]
  rfl

theorem subtract_score (s t : OfShape hard soft) :
    s.score.subtract t.score = .ok (s - t).score := by
  rw [subtract_eq, if_pos (shape_eq_shape s t)]
  rfl

theorem negate_score (s : OfShape hard soft) : s.score.negate = (-s).score := rfl

end OfShape

/-- The counts of a score that can be held make the zero score of its shape. -/
theorem zeroOf_shape {s : Score} (hh : s.hard.length ≤ maxLength) (hs : s.soft.length ≤ maxLength) :
    zeroOf (.int s.hard.length) (.int s.soft.length) = .ok (zero s.hard.length s.soft.length) := by
  have hn : ¬((s.hard.length : Int) < 0 ∨ (s.soft.length : Int) < 0) := by omega
  have hm : ¬(maxLength < s.hard.length ∨ maxLength < s.soft.length) := by omega
  simp only [zeroOf, countOfValue, bind, Except.bind, if_neg hn, if_neg hm, Int.toNat_natCast]

/-- **The laws of an abelian group** for three scores: every run succeeds, and the results agree.
The zero score is the one of the shape. -/
structure GroupLaws (a b c : Score) : Prop where
  assoc : ∃ r, (a.add b >>= fun s => s.add c) = .ok r ∧ (b.add c >>= fun s => a.add s) = .ok r
  comm : ∃ r, a.add b = .ok r ∧ b.add a = .ok r
  zero : a.hard.length ≤ maxLength → a.soft.length ≤ maxLength →
    zeroOf (.int a.hard.length) (.int a.soft.length) = .ok (zero a.hard.length a.soft.length)
  zero_add : (Score.zero a.hard.length a.soft.length).add a = .ok a
  add_neg : a.add a.negate = .ok (Score.zero a.hard.length a.soft.length)
  sub_eq : ∃ r, a.subtract b = .ok r ∧ a.add b.negate = .ok r
  add_sub_cancel : (a.add b >>= fun s => s.subtract b) = .ok a
  neg_neg : a.negate.negate = a
  neg_add : ∃ r, a.add b = .ok r ∧ a.negate.add b.negate = .ok r.negate

/-- The laws hold of scores of one shape, because they hold in the group. -/
theorem OfShape.groupLaws {hard soft : Nat} (a b c : OfShape hard soft) :
    GroupLaws a.score b.score c.score where
  assoc := by
    refine ⟨(a + b + c).score, ?_, ?_⟩
    · rw [add_score]
      exact add_score (a + b) c
    · rw [add_score, add_assoc]
      exact add_score a (b + c)
  comm := ⟨(a + b).score, add_score a b, by rw [add_comm, add_score]⟩
  zero := zeroOf_shape
  zero_add := by
    rw [← score_zero a, add_score, zero_add]
  add_neg := by
    rw [negate_score, add_score, add_neg_cancel, score_zero a]
  sub_eq := ⟨(a - b).score, subtract_score a b, by rw [negate_score, add_score, sub_eq_add_neg]⟩
  add_sub_cancel := by
    rw [add_score]
    change (a + b).score.subtract b.score = _
    rw [subtract_score, add_sub_cancel_right]
  neg_neg := by
    rw [negate_score, negate_score, neg_neg]
  neg_add := by
    refine ⟨(a + b).score, add_score a b, ?_⟩
    rw [negate_score, negate_score, negate_score, add_score, neg_add]

/-! ## Refusal -/

/-- A sum of three scores is refused for the shapes of the first two, or else for that of their sum,
which is theirs. -/
theorem add_bind_refusedByShape_iff (s t : Score) (next : Score → Except Fault Score) :
    RefusedByShape (s.add t >>= next) ↔
      (s.shape = t.shape → RefusedByShape (next (zipWith Level.add s t))) := by
  rw [add_eq]
  by_cases h : s.shape = t.shape
  · rw [if_pos h]
    exact ⟨fun hr _ => hr, fun hr => hr h⟩
  · simp only [h, false_implies, iff_true]
    exact ⟨_, rfl, _, rfl⟩

/-- **Scores of one shape are an abelian group** under wrapped sums, and three scores of any shapes
are added in both orders or refused with a shape error in both. -/
theorem groupLaws_and_refusal (a b c : Score) :
    (a.shape = b.shape → b.shape = c.shape → GroupLaws a b c) ∧
      (RefusedByShape (a.add b >>= fun s => s.add c) ↔
        RefusedByShape (b.add c >>= fun s => a.add s)) := by
  constructor
  · intro hab hbc
    exact OfShape.groupLaws ⟨a, rfl⟩ ⟨b, hab.symm⟩ ⟨c, (hab.trans hbc).symm⟩
  · -- Both are refused exactly if not all three shapes are equal.
    rw [add_bind_refusedByShape_iff, add_bind_refusedByShape_iff, add_refusedByShape_iff,
      add_refusedByShape_iff]
    constructor
    · intro h hbc hab
      rw [shape_zipWith _ hbc] at hab
      exact h hab ((shape_zipWith _ hab).trans (hab.trans hbc))
    · intro h hab hbc
      rw [shape_zipWith _ hab, hab] at hbc
      exact h hbc ((shape_zipWith _ hbc).trans hab.symm).symm

/-- The laws at the ends of the range, where every sum wraps around. -/
theorem groupLaws_least :
    let a : Score := ⟨Level.least, [Level.least, Level.greatest], []⟩
    let b : Score := ⟨Level.wrap (-1), [Level.least, Level.wrap 1], []⟩
    let c : Score := ⟨Level.greatest, [Level.greatest, Level.least], []⟩
    a.shape = b.shape ∧ b.shape = c.shape ∧ GroupLaws a b c := by
  intro a b c
  exact ⟨rfl, rfl, (groupLaws_and_refusal a b c).1 rfl rfl⟩

end Bendable.Score
