import Mathlib.Data.List.TFAE
import Bendable.Proofs.Score.Order
import Bendable.Proofs.Snapshot.RoundTrip

/-!
# Sameness of scores

There are several ways to ask whether two scores are the same: by equality, by their texts, by
their snapshots, by comparing them, and by putting them into a set. All of them have the one answer
that the scores have the same levels in the same groups. A text gives its score back, so it belongs
to one score only; a snapshot gives its text back. A set looks for equal scores among those with
the same hash only, but the hash is taken of the init score and of both groups, so equal scores
have it in common.

## Main definitions

* `Score.key s`: what a score is hashed by
* `Score.hashed hash scores`: the set of scores built with a hash function

## Main results

* `Score.toString_inj`, `Snapshot.encode_inj`: texts and snapshots belong to one score only
* `Score.sameness_tfae`: all notions of sameness coincide
-/

namespace Bendable

/-! ## Texts and snapshots -/

/-- **A canonical text belongs to one score.** -/
theorem Score.toString_inj {s t : Score} : toString s = toString t ↔ s = t := by
  refine ⟨fun h => ?_, congrArg toString⟩
  have hs := parse_toString_eq s none none
  rw [h, parse_toString_eq t none none] at hs
  exact (Except.ok.inj hs).symm

/-- **A snapshot belongs to one score**: without a digit limit it is read as its members, and the
text of the score is one of them. -/
theorem Snapshot.encode_inj {s t : Score} : encode s = encode t ↔ s = t := by
  refine ⟨fun h => ?_, congrArg encode⟩
  have hread (u : Score) : Json.read {} (encode u) = .ok (.dict (members u)) :=
    read_members (Json.layout_compact_int_unlimited _) (Json.layout_compact_int_unlimited _)
  have hm := hread s
  rw [h, hread t] at hm
  have ht : members t = members s := Value.dict.inj (Except.ok.inj hm)
  simp only [members, List.cons.injEq, Prod.mk.injEq, Value.string.injEq] at ht
  exact Score.toString_inj.mp ht.2.1.2.symm

namespace Score

variable {s t : Score}

/-! ## Equality and comparison -/

theorem eq_decides_iff : Operator.eq.Decides s t true ↔ s = t := by
  simp [Operator.Decides, Operand.apply, Operand.applyScores]

/-- Scores of different shapes are not compared, so equality in order is sameness too. -/
theorem compare_eq_ok_eq_iff :
    (Operand.score s).isCompatible (.score t) = true ∧ s.compare t = .ok .eq ↔ s = t := by
  rw [isCompatible_eq, decide_eq_true_eq]
  constructor
  · rintro ⟨h, hc⟩
    rw [compare_of_shape_eq h, Except.ok.injEq, Std.LawfulEqCmp.compare_eq_iff_eq] at hc
    exact (numbers_inj h).mp hc
  · rintro rfl
    refine ⟨rfl, ?_⟩
    rw [compare_of_shape_eq rfl, Except.ok.injEq, Std.LawfulEqCmp.compare_eq_iff_eq]

/-! ## Sets -/

theorem distinct_eq_one_iff : Operand.distinct (.score s) (.score t) = .ok 1 ↔ s = t := by
  simp [Operand.distinct, Operand.isScalar, Operand.equals]

/-- What a score is hashed by. -/
def key (s : Score) : Level × List Level × List Level := (s.init, s.hard, s.soft)

/-- Puts a score into a set, unless the set holds an equal one with the same hash. -/
def putHashed (hash : Level × List Level × List Level → Int) (scores : List Score) (s : Score) :
    List Score :=
  if scores.any fun t => hash t.key == hash s.key && t == s then scores else scores ++ [s]

/-- **The set of scores**, built with a hash function. -/
def hashed (hash : Level × List Level × List Level → Int) (scores : List Score) : List Score :=
  scores.foldl (putHashed hash) []

/-- Equal scores have equal hashes, so the hash keeps no two of them apart. -/
theorem putHashed_eq (hash : Level × List Level × List Level → Int) (scores : List Score)
    (s : Score) : putHashed hash scores s = if s ∈ scores then scores else scores ++ [s] := by
  have hany : (scores.any fun t => hash t.key == hash s.key && t == s) = true ↔ s ∈ scores := by
    rw [List.any_eq_true]
    constructor
    · rintro ⟨t, ht, he⟩
      rw [Bool.and_eq_true, beq_iff_eq, beq_iff_eq] at he
      exact he.2 ▸ ht
    · intro hs
      exact ⟨s, hs, by simp⟩
  simp only [putHashed, hany]

theorem length_hashed_eq_one_iff (hash : Level × List Level × List Level → Int) :
    (hashed hash [s, t]).length = 1 ↔ s = t := by
  simp only [hashed, List.foldl_cons, List.foldl_nil, putHashed_eq, List.not_mem_nil, if_false,
    List.nil_append, List.mem_singleton]
  by_cases h : t = s
  · simp [h]
  · simp [h, Ne.symm h]

/-! ## All notions of sameness -/

/-- **All notions of sameness coincide**, whatever the hash function, and equality is answered for
scores of all shapes. -/
theorem sameness_tfae (s t : Score) (hash : Level × List Level × List Level → Int) :
    List.TFAE [Operator.eq.Decides s t true, toString s = toString t,
      Snapshot.encode s = Snapshot.encode t,
      (Operand.score s).isCompatible (.score t) = true ∧ s.compare t = .ok .eq,
      Operand.distinct (.score s) (.score t) = .ok 1, (hashed hash [s, t]).length = 1] ∧
      ∃ b, Operator.eq.Decides s t b ∧ Operator.ne.Decides s t !b := by
  refine ⟨List.tfae_of_forall (s = t) _ ?_, s == t, rfl, rfl⟩
  simp only [List.forall_mem_cons]
  exact ⟨eq_decides_iff, toString_inj, Snapshot.encode_inj, compare_eq_ok_eq_iff,
    distinct_eq_one_iff, length_hashed_eq_one_iff hash, by simp⟩

end Score

end Bendable
