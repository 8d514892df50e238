import Bendable.Proofs.Score.Blame
import Bendable.Score.Access

/-!
# The init score is set once

An init score is set on a score that has none, and nothing else of the score changes. A score that
has one keeps it: it is refused a new one whatever that is, before the new one is looked at. So in a
chain of calls, each on the score that the last accepted one gave, the init score stays zero until
the first other value is accepted, and every call behind that is refused.

## Main definitions

* `Value.isNonzero v`: the value `v` is another init score than zero
* `Score.chain s vs`: the calls of a chain that are accepted, and the score at its end

## Main results

* `Score.withInit_eq`: a new init score is checked with the levels that the score has
* `Score.withInit_eq_ok_iff`: which calls are accepted, and what they give
* `Score.chain_cases`: what is accepted in a chain
* `Score.chain_accepts_one`: at most one value other than zero
* `Score.withInit_sets_once`: a call on any score, and the chains of calls
-/

namespace Bendable

/-- **Another init score than zero.** -/
def Value.isNonzero (v : Value) : Bool := v.integer? != some 0

namespace Score

variable {s t : Score} {v : Value}

/-! ## One call -/

/-- **A score that has an init score is refused another**, whatever that is. -/
theorem withInit_of_ne_zero (h : s.init ≠ 0) (v : Value) :
    s.withInit v = .error (.score (.initState s)) := by
  rw [withInit, if_pos h]
  exact Fault.raise_eq rfl

/-- **A score without an init score is built anew** with the new one. -/
theorem withInit_eq (h : s.init = 0) (v : Value) :
    s.withInit v = ({ s.draft with init := v } : Draft).check := by
  rw [withInit, if_neg (not_not_intro h), Draft.check_withInit]

/-- **The calls that are accepted** are those with a level on a score without an init score, and they
change nothing else. -/
theorem withInit_eq_ok_iff :
    s.withInit v = .ok t ↔ s.init = 0 ∧ ∃ a : Level, v = .int a.val ∧ t = { s with init := a } := by
  by_cases h : s.init = 0
  · rw [withInit, if_neg (not_not_intro h), bind_eq_ok_iff]
    simp only [Level.ofValue_eq_ok_iff, Except.ok.injEq, h, true_and, @eq_comm _ t]
  · rw [withInit_of_ne_zero h]
    simp only [reduceCtorEq, h, false_and]

/-- A level is accepted on a score without an init score. -/
theorem withInit_int (h : s.init = 0) (a : Level) :
    s.withInit (.int a.val) = .ok { s with init := a } :=
  withInit_eq_ok_iff.mpr ⟨h, a, rfl, rfl⟩

/-- **A value that is no level is refused**: it is the first part of the new score, so it is the one
to blame. -/
theorem withInit_of_not_isLevel (h : s.init = 0) (hv : ¬v.IsLevel) (hk : v.KeepsLimit) :
    s.withInit v = .error (.score (.range (.ofValue "init_score" v))) := by
  rw [withInit_eq h]
  exact Draft.check_of_firstOffender ⟨hv, [], _, rfl, nofun⟩ hk

theorem toInitialized_of_zero (h : s.init = 0) : s.toInitialized = s := by
  rw [toInitialized, ← h]

/-! ## Chains of calls -/

/-- **A chain of calls**, each on the score that the last accepted one gave: the values that are
accepted, and the score at the end. -/
def chain (s : Score) : List Value → List Value × Score
  | [] => ([], s)
  | v :: rest =>
    match s.withInit v with
    | .ok t => (v :: (t.chain rest).1, (t.chain rest).2)
    | .error _ => s.chain rest

theorem chain_of_ok (h : s.withInit v = .ok t) (rest : List Value) :
    s.chain (v :: rest) = (v :: (t.chain rest).1, (t.chain rest).2) := by
  rw [chain, h]

theorem chain_of_not_ok (h : ∀ t, s.withInit v ≠ .ok t) (rest : List Value) :
    s.chain (v :: rest) = s.chain rest := by
  rw [chain]
  split
  · rename_i t ht
    exact absurd ht (h t)
  · rfl

/-- A score that has an init score accepts no other in a chain. -/
theorem chain_of_ne_zero (h : s.init ≠ 0) (vs : List Value) : s.chain vs = ([], s) := by
  induction vs with
  | nil => rfl
  | cons v rest ih =>
    have hno : ∀ t, s.withInit v ≠ .ok t := by
      intro t ht
      exact h (withInit_eq_ok_iff.mp ht).1
    rw [chain_of_not_ok hno, ih]

/-- **What a chain accepts** on a score without an init score: zeros, which change nothing, and
behind them at most one other value, which is the init score then. -/
theorem chain_cases (h : s.init = 0) (vs : List Value) :
    ∃ k, s.chain vs = (List.replicate k (.int 0), s) ∨
      ∃ a : Level, a ≠ 0 ∧
        s.chain vs = (List.replicate k (.int 0) ++ [.int a.val], { s with init := a }) := by
  -- Induction on the calls: until another value than zero is accepted the score stays as it is.
  induction vs with
  | nil => exact ⟨0, .inl rfl⟩
  | cons v rest ih =>
    by_cases hv : ∃ a : Level, v = .int a.val
    · obtain ⟨a, rfl⟩ := hv
      rw [chain_of_ok (withInit_int h a)]
      by_cases ha : a = 0
      · -- a zero: the rest of the chain is one on the same score
        subst ha
        have hs : { s with init := 0 } = s := toInitialized_of_zero h
        rw [hs]
        obtain ⟨k, hk | ⟨b, hb, hk⟩⟩ := ih
        · exact ⟨k + 1, .inl (by rw [hk]; rfl)⟩
        · exact ⟨k + 1, .inr ⟨b, hb, by rw [hk]; rfl⟩⟩
      · -- another value: the rest of the chain is refused
        rw [chain_of_ne_zero (s := { s with init := a }) ha]
        exact ⟨0, .inr ⟨a, ha, rfl⟩⟩
    · have hno : ∀ t, s.withInit v ≠ .ok t := by
        intro t ht
        obtain ⟨-, a, ha, -⟩ := withInit_eq_ok_iff.mp ht
        exact hv ⟨a, ha⟩
      rw [chain_of_not_ok hno]
      exact ih

theorem countP_zeros (k : Nat) : (List.replicate k (Value.int 0)).countP Value.isNonzero = 0 := by
  rw [List.countP_replicate]
  rfl

/-- **In a chain at most one value other than zero is accepted**, and the levels stay. -/
theorem chain_accepts_one (s : Score) (vs : List Value) :
    (s.chain vs).1.countP Value.isNonzero ≤ 1 ∧ (s.chain vs).2.hard = s.hard ∧
      (s.chain vs).2.soft = s.soft := by
  by_cases h : s.init = 0
  · obtain ⟨k, hk | ⟨a, -, hk⟩⟩ := chain_cases h vs
    · rw [hk, countP_zeros]
      exact ⟨Nat.zero_le 1, rfl, rfl⟩
    · rw [hk, List.countP_append, countP_zeros, Nat.zero_add]
      exact ⟨List.countP_le_length, rfl, rfl⟩
  · rw [chain_of_ne_zero h]
    exact ⟨Nat.zero_le 1, rfl, rfl⟩

/-! ## The init score -/

/-- **The init score is set once, and nothing else is touched.** A score that has one is refused any
other; a score that has none is refused what is no level, and otherwise gets it and keeps its levels.
What is cleared can be set again, and what is set can be cleared again. In a chain of calls at most
one value other than zero is accepted, and the levels stay. -/
theorem withInit_sets_once (s : Score) :
    (s.init ≠ 0 → ∀ v, s.withInit v = .error (.score (.initState s))) ∧
    (s.init = 0 → ∀ v : Value, ¬v.IsLevel → v.KeepsLimit →
      ∃ e, s.withInit v = .error (.score (.range e))) ∧
    (s.init = 0 → ∀ v : Value, v.IsLevel → ∃ t, s.withInit v = .ok t ∧ .int t.init.val = v ∧
      t.levels = s.levels ∧ t.shape = s.shape ∧ t.toInitialized = s) ∧
    s.toInitialized.withInit (.int s.init.val) = .ok s ∧
    ∀ vs, (s.chain vs).1.countP Value.isNonzero ≤ 1 ∧ (s.chain vs).2.hard = s.hard ∧
      (s.chain vs).2.soft = s.soft := by
  refine ⟨withInit_of_ne_zero, ?_, ?_, withInit_int rfl s.init, chain_accepts_one s⟩
  · intro h v hv hk
    exact ⟨_, withInit_of_not_isLevel h hv hk⟩
  · intro h v hv
    -- The new score differs in the init score only, so clearing that gives the old one.
    obtain ⟨a, rfl⟩ := Value.isLevel_iff.mp hv
    exact ⟨_, withInit_int h a, rfl, rfl, rfl, toInitialized_of_zero h⟩

/-- A zero leaves the init score to be set, a boolean is refused, and behind another value than zero
so is every call. -/
theorem withInit_sets_once_minus_three :
    let s : Score := ⟨0, [Level.wrap 7], []⟩
    let vs : List Value := [.int 0, .bool true, .int (-3), .int 5, .int 0]
    s.chain vs = ([.int 0, .int (-3)], ⟨Level.wrap (-3), [Level.wrap 7], []⟩) ∧
      (∃ e, s.withInit (.bool true) = .error (.score (.range e))) ∧
      (∃ t, s.withInit (.int (-3)) = .ok t ∧ t.toInitialized = s) ∧
      (s.chain vs).1.countP Value.isNonzero ≤ 1 := by
  intro s vs
  obtain ⟨-, hrange, hset, -, honce⟩ := s.withInit_sets_once
  obtain ⟨t, ht, -, -, -, hback⟩ := hset rfl (.int (-3)) ⟨_, rfl, by decide⟩
  exact ⟨rfl, hrange rfl (.bool true) nofun nofun, ⟨t, ht, hback⟩, (honce vs).1⟩

end Score

end Bendable
