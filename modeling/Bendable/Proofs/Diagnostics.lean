import Bendable.Diagnostics
import Bendable.Proofs.Score.Access
import Bendable.Proofs.Score.RoundTrip

/-!
# A summary agrees with its score

What a summary says of a score is computed in several ways: feasibility by going through the hard
levels, the broken levels by counting along, and the warnings from the init score and the broken
levels. They agree: a score is feasible exactly if it is initialized and no hard level is broken, and
exactly if there is nothing to warn about. The broken levels are those that the accessor of hard
levels finds negative, in order and each once, and the text in a summary is read back as the score.

## Main definitions

* `Diagnostics.Agrees s d uninitialized broken`: the summary `d` agrees with the score `s`

## Main results

* `Diagnostics.mem_negativeFrom_iff`, `Diagnostics.negativeFrom_sublist`: which indexes are listed,
  and in which order
* `Diagnostics.feasible_iff`: feasibility and the broken levels
* `Diagnostics.warnings_eq`: the warnings, one for each thing that is wrong
* `Diagnostics.ofScore_agrees`: a summary and its score
-/

namespace Bendable.Diagnostics

/-! ## Broken levels -/

section Negative

variable {index : Nat} {levels : List Level}

/-- **The indexes of negative levels**, counted on from that of the first level. -/
theorem mem_negativeFrom_iff {i : Nat} :
    i ∈ negativeFrom index levels ↔ ∃ k a, i = index + k ∧ levels[k]? = some a ∧ a.val < 0 := by
  induction levels generalizing index with
  | nil => simp [negativeFrom]
  | cons a rest ih =>
    have hmem : i ∈ negativeFrom index (a :: rest) ↔
        (a.val < 0 ∧ i = index) ∨ i ∈ negativeFrom (index + 1) rest := by
      rw [negativeFrom]
      by_cases ha : a.val < 0 <;> simp [ha]
    rw [hmem, ih]
    constructor
    · rintro (⟨ha, rfl⟩ | ⟨k, b, rfl, hb, hneg⟩)
      · exact ⟨0, a, rfl, rfl, ha⟩
      · exact ⟨k + 1, b, by omega, by rwa [List.getElem?_cons_succ], hneg⟩
    · rintro ⟨k, b, rfl, hb, hneg⟩
      cases k with
      | zero =>
        obtain rfl := Option.some.inj hb
        exact .inl ⟨hneg, rfl⟩
      | succ k =>
        rw [List.getElem?_cons_succ] at hb
        exact .inr ⟨k, b, by omega, hb, hneg⟩

/-- They are some of the indexes, in their order. -/
theorem negativeFrom_sublist :
    (negativeFrom index levels).Sublist (List.range' index levels.length) := by
  induction levels generalizing index with
  | nil => exact List.nil_sublist _
  | cons a rest ih =>
    rw [negativeFrom, List.length_cons, List.range'_succ]
    split
    · exact ih.cons_cons index
    · exact ih.cons index

theorem negativeFrom_eq_nil_iff : negativeFrom index levels = [] ↔ ∀ a ∈ levels, 0 ≤ a.val := by
  induction levels generalizing index with
  | nil => simp [negativeFrom]
  | cons a rest ih =>
    rw [negativeFrom, List.forall_mem_cons, ← Int.not_lt]
    by_cases ha : a.val < 0
    · simp [ha]
    · simp [ha, ih]

end Negative

variable (s : Score)

/-- **The broken levels are those that the accessor finds negative.** -/
theorem mem_broken_iff {i : Nat} :
    i ∈ (ofScore s).brokenHardLevels ↔
      i < s.hard.length ∧ ∃ a, s.hardLevel (.int i) = .ok a ∧ a.val < 0 := by
  change i ∈ negativeFrom 0 s.hard ↔ _
  rw [mem_negativeFrom_iff]
  constructor
  · rintro ⟨k, a, rfl, ha, hneg⟩
    obtain ⟨hk, rfl⟩ := List.getElem?_eq_some_iff.mp ha
    rw [Nat.zero_add]
    exact ⟨hk, _, Score.levelAt_natCast hk, hneg⟩
  · rintro ⟨hi, a, ha, hneg⟩
    obtain rfl := Except.ok.inj ((Score.levelAt_natCast hi).symm.trans ha)
    exact ⟨i, _, (Nat.zero_add i).symm, List.getElem?_eq_getElem hi, hneg⟩

/-- **Feasible is what is initialized and has no broken level.** -/
theorem feasible_iff :
    (ofScore s).feasible ↔ (ofScore s).initialized ∧ (ofScore s).brokenHardLevels = [] := by
  change (s.isInitialized && s.hard.all (0 ≤ ·.val)) = true ↔
    s.isInitialized ∧ negativeFrom 0 s.hard = []
  rw [Bool.and_eq_true, negativeFrom_eq_nil_iff]
  simp only [List.all_eq_true, decide_eq_true_eq]

/-! ## Warnings -/

theorem isInitialized_iff : s.isInitialized ↔ ¬s.init.val < 0 := by
  rw [Score.isInitialized, decide_eq_true_eq, Int.not_lt]

/-- **The warnings**: one if the init score is negative, and behind it one if a level is broken. -/
theorem warnings_eq :
    (ofScore s).warnings = (if s.init.val < 0 then [initWarning s] else []) ++
      if (ofScore s).brokenHardLevels = [] then []
      else [brokenWarning (ofScore s).brokenHardLevels] := by
  have hinit : (if s.isInitialized then [] else [initWarning s]) =
      if s.init.val < 0 then [initWarning s] else [] := by
    simp only [isInitialized_iff, ite_not]
  rw [← hinit]
  rfl

theorem initWarning_eq :
    initWarning s = "Solution not initialized (init score " ++ toString s.init.val ++ ")" := by
  have htext : intText s.init.val = toString s.init.val := Numeral.ofList_ofInt s.init.val
  unfold initWarning
  rw [htext]

theorem brokenWarning_eq (broken : List Nat) :
    brokenWarning broken = toString broken.length ++ " broken hard level(s): " ++
      String.intercalate ", " (broken.map toString) := by
  have htext : ∀ i : Nat, intText i = toString i := fun i => Numeral.ofList_ofInt i
  simp only [brokenWarning, htext]

/-- The two warnings are told apart by their first characters, a letter and a digit. -/
theorem initWarning_ne_brokenWarning (broken : List Nat) : initWarning s ≠ brokenWarning broken := by
  obtain ⟨hne, hdigits⟩ := Numeral.isDigits_iff.mp (Numeral.isDigits_ofNat broken.length)
  obtain ⟨d, digits, hcount⟩ := List.exists_cons_of_ne_nil hne
  have hd : d.isDigit = true := hdigits d (hcount ▸ List.mem_cons_self)
  have hbroken : (brokenWarning broken).toList.head? = some d := by
    have htext : (intText broken.length).toList = d :: digits := by
      rw [← hcount]
      exact String.toList_ofList
    unfold brokenWarning
    rw [String.toList_append, String.toList_append, htext]
    rfl
  have hinit : (initWarning s).toList.head? = some 'S' := by
    unfold initWarning
    rw [String.toList_append, String.toList_append]
    rfl
  intro h
  rw [h, hbroken] at hinit
  obtain rfl := Option.some.inj hinit
  exact absurd hd (by decide)

/-- A warning is there exactly if its cause is. -/
theorem mem_warnings_iff :
    (initWarning s ∈ (ofScore s).warnings ↔ s.init.val < 0) ∧
      (brokenWarning (ofScore s).brokenHardLevels ∈ (ofScore s).warnings ↔
        (ofScore s).brokenHardLevels ≠ []) := by
  have hne := initWarning_ne_brokenWarning s (ofScore s).brokenHardLevels
  simp only [warnings_eq, List.mem_append, List.mem_ite_nil_right, List.mem_ite_nil_left,
    List.mem_singleton, hne, hne.symm, and_true, and_false, or_false, false_or, ne_eq]

theorem feasible_iff_warnings : (ofScore s).feasible ↔ (ofScore s).warnings = [] := by
  have hinit : (ofScore s).initialized ↔ ¬s.init.val < 0 := isInitialized_iff s
  rw [feasible_iff, hinit, warnings_eq, List.append_eq_nil_iff]
  simp only [ite_eq_right_iff, ite_eq_left_iff, List.cons_ne_nil, imp_false, not_not]

/-! ## The summary -/

/-- **A summary `d` that agrees with the score `s`**, with the wording of its two warnings: the broken
levels are listed in order, and they are those that the accessor of hard levels finds negative;
feasible is what is initialized without a broken level, and that is what nothing is to be warned
about; each warning is there exactly if its cause is, the one about the init score first; and the
text is read back as the score. -/
structure Agrees (s : Score) (d : Diagnostics) (uninitialized broken : String) : Prop where
  ascending : d.brokenHardLevels.Pairwise (· < ·)
  mem_broken : ∀ i : Nat, i ∈ d.brokenHardLevels ↔
    i < s.hard.length ∧ ∃ a, s.hardLevel (.int i) = .ok a ∧ a.val < 0
  feasible_iff_broken : d.feasible ↔ d.initialized ∧ d.brokenHardLevels = []
  feasible_iff_warnings : d.feasible ↔ d.warnings = []
  mem_uninitialized : uninitialized ∈ d.warnings ↔ s.init.val < 0
  mem_brokenWarning : broken ∈ d.warnings ↔ d.brokenHardLevels ≠ []
  warnings : d.warnings = (if s.init.val < 0 then [uninitialized] else []) ++
    if d.brokenHardLevels = [] then [] else [broken]
  text : Score.parse (.string d.score) none none = .ok s

/-- **The summary of a score agrees with it**, and the warning about broken levels lists their number
and their indexes. -/
theorem ofScore_agrees (s : Score) :
    Agrees s (ofScore s)
      ("Solution not initialized (init score " ++ toString s.init.val ++ ")")
      (toString (ofScore s).brokenHardLevels.length ++ " broken hard level(s): " ++
        String.intercalate ", " ((ofScore s).brokenHardLevels.map toString)) := by
  rw [← initWarning_eq, ← brokenWarning_eq]
  exact {
    ascending := List.Pairwise.sublist negativeFrom_sublist List.pairwise_lt_range'
    mem_broken := fun _ => mem_broken_iff s
    feasible_iff_broken := feasible_iff s
    feasible_iff_warnings := feasible_iff_warnings s
    mem_uninitialized := (mem_warnings_iff s).1
    mem_brokenWarning := (mem_warnings_iff s).2
    warnings := warnings_eq s
    text := Score.parse_toString_eq s none none }

end Bendable.Diagnostics
