import Mathlib.Data.List.Zip
import Bendable.Proofs.Refusal
import Bendable.Score.Build

/-!
# Drafts of scores

A score is built from values that are checked one by one: a draft. The check passes exactly the
drafts whose values are integers in the level range, and it changes nothing: the score that passes
has the integers of its draft. Whatever computes a score level by level hands its integers to this
check, so it must compute levels for the check to let them through.

## Main definitions

* `Value.IsLevel v`: the value `v` is an integer in the level range
* `Value.KeepsLimit v`: the value `v` keeps to the digit limit if it is an integer
* `Draft`: the values in the places of the init score and of the levels
* `Draft.check d`: the score that the draft `d` is
* `Draft.WellFormed d`: every value of `d` is an integer in the level range
* `Draft.shape d`: the numbers of hard and soft values
* `Draft.map`, `Draft.zipWith`: integers that are computed level by level

## Main results

* `Level.ofValue_of_not_isLevel`: the refusal of a value that is no level
* `Draft.check_eq_ok_iff`: a draft passes as a score exactly if it is the draft of that score
* `Draft.exists_check_iff`: the drafts that pass are the well-formed ones
* `Draft.check_map`, `Draft.check_zipWith`: integers that are the values of levels pass as the score
  of these levels
* `Draft.check_withInit`: of a score with another init score only that one is checked
-/

namespace Bendable

/-! ## The check of single values -/

/-- The value is an integer in the level range. -/
def Value.IsLevel (v : Value) : Prop := ∃ n, v = .int n ∧ Level.InRange n

theorem Value.isLevel_iff {v : Value} : v.IsLevel ↔ ∃ a : Level, v = .int a.val := by
  constructor
  · rintro ⟨n, rfl, hl, hu⟩
    exact ⟨⟨n, hl, hu⟩, rfl⟩
  · rintro ⟨a, rfl⟩
    exact ⟨a.val, rfl, a.inRange⟩

/-- Values that are levels one by one are the values of a list of levels. -/
theorem Value.exists_levels {vs : List Value} (h : ∀ v ∈ vs, v.IsLevel) :
    ∃ as : List Level, vs = as.map fun a => .int a.val := by
  induction vs with
  | nil => exact ⟨[], rfl⟩
  | cons v rest ih =>
    obtain ⟨hv, hr⟩ := List.forall_mem_cons.mp h
    obtain ⟨a, rfl⟩ := isLevel_iff.mp hv
    obtain ⟨as, rfl⟩ := ih hr
    exact ⟨a :: as, rfl⟩

namespace Level

theorem ofValue_eq_ok_iff {name : String} {v : Value} {a : Level} :
    ofValue name v = .ok a ↔ v = .int a.val := by
  cases v with
  | int n =>
    rw [ofValue, Value.int.injEq, @eq_comm _ n, ← ofInt?_eq_some_iff]
    cases ofInt? n <;> simp [Fault.raise]
  | _ => simp [ofValue, Fault.raise]

theorem listOfValues_eq_ok_iff {name : String} {index : Nat} {vs : List Value} {as : List Level} :
    listOfValues name index vs = .ok as ↔ vs = as.map fun a => .int a.val := by
  -- Induction on the values; the index only names the value to blame.
  induction vs generalizing index as with
  | nil => cases as <;> simp [listOfValues]
  | cons v rest ih =>
    simp only [listOfValues, bind_eq_ok_iff, ofValue_eq_ok_iff, ih, Except.ok.injEq]
    constructor
    · rintro ⟨a, rfl, as', rfl, rfl⟩
      rfl
    · intro h
      cases as with
      | nil => cases h
      | cons a as =>
        obtain ⟨hv, hr⟩ := List.cons.inj h
        exact ⟨a, hv, as, hr, rfl⟩

end Level

/-! ## The refusal of single values -/

/-- A value that keeps to the digit limit, if it is an integer at all. -/
def Value.KeepsLimit (v : Value) : Prop := ∀ n, v = .int n → Numeral.isWritable n

theorem Value.keepsLimit_int {n : Int} (h : Numeral.isWritable n) : (int n).KeepsLimit := by
  rintro _ ⟨⟩
  exact h

/-- An error within the digit limit is raised as it is. -/
theorem Fault.raise_eq {α : Type} {e : ScoreError} (h : e.isWritable) :
    (raise e : Except Fault α) = .error (.score e) := by
  rw [raise, ofError, if_pos h]

/-- The error about a value that is no level. -/
def RangeError.ofValue (name : String) : Value → RangeError
  | .int n => .outOfRange name n
  | v => .notInteger name v.typeName

/-- **A value that is no level is refused** with the error about it. -/
theorem Level.ofValue_of_not_isLevel {v : Value} (h : ¬v.IsLevel) (hk : v.KeepsLimit)
    (name : String) : ofValue name v = .error (.score (.range (.ofValue name v))) := by
  cases v with
  | int n =>
    have hn : ofInt? n = none := by
      rw [Option.eq_none_iff_forall_ne_some]
      intro a ha
      exact h (Value.isLevel_iff.mpr ⟨a, by rw [ofInt?_eq_some_iff.mp ha]⟩)
    rw [ofValue, hn]
    exact Fault.raise_eq (hk n rfl)
  | _ => exact Fault.raise_eq rfl

/-! ## Drafts -/

/-- **A draft of a score**: the values in the places of the init score and of the levels. -/
structure Draft where
  init : Value
  hard : List Value
  soft : List Value

namespace Draft

/-- **The check of a draft**, which every score passes when it is built. -/
def check (d : Draft) : Except Fault Score := Score.ofValues d.init d.hard d.soft

/-- **A well-formed draft**: every value in it is an integer in the level range. -/
structure WellFormed (d : Draft) : Prop where
  init : d.init.IsLevel
  hard : ∀ v ∈ d.hard, v.IsLevel
  soft : ∀ v ∈ d.soft, v.IsLevel

/-- The numbers of hard and soft values. -/
def shape (d : Draft) : Nat × Nat := (d.hard.length, d.soft.length)

/-- The integers that a function computes of the init score and of every level. -/
def map (f : Level → Int) (s : Score) : Draft :=
  ⟨.int (f s.init), s.hard.map fun a => .int (f a), s.soft.map fun a => .int (f a)⟩

/-- The integers that a function computes of the numbers in the same places. -/
def zipWith (f : Level → Level → Int) (s t : Score) : Draft :=
  ⟨.int (f s.init t.init), List.zipWith (fun a b => .int (f a b)) s.hard t.hard,
    List.zipWith (fun a b => .int (f a b)) s.soft t.soft⟩

end Draft

/-- The draft of a score: its own integers. -/
def Score.draft (s : Score) : Draft := Draft.map Level.val s

namespace Draft

/-- **The check passes exactly the draft of a score as that score.** -/
theorem check_eq_ok_iff {d : Draft} {s : Score} : d.check = .ok s ↔ d = s.draft := by
  -- Every value is checked by itself, so the equation of drafts is one for each place.
  obtain ⟨init, hard, soft⟩ := d
  obtain ⟨a, as, bs⟩ := s
  simp only [check, Score.ofValues, bind_eq_ok_iff, Level.ofValue_eq_ok_iff,
    Level.listOfValues_eq_ok_iff, Except.ok.injEq, Score.mk.injEq, Score.draft, map, Draft.mk.injEq]
  constructor
  · rintro ⟨a', hi, as', hh, bs', hs, rfl, rfl, rfl⟩
    exact ⟨hi, hh, hs⟩
  · rintro ⟨hi, hh, hs⟩
    exact ⟨a, hi, as, hh, bs, hs, rfl, rfl, rfl⟩

theorem check_draft (s : Score) : s.draft.check = .ok s := check_eq_ok_iff.mpr rfl

/-- The check keeps the numbers of levels. -/
theorem shape_of_check {d : Draft} {s : Score} (h : d.check = .ok s) : s.shape = d.shape := by
  rw [check_eq_ok_iff.mp h]
  simp [shape, Score.shape, Score.draft, map]

/-! ## Computed drafts -/

section Computed

variable {s t : Score}

/-- Integers that are the values of levels pass as the score of these levels. -/
theorem check_map {f : Level → Int} {g : Level → Level} (h : ∀ a, (g a).val = f a) :
    (map f s).check = .ok (s.map g) := by
  rw [check_eq_ok_iff]
  simp [map, Score.draft, Score.map, h]

theorem check_zipWith {f : Level → Level → Int} {g : Level → Level → Level}
    (h : ∀ a b, (g a b).val = f a b) : (zipWith f s t).check = .ok (Score.zipWith g s t) := by
  rw [check_eq_ok_iff]
  simp [zipWith, map, Score.draft, Score.zipWith, List.map_zipWith, h]

/-- Of a score with another init score only that one is checked: the levels pass as they are. -/
theorem check_withInit (s : Score) (v : Value) : ({ s.draft with init := v } : Draft).check =
    Level.ofValue "init_score" v >>= fun a => .ok { s with init := a } := by
  have hl (name : String) (as : List Level) :
      Level.listOfValues name 0 (as.map fun a => .int a.val) = .ok as :=
    Level.listOfValues_eq_ok_iff.mpr rfl
  simp only [check, Score.ofValues, Score.draft, map, hl]
  rfl

/-- Computed values are integers of the range if the function keeps to it. -/
theorem isLevel_of_mem_map {f : Level → Int} (h : ∀ a, Level.InRange (f a)) {as : List Level}
    {v : Value} (hv : v ∈ as.map fun a => .int (f a)) : v.IsLevel := by
  obtain ⟨a, -, rfl⟩ := List.mem_map.mp hv
  exact ⟨_, rfl, h a⟩

@[simp] theorem shape_map (f : Level → Int) : (map f s).shape = s.shape := by
  simp [shape, map, Score.shape]

theorem shape_zipWith (f : Level → Level → Int) (h : s.shape = t.shape) :
    (zipWith f s t).shape = s.shape := by
  simp only [Score.shape, Prod.mk.injEq] at h
  simp [shape, zipWith, Score.shape, h.1, h.2]

theorem wellFormed_map {f : Level → Int} (h : ∀ a, Level.InRange (f a)) :
    (map f s).WellFormed where
  init := ⟨_, rfl, h s.init⟩
  hard := fun _ => isLevel_of_mem_map h
  soft := fun _ => isLevel_of_mem_map h

theorem isLevel_of_mem_zipWith {f : Level → Level → Int} (h : ∀ a b, Level.InRange (f a b))
    {as bs : List Level} {v : Value} (hv : v ∈ List.zipWith (fun a b => .int (f a b)) as bs) :
    v.IsLevel := by
  rw [← List.map_uncurry_zip_eq_zipWith] at hv
  obtain ⟨⟨a, b⟩, -, rfl⟩ := List.mem_map.mp hv
  exact ⟨_, rfl, h a b⟩

theorem wellFormed_zipWith {f : Level → Level → Int} (h : ∀ a b, Level.InRange (f a b)) :
    (zipWith f s t).WellFormed where
  init := ⟨_, rfl, h s.init t.init⟩
  hard := fun _ => isLevel_of_mem_zipWith h
  soft := fun _ => isLevel_of_mem_zipWith h

end Computed

end Draft

/-- The levels of a score keep to the range. -/
theorem Score.wellFormed_draft (s : Score) : s.draft.WellFormed :=
  Draft.wellFormed_map Level.inRange

/-- **The drafts that pass the check** are the well-formed ones. -/
theorem Draft.exists_check_iff {d : Draft} : (∃ s, d.check = .ok s) ↔ d.WellFormed := by
  constructor
  · rintro ⟨s, hs⟩
    rw [check_eq_ok_iff.mp hs]
    exact s.wellFormed_draft
  · obtain ⟨init, hard, soft⟩ := d
    rintro ⟨hi, hh, hs⟩
    obtain ⟨a, rfl⟩ := Value.isLevel_iff.mp hi
    obtain ⟨as, rfl⟩ := Value.exists_levels hh
    obtain ⟨bs, rfl⟩ := Value.exists_levels hs
    exact ⟨⟨a, as, bs⟩, check_draft ⟨a, as, bs⟩⟩

end Bendable
