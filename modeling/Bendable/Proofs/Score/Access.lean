import Bendable.Proofs.Score.Draft
import Bendable.Proofs.Text.Numeral
import Bendable.Score.Access

/-!
# Levels at an index

A level can be asked for inside its group or among all levels, where the soft levels are counted on
behind the hard ones. The accessors agree: among all levels, the first indexes are those of the hard
levels, and from the number of hard levels on they are those of the soft levels, moved by that
number. An index is never counted from the end, and no boolean is one: what is no integer from zero
up to the number of levels is refused with an index error, also where a group is empty.

## Main definitions

* `IndexError.ofValue name size v`: the error about a value that is no index
* `Value.IsIndex v size`: the value `v` is an index among `size` places
* `Accesses levels v result`: the result of asking for the level of `levels` at the index `v`

## Main results

* `Value.index_natCast`, `Value.index_of_not_isIndex`: which values are indexes
* `Score.accesses_levelAt`: what is looked up in a list of levels
* `Score.level_eq_levelAt`: the level at an index among all levels is looked up in their sequence
* `Score.accessors_agree`: what the three accessors give, and how they agree
-/

namespace Bendable

/-! ## Indexes -/

/-- The error about a value that is no index among `size` places. -/
def IndexError.ofValue (name : String) (size : Nat) : Value → IndexError
  | .int n => .outOfRange name n size
  | v => .notInteger name v.typeName

/-- The value is an index among `size` places: an integer from zero up. -/
def Value.IsIndex (v : Value) (size : Nat) : Prop := ∃ i : Nat, v = .int i ∧ i < size

namespace Value

variable {size : Nat}

theorem index_natCast {i : Nat} (h : i < size) (name : String) :
    (int i).index name size = .ok ⟨i, h⟩ := by
  rw [index, dif_pos ⟨Int.natCast_nonneg i, Int.ofNat_lt.mpr h⟩]
  rfl

/-- **A value that is no index is refused** with the error about it. -/
theorem index_of_not_isIndex {v : Value} (h : ¬v.IsIndex size) (name : String) :
    v.index name size = Fault.raise (.index (.ofValue name size v)) := by
  cases v with
  | int n =>
    have hn : ¬(0 ≤ n ∧ n < size) := fun ⟨h₀, h₁⟩ =>
      h ⟨n.toNat, by rw [Int.toNat_of_nonneg h₀], by omega⟩
    rw [index, dif_neg hn]
    rfl
  | _ => rfl

end Value

/-- The error about a value within the digit limit keeps to it. -/
theorem IndexError.isWritable_ofValue {v : Value} (hk : v.KeepsLimit) (name : String)
    (size : Nat) : (ScoreError.index (.ofValue name size v)).isWritable := by
  cases v with
  | int n => exact hk n rfl
  | _ => rfl

/-! ## Accessors -/

/-- **What an accessor gives**: the level at the index that the value is, or an index error. -/
structure Accesses (levels : List Level) (v : Value) (result : Except Fault Level) : Prop where
  found : ∀ (i : Nat) (h : i < levels.length), v = .int i → result = .ok levels[i]
  refused : ¬v.IsIndex levels.length → ∃ e, result = .error (.score (.index e))

namespace Score

section List

variable {name : String} {levels : List Level}

theorem levelAt_natCast {i : Nat} (h : i < levels.length) :
    levelAt name levels (.int i) = .ok levels[i] := by
  rw [levelAt, Value.index_natCast h]
  rfl

theorem levelAt_of_not_isIndex {v : Value} (h : ¬v.IsIndex levels.length) :
    levelAt name levels v = Fault.raise (.index (.ofValue name levels.length v)) := by
  rw [levelAt, Value.index_of_not_isIndex h]
  rfl

theorem accesses_levelAt {v : Value} (hk : v.KeepsLimit) :
    Accesses levels v (levelAt name levels v) where
  found := by
    rintro i h rfl
    exact levelAt_natCast h
  refused := by
    intro h
    rw [levelAt_of_not_isIndex h, Fault.raise_eq (IndexError.isWritable_ofValue hk _ _)]
    exact ⟨_, rfl⟩

end List

theorem length_levels (s : Score) : s.levels.length = s.hard.length + s.soft.length :=
  List.length_append

/-- **The level at an index among all levels**, looked up in the group that the index falls in, is
the one at that place in the sequence of all levels. -/
theorem level_eq_levelAt (s : Score) (v : Value) : s.level v = levelAt "level" s.levels v := by
  by_cases h : v.IsIndex s.levels.length
  · obtain ⟨i, rfl, hi⟩ := h
    rw [levelAt_natCast hi, level]
    rw [length_levels] at hi
    rw [Value.index_natCast hi]
    change (if h : i < s.hard.length then _ else _) = _
    -- The hard levels are the first ones, and the soft levels start behind the last of them.
    by_cases hh : i < s.hard.length
    · rw [dif_pos hh]
      simp only [levels, List.getElem_append_left hh, List.get_eq_getElem]
    · rw [dif_neg hh]
      simp only [levels, List.getElem_append_right (Nat.not_lt.mp hh), List.get_eq_getElem]
  · rw [levelAt_of_not_isIndex h, level]
    rw [length_levels] at h ⊢
    rw [Value.index_of_not_isIndex h]
    rfl

/-- **The three accessors agree.** Each gives the level at the index that a value is, and refuses
every other value with an index error. Among all levels, the indexes of the hard levels are their
own, and those of the soft levels are moved by the number of hard levels. -/
theorem accessors_agree (s : Score) {v : Value} (hk : v.KeepsLimit) :
    Accesses s.levels v (s.level v) ∧ Accesses s.hard v (s.hardLevel v) ∧
      Accesses s.soft v (s.softLevel v) ∧
      (∀ i : Nat, i < s.hard.length →
        ∃ a, s.level (.int i) = .ok a ∧ s.hardLevel (.int i) = .ok a) ∧
      ∀ j : Nat, j < s.soft.length →
        ∃ a, s.level (.int (s.hard.length + j)) = .ok a ∧ s.softLevel (.int j) = .ok a := by
  have hlevel : ∀ {i : Nat} (h : i < s.levels.length), s.level (.int i) = .ok s.levels[i] := by
    intro i h
    rw [level_eq_levelAt, levelAt_natCast h]
  refine ⟨?_, accesses_levelAt hk, accesses_levelAt hk, ?_, ?_⟩
  · rw [level_eq_levelAt]
    exact accesses_levelAt hk
  · intro i hi
    have hl : i < s.levels.length := by
      rw [length_levels]
      omega
    have ha : s.levels[i] = s.hard[i] := List.getElem_append_left hi
    exact ⟨s.hard[i], ha ▸ hlevel hl, levelAt_natCast hi⟩
  · intro j hj
    have hl : s.hard.length + j < s.levels.length := by
      rw [length_levels]
      omega
    have ha : s.levels[s.hard.length + j] = s.soft[j] := by
      simp only [levels, List.getElem_append_right (Nat.le_add_right _ _), Nat.add_sub_cancel_left]
    exact ⟨s.soft[j], ha ▸ hlevel hl, levelAt_natCast hj⟩

/-- With one hard and one soft level, the index one is that of the soft level among all levels, and
none inside a group. -/
theorem accessors_agree_border :
    let s : Score := ⟨0, [Level.wrap 7], [Level.wrap (-5)]⟩
    (Value.int 1).KeepsLimit ∧ s.level (.int 1) = .ok (Level.wrap (-5)) ∧
      (∃ e, s.hardLevel (.int 1) = .error (.score (.index e))) ∧
      ∃ e, s.softLevel (.int 1) = .error (.score (.index e)) := by
  intro s
  have hk : (Value.int 1).KeepsLimit :=
    Value.keepsLimit_int (Numeral.isWritable_of_natAbs_lt (k := 1) (by decide) (by decide))
  have hout : ¬(Value.int 1).IsIndex 1 := by
    rintro ⟨i, hi, hlt⟩
    obtain rfl := Nat.lt_one_iff.mp hlt
    cases hi
  obtain ⟨hlevel, hhard, hsoft, -⟩ := s.accessors_agree hk
  exact ⟨hk, hlevel.found 1 (by decide) rfl, hhard.refused hout, hsoft.refused hout⟩

end Score

end Bendable
