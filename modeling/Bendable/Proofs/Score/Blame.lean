import Bendable.Proofs.Score.Draft
import Bendable.Proofs.Text.Numeral

/-!
# The first value that is no level is to blame

A score is built from loose values exactly if all of them are levels, and then it has these values.
Otherwise it is refused with a range error about the first value that is no level: the init score
goes before the hard levels, and those before the soft ones. The message starts with the name of
the value, which tells a level by the name of its list and its place in it.

## Main definitions

* `Draft.parts d`: the values of the draft `d` with their names, in the order of the check
* `Draft.FirstOffender d name v`: the first of them that is no level

## Main results

* `Draft.check_eq_error_iff`: a draft is refused as its parts are, one after the other
* `Draft.check_of_firstOffender`: it is refused with the error about the first offender
* `Score.ofSequences_accepts_exactly_levels`: which values are the parts of a score, and which one
  is to blame otherwise
-/

namespace Bendable

/-! ## Names of values -/

/-- Values with the name of their list and their place in it; `index` is the place of the first
one. -/
def Value.named (name : String) (index : Nat) (vs : List Value) : List (String × Value) :=
  (vs.zipIdx index).map fun p => (name ++ "[" ++ toString p.2 ++ "]", p.1)

theorem Value.named_cons (name : String) (index : Nat) (v : Value) (rest : List Value) :
    named name index (v :: rest) =
      (name ++ "[" ++ toString index ++ "]", v) :: named name (index + 1) rest := by
  rw [named, List.zipIdx_cons, List.map_cons, named]

/-- The values of a list are checked one after the other, each under its name. -/
theorem Level.listOfValues_eq_mapM (name : String) (index : Nat) (vs : List Value) :
    listOfValues name index vs =
      (Value.named name index vs).mapM fun p => Level.ofValue p.1 p.2 := by
  induction vs generalizing index with
  | nil => rfl
  | cons v rest ih =>
    have hindex : intText index = toString index := Numeral.ofList_ofInt index
    rw [listOfValues, ih, hindex, Value.named_cons, List.mapM_cons]
    rfl

/-- **The message of a range error** starts with the name of the value. -/
theorem RangeError.message_ofValue (name : String) (v : Value) :
    ∃ rest, (ofValue name v).message = name ++ " " ++ rest := by
  cases v with
  | int n =>
    have hstart : " out of int32 range: " = " " ++ "out of int32 range: " := rfl
    simp only [ofValue, message, hstart, String.append_assoc]
    exact ⟨_, rfl⟩
  | _ =>
    have hstart : " must be int, got " = " " ++ "must be int, got " := rfl
    simp only [ofValue, message, hstart, String.append_assoc]
    exact ⟨_, rfl⟩

namespace Draft

/-- **The parts of a draft**: its values with their names, in the order in which they are
checked. -/
def parts (d : Draft) : List (String × Value) :=
  ("init_score", d.init) ::
    (Value.named "hard_scores" 0 d.hard ++ Value.named "soft_scores" 0 d.soft)

/-- **The first offender**: a value that is no level, though all parts before it are. -/
def FirstOffender (d : Draft) (name : String) (v : Value) : Prop :=
  ¬v.IsLevel ∧
    ∃ before after, d.parts = before ++ (name, v) :: after ∧ ∀ p ∈ before, p.2.IsLevel

variable {d : Draft} {name : String} {v : Value}

/-- The parts of a draft are its values. -/
theorem map_snd_parts (d : Draft) : d.parts.map Prod.snd = d.init :: (d.hard ++ d.soft) := by
  have hnamed : ∀ name vs, (Value.named name 0 vs).map Prod.snd = vs := by
    intro name vs
    rw [Value.named, List.map_map]
    exact List.zipIdx_map_fst 0 vs
  rw [parts, List.map_cons, List.map_append, hnamed, hnamed]

theorem FirstOffender.mem (h : d.FirstOffender name v) : v ∈ d.init :: (d.hard ++ d.soft) := by
  obtain ⟨-, before, after, hparts, -⟩ := h
  rw [← map_snd_parts, hparts, List.map_append, List.map_cons]
  exact List.mem_append_right _ List.mem_cons_self

/-! ## The check, part by part -/

/-- **A draft is refused as its parts are**, one after the other. -/
theorem check_eq_error_iff {f : Fault} :
    d.check = .error f ↔ (d.parts.mapM fun p => Level.ofValue p.1 p.2) = .error f := by
  rw [parts, List.mapM_cons, List.mapM_append]
  simp only [check, Score.ofValues, Group.listName, Level.listOfValues_eq_mapM, bind_eq_error_iff,
    reduceCtorEq, and_false, exists_false, or_false, pure, Except.pure]

/-- A draft that is not well formed has a first offender. -/
theorem exists_firstOffender (h : ¬d.WellFormed) : ∃ name v, d.FirstOffender name v := by
  cases hc : d.check with
  | ok s => exact absurd (exists_check_iff.mp ⟨s, hc⟩) h
  | error f =>
    -- The check stops at a part, and it has passed all parts before.
    obtain ⟨good, ⟨name, v⟩, rest, hparts, hgood, hbad⟩ :=
      mapM_eq_error_iff.mp (check_eq_error_iff.mp hc)
    refine ⟨name, v, ?_, good, rest, hparts, ?_⟩
    · intro hv
      obtain ⟨a, rfl⟩ := Value.isLevel_iff.mp hv
      cases hbad.symm.trans (Level.ofValue_eq_ok_iff.mpr rfl)
    · intro p hp
      obtain ⟨a, ha⟩ := hgood p hp
      exact Value.isLevel_iff.mpr ⟨a, Level.ofValue_eq_ok_iff.mp ha⟩

/-- **A draft is refused with the error about its first offender.** -/
theorem check_of_firstOffender (h : d.FirstOffender name v) (hk : v.KeepsLimit) :
    d.check = .error (.score (.range (.ofValue name v))) := by
  obtain ⟨hv, before, after, hparts, hbefore⟩ := h
  refine check_eq_error_iff.mpr (mapM_eq_error_iff.mpr ⟨before, (name, v), after, hparts, ?_, ?_⟩)
  · intro p hp
    obtain ⟨a, ha⟩ := Value.isLevel_iff.mp (hbefore p hp)
    exact ⟨a, Level.ofValue_eq_ok_iff.mpr ha⟩
  · exact Level.ofValue_of_not_isLevel hv hk name

end Draft

/-! ## Building scores -/

/-- **Scores are built from levels exactly**: of values that are levels, and then the score has
these values. Of other values none is built, and the message of the range error starts with the
name of the first of them that is no level. -/
theorem Score.ofSequences_accepts_exactly_levels {init : Value} {hard soft : List Value}
    (hk : ∀ v ∈ init :: (hard ++ soft), v.KeepsLimit) :
    ((∃ s, ofSequences init (.list hard) (.list soft) = .ok s) ↔
      init.IsLevel ∧ (∀ v ∈ hard, v.IsLevel) ∧ ∀ v ∈ soft, v.IsLevel) ∧
    (∀ s, ofSequences init (.list hard) (.list soft) = .ok s →
      .int s.init.val = init ∧ (s.hard.map fun a => .int a.val) = hard ∧
        (s.soft.map fun a => .int a.val) = soft ∧
        (s.levels.map fun a => .int a.val) = hard ++ soft) ∧
    (¬(init.IsLevel ∧ (∀ v ∈ hard, v.IsLevel) ∧ ∀ v ∈ soft, v.IsLevel) →
      ∃ name v, (⟨init, hard, soft⟩ : Draft).FirstOffender name v) ∧
    ∀ name v, (⟨init, hard, soft⟩ : Draft).FirstOffender name v →
      ofSequences init (.list hard) (.list soft) =
          .error (.score (.range (.ofValue name v))) ∧
        ∃ rest, (RangeError.ofValue name v).message = name ++ " " ++ rest := by
  have hcheck : ofSequences init (.list hard) (.list soft) = Draft.check ⟨init, hard, soft⟩ := rfl
  have hwf : (⟨init, hard, soft⟩ : Draft).WellFormed ↔
      init.IsLevel ∧ (∀ v ∈ hard, v.IsLevel) ∧ ∀ v ∈ soft, v.IsLevel :=
    ⟨fun h => ⟨h.init, h.hard, h.soft⟩, fun h => ⟨h.1, h.2.1, h.2.2⟩⟩
  rw [hcheck, ← hwf]
  refine ⟨Draft.exists_check_iff, ?_, Draft.exists_firstOffender, ?_⟩
  · intro s hs
    obtain ⟨rfl, rfl, rfl⟩ := Draft.mk.inj (Draft.check_eq_ok_iff.mp hs)
    exact ⟨rfl, rfl, rfl, List.map_append⟩
  · intro name v h
    -- The offender is one of the values, so it keeps to the digit limit.
    exact ⟨Draft.check_of_firstOffender h (hk v h.mem), RangeError.message_ofValue name v⟩

/-- Both ends of the range are levels; a boolean among the hard levels is to blame, though a soft
level behind it is out of the range. -/
theorem Score.ofSequences_blames_boolean :
    (∀ v ∈ Value.int 2147483647 :: ([.int (-2147483648), .bool true] ++ [.int 2147483648]),
      v.KeepsLimit) ∧
    (⟨.int 2147483647, [.int (-2147483648), .bool true], [.int 2147483648]⟩ : Draft).FirstOffender
      "hard_scores[1]" (.bool true) ∧
    ofSequences (.int 2147483647) (.list [.int (-2147483648), .bool true])
      (.list [.int 2147483648]) = .error (.score (.range (.notInteger "hard_scores[1]" "bool"))) := by
  have hk : ∀ v ∈ Value.int 2147483647 :: ([.int (-2147483648), .bool true] ++ [.int 2147483648]),
      v.KeepsLimit := by
    have hint : ∀ {n : Int}, n.natAbs < Nat.pow 10 10 → (Value.int n).KeepsLimit := fun hn =>
      Value.keepsLimit_int (Numeral.isWritable_of_natAbs_lt (by decide) hn)
    simp only [List.cons_append, List.nil_append, List.forall_mem_cons]
    exact ⟨hint (by decide), hint (by decide), nofun, hint (by decide), nofun⟩
  have hoffender : Draft.FirstOffender ⟨.int 2147483647, [.int (-2147483648), .bool true],
      [.int 2147483648]⟩ "hard_scores[1]" (.bool true) := by
    refine ⟨nofun, [("init_score", .int 2147483647), ("hard_scores[0]", .int (-2147483648))], _,
      rfl, ?_⟩
    simp only [List.forall_mem_cons]
    exact ⟨⟨_, rfl, by decide⟩, ⟨_, rfl, by decide⟩, nofun⟩
  obtain ⟨-, -, -, hblame⟩ := ofSequences_accepts_exactly_levels hk
  exact ⟨hk, hoffender, (hblame _ _ hoffender).1⟩

end Bendable
