import Bendable.Proofs.Score.Acceptance

/-!
# Reading back what was written

The canonical text of a score is one of its texts, so parsing gives the score back. Parsing with
expected numbers of levels gives it back exactly if these are its own numbers; the first number
that differs is reported, the hard one before the soft one. Its message shows the expected number,
so a number beyond the digit limit escapes as a fault of its own.

## Main results

* `Score.spells_canonical`: the canonical text is a text of the score
* `Score.parse_toString_eq`: after the canonical text only the numbers of levels are to be checked
* `Score.parse_toString_expecting`: the same with expected numbers of levels
-/

namespace Bendable

/-! ## Written levels -/

/-- A level is written in at most ten digits. -/
theorem Score.readable_levelText (a : Level) : Level.Readable (levelText a) a := by
  refine ⟨Numeral.spells_ofInt a.val, ?_⟩
  have hn : a.val.natAbs < Nat.pow 10 10 := by
    have := a.min_le
    have := a.le_max
    have : Nat.pow 10 10 = 10000000000 := rfl
    omega
  have hl : (Numeral.ofNat a.val.natAbs).length ≤ 10 :=
    (Numeral.length_ofNat_le_iff (by decide)).mpr hn
  rw [levelText, Numeral.splitSign_ofInt]
  exact hl.trans (by decide)

/-! ## Integers among the values -/

/-- A value that is an integer equals exactly that integer. -/
theorem Value.equals_int_iff {v : Value} {m n : Int} (h : v.integer? = some n) :
    (Value.int m).equals v = true ↔ n = m := by
  cases v with
  | bool b =>
    cases h
    simp only [equals, integer?, Option.isSome_some, Bool.true_and, beq_iff_eq, Option.some.injEq]
    exact eq_comm
  | int k =>
    cases h
    simp only [equals, integer?, Option.isSome_some, Bool.true_and, beq_iff_eq, Option.some.injEq]
    exact eq_comm
  | _ => cases h

namespace Score

/-! ## The canonical text -/

/-- The canonical text, part by part. -/
theorem canonical_eq (s : Score) :
    s.canonical = initText s.init ++
      '[' :: (slashed (s.hard.map levelText) ++ [']', 'h', 'a', 'r', 'd', '/', '['] ++
        (slashed (s.soft.map levelText) ++ [']', 's', 'o', 'f', 't'])) := by
  simp [canonical, groupText, slashed, Group.label]

section Token

variable {Token : List Char → Level → Prop} (h : ∀ a, Token (levelText a) a)
include h

theorem startSpells_initText (a : Level) : StartSpells Token (initText a) a := by
  unfold initText
  split
  · rename_i h0
    rw [h0]
    exact .none
  · exact .label (h a)

theorem forall₂_levelText (as : List Level) : List.Forall₂ Token (as.map levelText) as :=
  List.forall₂_map_left_iff.mpr (List.forall₂_same.mpr fun a _ => h a)

/-- **The canonical text of a score** is a text of it, in any spelling that its levels are written
in. -/
theorem spells_canonical (s : Score) : Spells Token s.canonical s :=
  ⟨_, _, _, startSpells_initText h s.init, forall₂_levelText h s.hard, forall₂_levelText h s.soft,
    canonical_eq s⟩

end Token

/-- A level can be told from its text. -/
theorem levelText_inj {a b : Level} : levelText a = levelText b ↔ a = b := by
  refine ⟨fun h => ?_, congrArg levelText⟩
  have hv := Numeral.ofSigned?_ofInt a.val
  rw [show Numeral.ofInt a.val = Numeral.ofInt b.val from h, Numeral.ofSigned?_ofInt] at hv
  exact Level.ext (Option.some.inj hv).symm

/-- Written levels are the pieces of the text that joins them, and it holds no bracket. -/
theorem pieces_slashed_levelText (as : List Level) :
    pieces (slashed (as.map levelText)) = as.map levelText ∧ ']' ∉ slashed (as.map levelText) :=
  pieces_of_readable (forall₂_levelText readable_levelText as)

theorem read_canonical (s : Score) : read s.canonical = .ok s :=
  read_eq_ok_iff.mpr (spells_canonical readable_levelText s)

/-- After the canonical text only the numbers of levels are left to check. -/
theorem parse_toString_eq (s : Score) (hard soft : Option Value) :
    parse (.string (toString s)) hard soft =
      (checkCount .hard s hard).mapError (Rejection.fault (toString s)) >>= fun _ =>
        (checkCount .soft s soft).mapError (Rejection.fault (toString s)) >>= fun _ => .ok s := by
  refine parseText_of_read ?_ hard soft
  rw [show (toString s).toList = s.canonical from String.toList_ofList]
  exact read_canonical s

/-! ## Expected numbers of levels -/

/-- **The fault of a number of levels that differs**: a parse error about the text, or the expected
number itself if it is beyond the digit limit. -/
def countFault (text : String) (group : Group) (expected : Value) (actual : Nat) : Fault :=
  if expected.isWritable then
    .score (.parse ⟨text, group.name, .wrongCount group expected actual⟩)
  else .tooManyDigits

/-- An expected number that differs is reported with the number that was read. -/
theorem checkCount_some (group : Group) (s : Score) (v : Value) (text : String) :
    (checkCount group s (some v)).mapError (Rejection.fault text) =
      if (Value.int (s.group group).length).equals v then .ok ()
      else .error (countFault text group v (s.group group).length) := by
  simp only [checkCount]
  split <;> rfl

theorem checkCount_of_integer {group : Group} {s : Score} {v : Value} {n : Int}
    (h : v.integer? = some n) (text : String) :
    (checkCount group s (some v)).mapError (Rejection.fault text) =
      if n = (s.group group).length then .ok ()
      else .error (countFault text group v (s.group group).length) := by
  simp only [checkCount_some, Value.equals_int_iff h]

/-- The expected numbers of levels are judged in order, the hard one first. -/
theorem parse_toString_counts (s : Score) {hard soft : Value} {h c : Int}
    (hh : hard.integer? = some h) (hc : soft.integer? = some c) :
    parse (.string (toString s)) (some hard) (some soft) =
      if h ≠ s.hard.length then .error (countFault (toString s) .hard hard s.hard.length)
      else if c ≠ s.soft.length then .error (countFault (toString s) .soft soft s.soft.length)
      else .ok s := by
  rw [parse_toString_eq, checkCount_of_integer hh, checkCount_of_integer hc]
  by_cases h₁ : h = s.hard.length
  · by_cases h₂ : c = s.soft.length
    · simp [h₁, h₂, group, bind, Except.bind]
    · simp [h₁, h₂, group, bind, Except.bind]
  · simp [h₁, group, bind, Except.bind]

/-- **Parsing inverts writing**: the canonical text is parsed as its score. With expected numbers of
levels it is so if both are the score's own; otherwise the first that differs is the fault. -/
theorem parse_toString_expecting (s : Score) {hard soft : Value} {h c : Int}
    (hh : hard.integer? = some h) (hc : soft.integer? = some c) :
    parse (.string (toString s)) none none = .ok s ∧
      parse (.string (toString s)) (some hard) (some soft) =
        if h ≠ s.hard.length then .error (countFault (toString s) .hard hard s.hard.length)
        else if c ≠ s.soft.length then .error (countFault (toString s) .soft soft s.soft.length)
        else .ok s :=
  ⟨parse_toString_eq s none none, parse_toString_counts s hh hc⟩

/-- The counts two and `true` fit a score with two hard levels and one soft level. -/
theorem parse_toString_two_true :
    (Value.int 2).integer? = some 2 ∧ (Value.bool true).integer? = some 1 ∧
      parse (.string (toString (zero 2 1))) (some (.int 2)) (some (.bool true)) =
        .ok (zero 2 1) :=
  ⟨rfl, rfl, (parse_toString_expecting (zero 2 1) (h := 2) (c := 1) rfl rfl).2⟩

/-- An expected number beyond the digit limit differs without a parse error. -/
theorem parse_count_beyond_limit :
    (Numeral.leastLonger Numeral.digitLimit : Int) ≠ (zero 0 0).hard.length ∧
      parse (.string (toString (zero 0 0)))
          (some (.int (Numeral.leastLonger Numeral.digitLimit))) (some (.int 0)) =
        .error .tooManyDigits := by
  have hne : (Numeral.leastLonger Numeral.digitLimit : Int) ≠ (zero 0 0).hard.length :=
    Int.natCast_ne_zero.mpr (Nat.ne_of_gt (Numeral.leastLonger_pos _))
  have hw : Value.isWritable (.int (Numeral.leastLonger Numeral.digitLimit)) = false := by
    rw [Value.isWritable, Numeral.isWritable_leastLonger rfl]
  refine ⟨hne, ?_⟩
  rw [parse_toString_counts (zero 0 0) (c := 0) rfl rfl, if_pos hne, countFault, hw]
  rfl

end Score

end Bendable
