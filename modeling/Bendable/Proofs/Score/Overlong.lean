import Bendable.Proofs.Score.Acceptance

/-!
# Texts that run into the digit limit

A text that is no score should be refused with a parse error about it. There is one other fault: an
integer with more digits than the limit can neither be read nor be shown. A text runs into the limit
where its first piece that is not read is a numeral of that kind, whatever stands behind it. An
expected number of levels runs into it where it differs from the number that was read, because the
message would have to show it.

## Main definitions

* `Numeral.Overlong piece`: `piece` is a numeral with more digits than the limit
* `Level.MeetsOverlong pieces`: the first of the pieces that is not read is such a numeral
* `Score.MeetsOverlong text`: the same for the text of a score, piece by piece
* `Score.CountsOverlong s hard soft`: the first expected number that differs is beyond the limit

## Main results

* `Level.readAll_eq_error_iff`: pieces are refused for the first of them that is refused
* `Score.read_eq_tooManyDigits_iff`: which texts run into the limit
* `Score.parse_parseError_or_tooManyDigits`: the faults of a text, and when each of them arises
-/

namespace Bendable

/-! ## Pieces -/

/-- **An overlong numeral**: one with more digits than the limit. -/
def Numeral.Overlong (piece : List Char) : Prop :=
  ∃ n, Spells piece n ∧ digitLimit < (splitSign piece).2.length

theorem Numeral.overlong_of_digits {digits : List Char} (hd : ∀ c ∈ digits, c.isDigit = true)
    (hl : digitLimit < digits.length) : Overlong digits := by
  have hne : digits ≠ [] := List.ne_nil_of_length_pos (Nat.zero_lt_of_lt hl)
  refine ⟨value digits, .unsigned hne hd, ?_⟩
  rwa [splitSign_of_isDigits (isDigits_iff.mpr ⟨hne, hd⟩)]

namespace Level

/-- **Pieces that run into the limit**: those before the first overlong numeral are levels. -/
def MeetsOverlong (pieces : List (List Char)) : Prop :=
  ∃ good as bad rest, pieces = good ++ bad :: rest ∧ List.Forall₂ Readable good as ∧
    Numeral.Overlong bad

theorem read_eq_tooManyDigits_iff {place : Place} {piece : List Char} :
    read place piece = .error .tooManyDigits ↔ Numeral.Overlong piece := by
  unfold read Numeral.Overlong
  cases hn : Numeral.ofSigned? piece with
  | none =>
    simp only [Except.error.injEq, reduceCtorEq, false_iff, not_exists, not_and]
    intro n hs
    exact absurd hs (Numeral.ofSigned?_eq_none_iff.mp hn n)
  | some n =>
    -- The digits are counted before the range is looked at.
    have hs := Numeral.ofSigned?_eq_some_iff.mp hn
    dsimp only
    split
    · rename_i hlt
      simp only [true_iff]
      exact ⟨n, hs, hlt⟩
    · rename_i hle
      have hno : ¬∃ n, Numeral.Spells piece n ∧
          Numeral.digitLimit < (Numeral.splitSign piece).2.length := fun ⟨_, _, hlt⟩ => hle hlt
      cases ofInt? n <;> simp [hno]

/-- **Pieces are refused for the first that is refused**: those before it are levels. -/
theorem readAll_eq_error_iff {group : Group} {index : Nat} {pieces : List (List Char)}
    {r : Rejection} :
    readAll group index pieces = .error r ↔ ∃ good as bad rest, pieces = good ++ bad :: rest ∧
      List.Forall₂ Readable good as ∧ read (.level group (index + good.length)) bad = .error r := by
  -- Induction on the pieces: the first is refused itself, or it is one of those before.
  induction pieces generalizing index with
  | nil => simp [readAll]
  | cons piece pieces ih =>
    simp only [readAll, bind_eq_error_iff, read_eq_ok_iff, ih]
    constructor
    · rintro (h | ⟨a, ha, (⟨good, as, bad, rest, rfl, hg, hb⟩ | ⟨as, -, h⟩)⟩)
      · exact ⟨[], [], piece, pieces, rfl, .nil, h⟩
      · refine ⟨piece :: good, a :: as, bad, rest, rfl, .cons ha hg, ?_⟩
        rw [← hb, List.length_cons]
        congr 2
        omega
      · cases h
    · rintro ⟨good, as, bad, rest, he, hg, hb⟩
      cases hg with
      | nil =>
        cases he
        exact .inl hb
      | cons ha hg =>
        obtain ⟨rfl, rfl⟩ := List.cons.inj he
        refine .inr ⟨_, ha, .inl ⟨_, _, bad, rest, rfl, hg, ?_⟩⟩
        rw [← hb, List.length_cons]
        congr 2
        omega

theorem readAll_eq_tooManyDigits_iff {group : Group} {index : Nat} {pieces : List (List Char)} :
    readAll group index pieces = .error .tooManyDigits ↔ MeetsOverlong pieces := by
  simp only [readAll_eq_error_iff, read_eq_tooManyDigits_iff, MeetsOverlong]

theorem meetsOverlong_cons_iff {piece : List Char} {pieces : List (List Char)} :
    MeetsOverlong (piece :: pieces) ↔
      Numeral.Overlong piece ∨ (∃ a, Readable piece a) ∧ MeetsOverlong pieces := by
  constructor
  · rintro ⟨good, as, bad, rest, he, hg, hb⟩
    cases hg with
    | nil =>
      cases he
      exact .inl hb
    | cons ha hg =>
      obtain ⟨rfl, rfl⟩ := List.cons.inj he
      exact .inr ⟨⟨_, ha⟩, _, _, bad, rest, rfl, hg, hb⟩
  · rintro (h | ⟨⟨a, ha⟩, good, as, bad, rest, rfl, hg, hb⟩)
    · exact ⟨[], [], piece, pieces, rfl, .nil, h⟩
    · exact ⟨piece :: good, a :: as, bad, rest, rfl, .cons ha hg, hb⟩

/-- Pieces of two groups, one group after the other. -/
theorem meetsOverlong_append_iff {xs ys : List (List Char)} :
    MeetsOverlong (xs ++ ys) ↔
      MeetsOverlong xs ∨ (∃ as, List.Forall₂ Readable xs as) ∧ MeetsOverlong ys := by
  -- Induction on the first group: each piece of it is the overlong one or a level before it.
  induction xs with
  | nil => simp [MeetsOverlong]
  | cons x xs ih =>
    simp only [List.cons_append, meetsOverlong_cons_iff, ih, List.forall₂_cons_left_iff]
    constructor
    · rintro (h | ⟨⟨a, ha⟩, (h | ⟨⟨as, has⟩, h⟩)⟩)
      · exact .inl (.inl h)
      · exact .inl (.inr ⟨⟨a, ha⟩, h⟩)
      · exact .inr ⟨⟨a :: as, a, as, ha, has, rfl⟩, h⟩
    · rintro ((h | ⟨ha, h⟩) | ⟨⟨-, a, as, ha, has, -⟩, h⟩)
      · exact .inl h
      · exact .inr ⟨ha, .inl h⟩
      · exact .inr ⟨⟨a, ha⟩, .inr ⟨⟨as, has⟩, h⟩⟩

end Level

namespace Score

/-! ## Texts -/

/-- **Texts that run into the limit**: the init score is an overlong numeral, whatever follows its
label; or the first piece between the brackets that is no level is one. -/
inductive MeetsOverlong : List Char → Prop
  | init {piece rest : List Char} (h : Numeral.Overlong piece) :
    MeetsOverlong (piece ++ (['i', 'n', 'i', 't'] ++ rest))
  | level {start hard soft : List Char} {a : Level} (hs : StartSpells Level.Readable start a)
      (hm : ¬[']', 'h', 'a', 'r', 'd', '/', '['] <:+: hard)
      (h : Level.MeetsOverlong (pieces hard ++ pieces soft)) :
    MeetsOverlong (start ++ '[' :: (hard ++ [']', 'h', 'a', 'r', 'd', '/', '['] ++
      (soft ++ [']', 's', 'o', 'f', 't'])))

/-- Only a level can be overlong, not a place where a bracket or a label is missing. -/
theorem bodies_ne_tooManyDigits (text : List Char) : bodies text ≠ .error .tooManyDigits := by
  unfold bodies
  intro h
  split at h
  · split at h
    · cases h
    · split at h <;> cases h
  · cases h

/-- An overlong numeral holds none of the other characters of a score text. -/
theorem not_mem_of_overlong {piece : List Char} (h : Numeral.Overlong piece) :
    '[' ∉ piece ∧ 'i' ∉ piece := by
  obtain ⟨n, hs, -⟩ := h
  have hc : ∀ c ∈ piece, c = '+' ∨ c = '-' ∨ c.isDigit = true := fun c => hs.mem
  constructor <;> exact fun hm => absurd (hc _ hm) (by decide)

theorem readInit_eq_tooManyDigits_iff {text : List Char} :
    readInit text = .error .tooManyDigits ↔
      ∃ piece rest, Numeral.Overlong piece ∧ text = piece ++ (initLabel ++ rest) := by
  constructor
  · intro h
    unfold readInit at h
    split at h
    · cases h
    · split at h
      · cases h
      · rename_i piece after hcut
        rcases bind_eq_error_iff.mp h with h | ⟨a, -, h⟩
        · refine ⟨piece, after, Level.read_eq_tooManyDigits_iff.mp h, ?_⟩
          rw [Separated.eq_of_cutFirst? hcut, List.append_assoc]
        · split at h <;> cases h
  · -- The first label is the one behind the numeral, which holds no letter and no bracket.
    rintro ⟨piece, rest, hp, rfl⟩
    obtain ⟨hb, hi⟩ := not_mem_of_overlong hp
    rw [readInit_cut (fun hm => hb (hm.subset (by simp)))
      (fun hm => hi (hm.subset (by simp [initLabel]))), Level.read_eq_tooManyDigits_iff.mpr hp]
    rfl

/-- **The texts that run into the limit** are those for which the reader stops at it. -/
theorem read_eq_tooManyDigits_iff {text : List Char} :
    read text = .error .tooManyDigits ↔ MeetsOverlong text := by
  simp only [read, bind_eq_error_iff, readInit_eq_tooManyDigits_iff, Prod.exists,
    bodies_ne_tooManyDigits, false_or, Level.readAll_eq_tooManyDigits_iff, Level.readAll_eq_ok_iff,
    reduceCtorEq, and_false, exists_false, or_false]
  -- What is left: the init score, or a level of the hard group, or of the soft group behind it.
  constructor
  · rintro (⟨piece, rest, hp, rfl⟩ | ⟨a, rest, hi, hard, soft, hb, h⟩)
    · exact .init hp
    · obtain ⟨start, hs, rfl⟩ := startSpells_of_readInit hi
      obtain ⟨rfl, hm⟩ := bodies_eq_ok_iff.mp hb
      refine .level hs hm (Level.meetsOverlong_append_iff.mpr ?_)
      rcases h with h | ⟨as, has, h⟩
      · exact .inl h
      · exact .inr ⟨⟨as, has⟩, h⟩
  · rintro (⟨hp⟩ | ⟨hs, hm, h⟩)
    · exact .inl ⟨_, _, hp, rfl⟩
    · refine .inr ⟨_, _, readInit_append hs _, _, _, bodies_eq_ok_iff.mpr ⟨rfl, hm⟩, ?_⟩
      rcases Level.meetsOverlong_append_iff.mp h with h | ⟨⟨as, has⟩, h⟩
      · exact .inl h
      · exact .inr ⟨as, has, h⟩

/-! ## Expected numbers of levels -/

/-- **An expected number beyond the limit** that is not the number of levels of the group. -/
def CountOverlong (s : Score) (group : Group) (expected : Option Value) : Prop :=
  ∃ v ∈ expected, (Value.int (s.group group).length).equals v = false ∧ v.isWritable = false

/-- **Expected numbers that run into the limit**: the first of them that differs is beyond it. -/
def CountsOverlong (s : Score) (hard soft : Option Value) : Prop :=
  CountOverlong s .hard hard ∨
    (∀ v ∈ hard, (Value.int s.hard.length).equals v = true) ∧ CountOverlong s .soft soft

/-- Expected numbers within the limit do not run into it. -/
theorem not_countsOverlong {s : Score} {hard soft : Option Value}
    (hh : ∀ v ∈ hard, v.isWritable = true) (hs : ∀ v ∈ soft, v.isWritable = true) :
    ¬CountsOverlong s hard soft := by
  rintro (⟨v, hv, -, hw⟩ | ⟨-, v, hv, -, hw⟩)
  · exact absurd (hh v hv) (by simp [hw])
  · exact absurd (hs v hv) (by simp [hw])

theorem checkCount_eq_tooManyDigits_iff {group : Group} {s : Score} {expected : Option Value}
    {text : String} :
    (checkCount group s expected).mapError (Rejection.fault text) = .error .tooManyDigits ↔
      CountOverlong s group expected := by
  cases expected with
  | none => simp [checkCount, CountOverlong, Except.mapError]
  | some v =>
    simp only [CountOverlong, Option.mem_def, Option.some.injEq, exists_eq_left', checkCount]
    cases (Value.int (s.group group).length).equals v with
    | true => simp [Except.mapError]
    | false =>
      -- the message shows the expected number
      cases hw : v.isWritable <;>
        simp [Except.mapError, Rejection.fault, Fault.ofError, ScoreError.isWritable, hw]

/-! ## Parsing -/

variable {text : String} {hard soft : Option Value}

/-- A rejection is reported in a parse error about the text, or it is the limit. -/
theorem fault_isParseError_or_tooManyDigits (r : Rejection) (text : String) :
    (r.fault text).IsParseError text ∨ r.fault text = .tooManyDigits := by
  cases r with
  | tooManyDigits => exact .inr rfl
  | segment token reason =>
    rw [Rejection.fault, Fault.ofError]
    split
    · exact .inl ⟨_, _, rfl⟩
    · exact .inr rfl

/-- A text is refused with a parse error about it, or at the limit. -/
theorem refusesWith_parseText_or_limit (hard soft : Option Value) (text : String) :
    RefusesWith (fun f => f.IsParseError text ∨ f = .tooManyDigits) (parseText hard soft text) :=
  .mapError (P := fun _ => True) (fun _ _ => trivial) fun r _ =>
    fault_isParseError_or_tooManyDigits r text

theorem parseText_eq_tooManyDigits_iff :
    parseText hard soft text = .error .tooManyDigits ↔
      MeetsOverlong text.toList ∨
        ∃ s, Spells Level.Readable text.toList s ∧ CountsOverlong s hard soft := by
  simp only [← read_eq_tooManyDigits_iff, ← read_eq_ok_iff]
  cases hr : read text.toList with
  | ok s =>
    -- The text was read, so the limit is met at a count.
    have hh : checkCount .hard s hard = .ok () ↔ ∀ v ∈ hard, (Value.int s.hard.length).equals v :=
      checkCount_eq_ok_iff
    simp only [parseText_of_read hr, bind_eq_error_iff, checkCount_eq_tooManyDigits_iff,
      mapError_eq_ok_iff, hh, CountsOverlong, Except.ok.injEq, exists_eq_left', reduceCtorEq,
      false_or, and_false, exists_false, or_false, exists_const]
  | error r =>
    simp only [parseText_of_read_error hr, Except.error.injEq, reduceCtorEq, false_and, exists_false, or_false]
    constructor
    · intro h
      by_contra hne
      have hb : r.Blames text.toList := refusesWith_read text.toList r hr
      obtain ⟨token, reason, he⟩ := hb.isParseError_of_ne hne
      rw [h] at he
      cases he
    · rintro rfl
      rfl

/-- **The faults of a text**: a text that is not parsed is refused with a parse error about it, or
it runs into the digit limit. It does so exactly at an overlong numeral that comes before every
other fault, or at an expected number beyond the limit that is the first to differ. -/
theorem parse_parseError_or_tooManyDigits (text : String) (hard soft : Option Value) :
    ((∃ s, parse (.string text) hard soft = .ok s) ∨
      (∃ f, parse (.string text) hard soft = .error f ∧ f.IsParseError text) ∨
      parse (.string text) hard soft = .error .tooManyDigits) ∧
    (parse (.string text) hard soft = .error .tooManyDigits ↔
      MeetsOverlong text.toList ∨
        ∃ s, Spells Level.Readable text.toList s ∧ CountsOverlong s hard soft) := by
  refine ⟨?_, parseText_eq_tooManyDigits_iff⟩
  rcases (refusesWith_parseText_or_limit hard soft text).ok_or_error with hs | ⟨f, hf, h | rfl⟩
  · exact .inl hs
  · exact .inr (.inl ⟨f, hf, h⟩)
  · exact .inr (.inr hf)

/-- A text whose only level is overlong runs into the limit. -/
theorem meetsOverlong_digits {digits : List Char} (hd : ∀ c ∈ digits, c.isDigit = true)
    (hl : Numeral.digitLimit < digits.length) :
    MeetsOverlong
      ('[' :: (digits ++ [']', 'h', 'a', 'r', 'd', '/', '[', ']', 's', 'o', 'f', 't'])) := by
  have hno : ∀ c, c.isDigit = false → c ∉ digits := by
    intro c hc hm
    rw [hd c hm] at hc
    cases hc
  have hm : ¬[']', 'h', 'a', 'r', 'd', '/', '['] <:+: digits := fun hi =>
    hno ']' (by decide) (hi.subset (by simp))
  have hsplit : pieces digits = [digits] := by
    have hne : digits ≠ [] := List.ne_nil_of_length_pos (Nat.zero_lt_of_lt hl)
    rw [pieces, if_neg hne, Separated.splitAt_of_not_mem (hno '/' (by decide))]
  have hfirst : Level.MeetsOverlong (pieces digits ++ pieces []) := by
    rw [hsplit]
    exact ⟨[], [], digits, [], rfl, .nil, Numeral.overlong_of_digits hd hl⟩
  have h : MeetsOverlong ([] ++ '[' :: (digits ++ [']', 'h', 'a', 'r', 'd', '/', '['] ++
      ([] ++ [']', 's', 'o', 'f', 't']))) := .level .none hm hfirst
  simpa using h

/-- A level of one digit more than the limit is refused without a parse error. -/
theorem parse_overlong_level :
    let text := String.ofList ('[' :: (List.replicate (Numeral.digitLimit + 1) '1' ++
      [']', 'h', 'a', 'r', 'd', '/', '[', ']', 's', 'o', 'f', 't']))
    parse (.string text) none none = .error .tooManyDigits ∧
      ¬((∃ s, parse (.string text) none none = .ok s) ∨
        ∃ f, parse (.string text) none none = .error f ∧ f.IsParseError text) := by
  intro text
  have hmeets : MeetsOverlong text.toList := by
    rw [String.toList_ofList]
    refine meetsOverlong_digits (fun c hc => ?_) ?_
    · rw [List.eq_of_mem_replicate hc]
      rfl
    · rw [List.length_replicate]
      exact Nat.lt_succ_self _
  have hp : parse (.string text) none none = .error .tooManyDigits :=
    parseText_eq_tooManyDigits_iff.mpr (.inl hmeets)
  refine ⟨hp, ?_⟩
  rintro (⟨s, hs⟩ | ⟨f, hf, token, reason, rfl⟩)
  · rw [hp] at hs
    cases hs
  · rw [hp] at hf
    cases hf

end Score

end Bendable
