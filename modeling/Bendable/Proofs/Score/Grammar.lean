import Mathlib.Data.List.Forall2
import Bendable.Proofs.Refusal
import Bendable.Proofs.Score.Pieces
import Bendable.Proofs.Text.Numeral

/-!
# The grammar of score texts

The text of a score is a start with the init score, the hard levels in brackets, and the soft
levels in brackets: `P[H]hard/[S]soft`. The grammar leaves open how a single level is spelled, so
that the same shape serves for all numerals, for those that the reader takes, and for those that
the writer uses. The reader looks for the first `init`, the first `]hard/[` and the ending
`]soft`; it agrees with the grammar because no numeral holds a letter, a bracket or a slash.

## Main definitions

* `Score.Spells Token text s`: `text` is a text of `s` whose levels are spelled as `Token` says
* `Level.Spells`, `Level.Readable`: the numerals of a level, and those that keep to the digit limit
* `Rejection.Blames text r`: the rejection `r` speaks of `text`

## Main results

* `Score.read_eq_ok_iff`: the reader accepts exactly the texts of scores in readable numerals
* `Score.refusesWith_read`: a rejection blames a part of the text
-/

namespace Bendable

/-! ## Single levels -/

/-- **The numerals of a level.** -/
def Level.Spells (piece : List Char) (a : Level) : Prop := Numeral.Spells piece a.val

/-- A numeral of a level that keeps to the digit limit. -/
def Level.Readable (piece : List Char) (a : Level) : Prop :=
  Level.Spells piece a ∧ (Numeral.splitSign piece).2.length ≤ Numeral.digitLimit

theorem Level.read_eq_ok_iff {place : Place} {piece : List Char} {a : Level} :
    Level.read place piece = .ok a ↔ Level.Readable piece a := by
  unfold Level.read Level.Readable Level.Spells
  cases hn : Numeral.ofSigned? piece with
  | none =>
    simp only [reduceCtorEq, false_iff, not_and]
    intro h
    rw [h.ofSigned?] at hn
    cases hn
  | some n =>
    have hs : Numeral.Spells piece a.val ↔ a.val = n := by
      rw [← Numeral.ofSigned?_eq_some_iff, hn, Option.some.injEq, eq_comm]
    rw [hs, ← Level.ofInt?_eq_some_iff]
    dsimp only
    split
    · simp only [reduceCtorEq, false_iff, not_and]
      omega
    · rename_i hle
      cases Level.ofInt? n <;> simp [Nat.le_of_not_lt hle]

theorem Level.readAll_eq_ok_iff {group : Group} {index : Nat} {pieces : List (List Char)}
    {as : List Level} :
    Level.readAll group index pieces = .ok as ↔ List.Forall₂ Level.Readable pieces as := by
  induction pieces generalizing index as with
  | nil => simp [Level.readAll, eq_comm]
  | cons piece rest ih =>
    simp only [Level.readAll, bind_eq_ok_iff, Level.read_eq_ok_iff, ih, Except.ok.injEq,
      List.forall₂_cons_left_iff, exists_and_left]
    constructor
    · rintro ⟨a, ha, as', has, rfl⟩
      exact ⟨a, ha, as', has, rfl⟩
    · rintro ⟨a, ha, as', has, rfl⟩
      exact ⟨a, ha, as', has, rfl⟩

/-- A numeral of a level holds none of the other characters of a score text. -/
theorem Level.Spells.not_mem {piece : List Char} {a : Level} (h : Level.Spells piece a) :
    '[' ∉ piece ∧ ']' ∉ piece ∧ '/' ∉ piece ∧ 'i' ∉ piece := by
  have hc : ∀ c ∈ piece, c = '+' ∨ c = '-' ∨ c.isDigit = true := fun c => Numeral.Spells.mem h
  refine ⟨fun hm => ?_, fun hm => ?_, fun hm => ?_, fun hm => ?_⟩ <;>
    exact absurd (hc _ hm) (by decide)


namespace Score

/-! ## The grammar -/

section Grammar

variable (Token : List Char → Level → Prop)

/-- **The start of a score text**: nothing, which stands for zero, or the init score with its label
and at most one slash. -/
inductive StartSpells : List Char → Level → Prop
  | none : StartSpells [] 0
  | label {piece : List Char} {a : Level} (h : Token piece a) :
    StartSpells (piece ++ ['i', 'n', 'i', 't']) a
  | slash {piece : List Char} {a : Level} (h : Token piece a) :
    StartSpells (piece ++ ['i', 'n', 'i', 't', '/']) a

/-- **The texts of a score**: a start, the hard and the soft levels in brackets with slashes between
them, and the labels of the groups. -/
def Spells (text : List Char) (s : Score) : Prop :=
  ∃ start hard soft, StartSpells Token start s.init ∧ List.Forall₂ Token hard s.hard ∧
    List.Forall₂ Token soft s.soft ∧
      text = start ++ '[' :: (slashed hard ++ [']', 'h', 'a', 'r', 'd', '/', '['] ++
        (slashed soft ++ [']', 's', 'o', 'f', 't']))

end Grammar

/-- The start may be judged by its piece. -/
theorem StartSpells.imp {T U : List Char → Level → Prop} {start : List Char} {a : Level}
    (h : StartSpells T start a) (htu : ∀ piece, piece <+: start → T piece a → U piece a) :
    StartSpells U start a := by
  cases h with
  | none => exact .none
  | label h => exact .label (htu _ (List.prefix_append _ _) h)
  | slash h => exact .slash (htu _ (List.prefix_append _ _) h)

/-- The pieces of a score text may be judged as parts of the text. -/
theorem Spells.imp {T U : List Char → Level → Prop} {text : List Char} {s : Score}
    (h : Spells T text s) (htu : ∀ piece a, piece <:+: text → T piece a → U piece a) :
    Spells U text s := by
  obtain ⟨start, hard, soft, hi, hh, hs, rfl⟩ := h
  have group : ∀ {items : List (List Char)} {as : List Level}, List.Forall₂ T items as →
      slashed items <:+: _ → List.Forall₂ U items as := fun hf hg =>
    ((List.forall₂_and_left _ _).mpr ⟨fun _ hm => (infix_slashed hm).trans hg, hf⟩).imp
      fun piece a hp => htu piece a hp.1 hp.2
  refine ⟨start, hard, soft, ?_, group hh ?_, group hs ?_, rfl⟩
  · exact hi.imp fun piece hp => htu piece _ (hp.trans (List.prefix_append _ _)).isInfix
  · exact ⟨start ++ ['['], [']', 'h', 'a', 'r', 'd', '/', '['] ++
      (slashed soft ++ [']', 's', 'o', 'f', 't']), by simp⟩
  · exact ⟨start ++ '[' :: (slashed hard ++ [']', 'h', 'a', 'r', 'd', '/', '[']),
      [']', 's', 'o', 'f', 't'], by simp⟩

/-! ## The reader -/

theorem unbordered_initLabel : Separated.Unbordered initLabel :=
  Separated.unbordered_of_tails (by decide)

/-- **The init score is what stands before the first label**, if it does not start with a bracket. -/
theorem readInit_cut {piece : List Char} (hb : ¬['['] <+: piece) (hi : ¬initLabel <:+: piece)
    (rest : List Char) :
    readInit (piece ++ (initLabel ++ rest)) = Level.read .init piece >>= fun a =>
      match rest with
      | '/' :: rest => .ok (a, rest)
      | rest => .ok (a, rest) := by
  have hcut : Separated.cutFirst? initLabel (piece ++ (initLabel ++ rest)) = some (piece, rest) :=
    (Separated.cutFirst?_eq_some_iff (by simp [initLabel]) unbordered_initLabel).mpr ⟨rfl, hi⟩
  unfold readInit
  split
  · -- neither the piece nor the label starts with a bracket
    rename_i heq
    cases piece with
    | nil => cases heq
    | cons c cs =>
      obtain ⟨rfl, -⟩ := List.cons.inj heq
      exact absurd ⟨cs, rfl⟩ hb
  · rewrite [hcut]
    rfl

/-- A numeral before the label is read as the init score. -/
theorem readInit_label {piece : List Char} {a : Level} (h : Level.Readable piece a)
    (rest : List Char) :
    readInit (piece ++ (initLabel ++ rest)) =
      match rest with
      | '/' :: rest => .ok (a, rest)
      | rest => .ok (a, rest) := by
  obtain ⟨hb, -, -, hi⟩ := h.1.not_mem
  rw [readInit_cut (fun hp => hb (hp.subset (by simp)))
    (fun hp => hi (hp.subset (by simp [initLabel]))), Level.read_eq_ok_iff.mpr h]
  rfl

theorem readInit_append {start : List Char} {a : Level}
    (h : StartSpells Level.Readable start a) (rest : List Char) :
    readInit (start ++ '[' :: rest) = .ok (a, '[' :: rest) := by
  cases h with
  | none => rfl
  | label h =>
    rw [List.append_assoc]
    exact readInit_label h ('[' :: rest)
  | slash h =>
    rw [List.append_assoc]
    exact readInit_label h ('/' :: '[' :: rest)

theorem startSpells_of_readInit {text rest : List Char} {a : Level}
    (h : readInit text = .ok (a, rest)) :
    ∃ start, StartSpells Level.Readable start a ∧ text = start ++ rest := by
  unfold readInit at h
  split at h
  · cases h
    exact ⟨[], .none, rfl⟩
  · split at h
    · cases h
    · rename_i piece after hcut
      obtain ⟨init, hi, h⟩ := bind_eq_ok_iff.mp h
      have hp := Level.read_eq_ok_iff.mp hi
      rw [Separated.eq_of_cutFirst? hcut]
      split at h <;> cases h
      · exact ⟨_, .slash hp, by simp [initLabel]⟩
      · exact ⟨_, .label hp, rfl⟩

theorem unbordered_middle : Separated.Unbordered middle :=
  Separated.unbordered_of_tails (by decide)

/-- **The texts between the brackets** are those on both sides of the first mark between them. -/
theorem bodies_eq_ok_iff {text hard soft : List Char} :
    bodies text = .ok (hard, soft) ↔
      text = '[' :: (hard ++ middle ++ (soft ++ ending)) ∧ ¬middle <:+: hard := by
  have hne : middle ≠ [] := by simp [middle]
  constructor
  · intro h
    unfold bodies at h
    split at h
    · split at h
      · cases h
      · rename_i hcut
        split at h
        · cases h
        · rename_i hend
          cases h
          obtain ⟨rfl, hm⟩ := (Separated.cutFirst?_eq_some_iff hne unbordered_middle).mp hcut
          rw [Separated.stripEnd?_eq_some_iff.mp hend, List.append_assoc]
          exact ⟨rfl, hm⟩
    · cases h
  · rintro ⟨rfl, h⟩
    have hcut : Separated.cutFirst? middle (hard ++ (middle ++ (soft ++ ending))) =
        some (hard, soft ++ ending) :=
      (Separated.cutFirst?_eq_some_iff hne unbordered_middle).mpr ⟨rfl, h⟩
    have hend : Separated.stripEnd? ending (soft ++ ending) = some soft :=
      Separated.stripEnd?_eq_some_iff.mpr rfl
    simp only [bodies, List.append_assoc, hcut, hend]

theorem bodies_append {hard : List Char} (h : ']' ∉ hard) (soft : List Char) :
    bodies ('[' :: (hard ++ middle ++ (soft ++ ending))) = .ok (hard, soft) :=
  bodies_eq_ok_iff.mpr ⟨rfl, fun hm => h (hm.subset (by simp [middle]))⟩

theorem eq_of_bodies {text hard soft : List Char} (h : bodies text = .ok (hard, soft)) :
    text = '[' :: (hard ++ middle ++ (soft ++ ending)) :=
  (bodies_eq_ok_iff.mp h).1

/-- Readable levels between slashes are the pieces of their group. -/
theorem pieces_of_readable {items : List (List Char)} {as : List Level}
    (h : List.Forall₂ Level.Readable items as) :
    pieces (slashed items) = items ∧ ']' ∉ slashed items := by
  have hm : ∀ i ∈ items, i ≠ [] ∧ '/' ∉ i ∧ ']' ∉ i :=
    ((List.forall₂_and_left _ _).mp (h.imp fun i a ha =>
      ⟨⟨ha.1.ne_nil, ha.1.not_mem.2.2.1, ha.1.not_mem.2.1⟩, ha⟩)).1
  refine ⟨pieces_slashed fun i hi => ⟨(hm i hi).1, (hm i hi).2.1⟩, fun hc => ?_⟩
  rcases mem_slashed hc with h | ⟨i, hi, hc⟩
  · cases h
  · exact (hm i hi).2.2 hc

/-- **The reader of scores** accepts exactly the texts of scores in numerals that keep to the digit
limit. -/
theorem read_eq_ok_iff {text : List Char} {s : Score} :
    read text = .ok s ↔ Spells Level.Readable text s := by
  simp only [read, bind_eq_ok_iff, Level.readAll_eq_ok_iff, Prod.exists, Except.ok.injEq]
  constructor
  · -- Each reader cuts the text where it says, so the parts put together are the text.
    rintro ⟨a, rest, hi, hard, soft, hb, hs, hhs, ss, hss, rfl⟩
    obtain ⟨start, hst, rfl⟩ := startSpells_of_readInit hi
    refine ⟨start, pieces hard, pieces soft, hst, hhs, hss, ?_⟩
    rw [eq_of_bodies hb, slashed_pieces, slashed_pieces]
    rfl
  · -- The first label, the first `]hard/[` and the slashes are those of the grammar, because no
    -- numeral holds any of their first characters.
    rintro ⟨start, hard, soft, hst, hhs, hss, rfl⟩
    obtain ⟨hph, hbh⟩ := pieces_of_readable hhs
    have hps := (pieces_of_readable hss).1
    refine ⟨s.init, _, readInit_append hst _, slashed hard, slashed soft, bodies_append hbh _,
      s.hard, ?_, s.soft, ?_, rfl⟩
    · rwa [hph]
    · rwa [hps]

end Score

/-! ## Rejections -/

/-- **What a rejection says of a text**: a part of it is to blame, and not for a count, or it has a
run of digits beyond the limit. -/
def Rejection.Blames (text : List Char) : Rejection → Prop
  | .segment token reason =>
    token <:+: text ∧ ∀ group expected actual, reason ≠ .wrongCount group expected actual
  | .tooManyDigits => ¬Numeral.KeepsLimit text

theorem Rejection.Blames.of_infix {part text : List Char} {r : Rejection} (h : r.Blames part)
    (hp : part <:+: text) : r.Blames text := by
  cases r with
  | segment token reason => exact ⟨h.1.trans hp, h.2⟩
  | tooManyDigits => exact fun hk => h (hk.of_infix hp)

theorem Level.refusesWith_read (place : Place) (piece : List Char) :
    RefusesWith (Rejection.Blames piece) (Level.read place piece) := by
  unfold Level.read
  cases hn : Numeral.ofSigned? piece with
  | none => exact .error ⟨List.infix_rfl, by simp⟩
  | some n =>
    have hs := Numeral.ofSigned?_eq_some_iff.mp hn
    dsimp only
    split
    · rename_i hlt
      exact .error fun hk => absurd (hk.digits_le hs) (Nat.not_le.mpr hlt)
    · cases Level.ofInt? n with
      | none => exact .error ⟨List.infix_rfl, by simp⟩
      | some a => exact .ok a

theorem Level.refusesWith_readAll {group : Group} {index : Nat} {pieces : List (List Char)}
    {text : List Char} (h : ∀ piece ∈ pieces, piece <:+: text) :
    RefusesWith (Rejection.Blames text) (Level.readAll group index pieces) := by
  -- Induction on the pieces: the first that is no level is blamed, and it is part of the text.
  induction pieces generalizing index with
  | nil => exact .ok []
  | cons piece rest ih =>
    refine .bind ?_ fun a _ => .bind (ih fun p hp => h p (by simp [hp])) fun as _ => .ok (a :: as)
    exact (Level.refusesWith_read _ piece).mono fun r hr => hr.of_infix (h piece (by simp))

namespace Score

theorem refusesWith_readInit (text : List Char) :
    RefusesWith (Rejection.Blames text) (readInit text) := by
  unfold readInit
  split
  · exact .ok _
  · split
    · exact .error ⟨List.infix_rfl, by simp⟩
    · rename_i piece after hcut
      have hp : piece <:+: text := ⟨[], initLabel ++ after, by simp [Separated.eq_of_cutFirst? hcut]⟩
      refine .bind ((Level.refusesWith_read .init piece).mono fun r hr => hr.of_infix hp)
        fun a _ => ?_
      split <;> exact .ok _

theorem refusesWith_bodies (text : List Char) :
    RefusesWith (Rejection.Blames text) (bodies text) := by
  unfold bodies
  split
  · split
    · exact .error ⟨List.infix_rfl, by simp⟩
    · split
      · exact .error ⟨List.infix_rfl, by simp⟩
      · exact .ok _
  · exact .error ⟨List.infix_rfl, by simp⟩

theorem infix_of_mem_pieces {body piece : List Char} (h : piece ∈ pieces body) :
    piece <:+: body := by
  have := infix_slashed h
  rwa [slashed_pieces] at this

/-- **A rejection by the reader** blames a part of the text, or the text has a run of digits beyond
the limit. -/
theorem refusesWith_read (text : List Char) : RefusesWith (Rejection.Blames text) (read text) := by
  refine .bind (refusesWith_readInit text) fun ⟨a, rest⟩ hi => ?_
  -- What the readers hand on are parts of the text, so a part of them is one too.
  obtain ⟨start, -, rfl⟩ := startSpells_of_readInit hi
  have hr : rest <:+: start ++ rest := (List.suffix_append _ _).isInfix
  refine .bind ((refusesWith_bodies rest).mono fun r h => h.of_infix hr) fun ⟨hard, soft⟩ hb => ?_
  have hh : hard <:+: start ++ rest := List.IsInfix.trans
    ⟨['['], middle ++ (soft ++ ending), by simp [eq_of_bodies hb]⟩ hr
  have hs : soft <:+: start ++ rest := List.IsInfix.trans
    ⟨'[' :: (hard ++ middle), ending, by simp [eq_of_bodies hb]⟩ hr
  refine .bind (Level.refusesWith_readAll fun p hp => (infix_of_mem_pieces hp).trans hh)
    fun hs' _ => .bind (Level.refusesWith_readAll fun p hp => (infix_of_mem_pieces hp).trans hs)
      fun ss _ => .ok _

end Score

end Bendable
