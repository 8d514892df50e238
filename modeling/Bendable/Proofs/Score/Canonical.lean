import Bendable.Proofs.Score.FirstFault

/-!
# Texts that are written as they were read

The reader of scores takes more spellings than the writer uses: plus signs, leading zeros, a zero
with a minus sign, an init score of zero, and a slash behind the label. What is read is written back
as it was exactly if none of them occurs. A text is laid out in one way only, and its canonical text
is laid out too, so the two are the same only if they are the same token by token; and a token is
the one that its level is written as only if it is plain.

## Main definitions

* `Score.LaidOut text start hard soft`: the parts of a text in front of and between its brackets
* `Score.PlainStart start`: no init score, or a plain one that is not zero, with its label alone

## Main results

* `Score.LaidOut.unique`: a text that is read is laid out in one way only
* `Score.canonical_eq_iff_plain`: when a canonical text is the text that was read
* `Score.toString_parse_eq_iff_plain`: the fixed points of parsing and writing
-/

namespace Bendable.Score

/-! ## Layouts -/

/-- **The layout of a text**: what stands before the first bracket, between the brackets of the hard
levels up to the first mark that closes them, and between the brackets of the soft levels. -/
structure LaidOut (text start hard soft : List Char) : Prop where
  opening : ∃ first, Opening start first
  unmarked : ¬[']', 'h', 'a', 'r', 'd', '/', '['] <:+: hard
  text_eq : text = start ++ '[' :: (hard ++ [']', 'h', 'a', 'r', 'd', '/', '['] ++
    (soft ++ [']', 's', 'o', 'f', 't']))

/-- A start in readable numerals is an opening: they hold neither a bracket nor a letter. -/
theorem StartSpells.exists_opening {start : List Char} {a : Level}
    (h : StartSpells Level.Readable start a) : ∃ first, Opening start first := by
  have hp : ∀ {piece : List Char}, Level.Readable piece a →
      ¬['['] <+: piece ∧ ¬['i', 'n', 'i', 't'] <:+: piece := by
    intro piece hr
    obtain ⟨hb, -, -, hi⟩ := hr.1.not_mem
    exact ⟨fun hpre => hb (hpre.subset (by simp)), fun hinf => hi (hinf.subset (by simp))⟩
  cases h with
  | none => exact ⟨_, .none⟩
  | label hr => exact ⟨_, .label (hp hr).1 (hp hr).2⟩
  | slash hr => exact ⟨_, .slash (hp hr).1 (hp hr).2⟩

/-- The text of a score in readable numerals is laid out. -/
theorem laidOut_of_readable {start : List Char} {hard soft : List (List Char)} {a : Level}
    {hs : List Level} (hi : StartSpells Level.Readable start a)
    (hh : List.Forall₂ Level.Readable hard hs) :
    LaidOut (start ++ '[' :: (slashed hard ++ [']', 'h', 'a', 'r', 'd', '/', '['] ++
      (slashed soft ++ [']', 's', 'o', 'f', 't']))) start (slashed hard) (slashed soft) where
  opening := hi.exists_opening
  unmarked := fun hm => (pieces_of_readable hh).2 (hm.subset (by simp))
  text_eq := rfl

section Unique

variable {text start hard soft start' hard' soft' : List Char} {s : Score}

/-- **A text that is read is laid out in one way only**: the reader finds the bracket of the hard
levels and the mark that closes them. -/
theorem LaidOut.unique (hr : read text = .ok s) (h : LaidOut text start hard soft)
    (h' : LaidOut text start' hard' soft') : start = start' ∧ hard = hard' ∧ soft = soft' := by
  obtain ⟨⟨a, rest⟩, hi, -⟩ := bind_eq_ok_iff.mp hr
  -- Behind the opening the reader goes on from the bracket.
  have hrest : ∀ {start hard soft}, LaidOut text start hard soft →
      rest = '[' :: (hard ++ middle ++ (soft ++ ending)) := by
    intro start hard soft hl
    obtain ⟨first, ho⟩ := hl.opening
    rw [hl.text_eq, readInit_opening ho] at hi
    obtain ⟨as, -, hi⟩ := bind_eq_ok_iff.mp hi
    cases hi
    rfl
  have hbodies : bodies rest = .ok (hard, soft) := bodies_eq_ok_iff.mpr ⟨hrest h, h.unmarked⟩
  have hbodies' : bodies rest = .ok (hard', soft') := bodies_eq_ok_iff.mpr ⟨hrest h', h'.unmarked⟩
  obtain ⟨rfl, rfl⟩ : hard = hard' ∧ soft = soft' := by
    rw [hbodies] at hbodies'
    exact Prod.mk.inj (Except.ok.inj hbodies')
  -- What is left of the text is the same, so the starts are.
  have ht := h.text_eq.symm.trans h'.text_eq
  exact ⟨List.append_cancel_right ht, rfl, rfl⟩

end Unique

/-! ## Plain texts -/

/-- **A plain start**: nothing, or a plain numeral other than zero with the label of the init score
and no slash. -/
def PlainStart (start : List Char) : Prop :=
  start = [] ∨ ∃ token, start = token ++ ['i', 'n', 'i', 't'] ∧ Numeral.Plain token ∧ token ≠ ['0']

/-- A level is written as the one of its numerals that is plain. -/
theorem levelText_eq_iff_plain {piece : List Char} {a : Level} (h : Level.Readable piece a) :
    levelText a = piece ↔ Numeral.Plain piece :=
  h.1.ofInt_eq_iff

/-- Levels are written as their numerals exactly if all of these are plain. -/
theorem map_levelText_eq_iff_plain {items : List (List Char)} {as : List Level}
    (h : List.Forall₂ Level.Readable items as) :
    as.map levelText = items ↔ ∀ item ∈ items, Numeral.Plain item := by
  induction h with
  | nil => simp
  | cons ha _ ih =>
    rw [List.map_cons, List.cons.injEq, List.forall_mem_cons, levelText_eq_iff_plain ha, ih]

/-- **An init score is written as its start** exactly if the start is plain. -/
theorem initText_eq_iff_plain {start : List Char} {a : Level}
    (h : StartSpells Level.Readable start a) : initText a = start ↔ PlainStart start := by
  constructor
  · rintro rfl
    unfold initText
    split
    · exact .inl rfl
    · rename_i h0
      -- Only zero is written as a zero.
      exact .inr ⟨levelText a, rfl, Numeral.plain_ofInt a.val, fun hz =>
        h0 ((@levelText_inj a 0).mp hz)⟩
  · intro hp
    cases h with
    | none => rfl
    | @label piece _ hr =>
      rcases hp with hnil | ⟨token, heq, hplain, h0⟩
      · exact absurd hnil (by simp)
      · obtain rfl : piece = token := List.append_cancel_right heq
        have hpiece : levelText a = piece := (levelText_eq_iff_plain hr).mpr hplain
        have ha : a ≠ 0 := by
          rintro rfl
          exact h0 hpiece.symm
        rw [initText, if_neg ha, hpiece]
        rfl
    | slash hr =>
      -- The slash is the last character, and a plain start has none there.
      rcases hp with hnil | ⟨token, heq, -, -⟩
      · exact absurd hnil (by simp)
      · exact absurd (congrArg List.getLast? heq) (by simp)

/-! ## Fixed points -/

/-- The canonical text is laid out as its levels are written. -/
theorem laidOut_canonical (s : Score) : LaidOut s.canonical (initText s.init)
    (slashed (s.hard.map levelText)) (slashed (s.soft.map levelText)) := by
  rw [canonical_eq]
  exact laidOut_of_readable (startSpells_initText readable_levelText s.init)
    (forall₂_levelText readable_levelText s.hard)

/-- **The canonical text of the score that was read** is the text itself exactly if its start and
its pieces are plain. -/
theorem canonical_eq_iff_plain {text start hard soft : List Char} {s : Score}
    (hr : read text = .ok s) (hl : LaidOut text start hard soft) :
    s.canonical = text ↔
      PlainStart start ∧ ∀ piece ∈ pieces hard ++ pieces soft, Numeral.Plain piece := by
  obtain ⟨start', hards, softs, hi, hh, hs, ht⟩ := read_eq_ok_iff.mp hr
  -- The text is laid out as its numerals are, and in no other way.
  obtain ⟨rfl, rfl, rfl⟩ := hl.unique hr (ht ▸ laidOut_of_readable hi hh)
  have hph : pieces (slashed hards) = hards := (pieces_of_readable hh).1
  have hps : pieces (slashed softs) = softs := (pieces_of_readable hs).1
  rw [hph, hps, List.forall_mem_append, ← map_levelText_eq_iff_plain hh,
    ← map_levelText_eq_iff_plain hs, ← initText_eq_iff_plain hi]
  constructor
  · -- If the texts are the same, so are their parts, and the pieces of these.
    intro hc
    obtain ⟨hstart, hhard, hsoft⟩ := (hc ▸ laidOut_canonical s).unique hr hl
    refine ⟨hstart, ?_, ?_⟩
    · rw [← (pieces_slashed_levelText s.hard).1, hhard, hph]
    · rw [← (pieces_slashed_levelText s.soft).1, hsoft, hps]
  · rintro ⟨hinit, hhard, hsoft⟩
    rw [canonical_eq, hinit, hhard, hsoft, ht]

/-- **The fixed points of parsing and writing.** A text that is parsed as a score is laid out, and
however it is laid out, it is the text that the score is written as exactly if its levels are plain
numerals and its init score is a plain numeral other than zero, or missing. -/
theorem toString_parse_eq_iff_plain {text : String} {s : Score}
    (h : parse (.string text) none none = .ok s) :
    (∃ start hard soft, LaidOut text.toList start hard soft) ∧
      ∀ start hard soft, LaidOut text.toList start hard soft →
        (toString s = text ↔
          PlainStart start ∧ ∀ piece ∈ pieces hard ++ pieces soft, Numeral.Plain piece) := by
  have hspells := parse_eq_ok_iff.mp h
  have hr : read text.toList = .ok s := read_eq_ok_iff.mpr hspells
  constructor
  · obtain ⟨start, hards, softs, hi, hh, -, ht⟩ := hspells
    exact ⟨start, slashed hards, slashed softs, ht ▸ laidOut_of_readable hi hh⟩
  · intro start hard soft hl
    rw [← canonical_eq_iff_plain hr hl]
    change String.ofList s.canonical = text ↔ _
    constructor
    · rintro rfl
      rw [String.toList_ofList]
    · intro hc
      rw [hc, String.ofList_toList]

/-- A zero with a minus sign is written without it; the text without it stays as it is. -/
theorem toString_parse_minus_zero :
    let s : Score := ⟨Level.wrap (-7), [Level.wrap 10, 0], []⟩
    (parse (.string "-7init[10/-0]hard/[]soft") none none = .ok s ∧
        toString s ≠ "-7init[10/-0]hard/[]soft") ∧
      parse (.string "-7init[10/0]hard/[]soft") none none = .ok s ∧
        toString s = "-7init[10/0]hard/[]soft" := by
  intro s
  have hsigned : parse (.string "-7init[10/-0]hard/[]soft") none none = .ok s := rfl
  have hplain : parse (.string "-7init[10/0]hard/[]soft") none none = .ok s := rfl
  have ho : ∃ first, Opening (['-', '7'] ++ ['i', 'n', 'i', 't']) first :=
    ⟨_, .label (by decide) (by decide)⟩
  refine ⟨⟨hsigned, fun hs => ?_⟩, hplain, ?_⟩
  · have hl : LaidOut "-7init[10/-0]hard/[]soft".toList _ ['1', '0', '/', '-', '0'] [] :=
      ⟨ho, by decide, rfl⟩
    have hzero := (((toString_parse_eq_iff_plain hsigned).2 _ _ _ hl).mp hs).2 ['-', '0']
      (by decide)
    cases hzero with
    | unsigned _ hd => exact absurd (hd '-' (by simp)) (by decide)
    | minus h0 _ => exact h0 rfl
  · have hl : LaidOut "-7init[10/0]hard/[]soft".toList _ ['1', '0', '/', '0'] [] :=
      ⟨ho, by decide, rfl⟩
    refine ((toString_parse_eq_iff_plain hplain).2 _ _ _ hl).mpr ⟨.inr ⟨_, rfl, ?_, ?_⟩, ?_⟩
    · exact Numeral.plain_ofInt (-7)
    · simp
    · have hpieces : pieces ['1', '0', '/', '0'] ++ pieces [] = [['1', '0'], ['0']] := rfl
      rw [hpieces, List.forall_mem_cons, List.forall_mem_singleton]
      exact ⟨Numeral.plain_ofInt 10, .zero⟩

end Bendable.Score
