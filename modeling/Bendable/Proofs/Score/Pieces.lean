import Mathlib.Data.List.Infix
import Bendable.Score.Reader

/-!
# The pieces of a score text

The levels of a group stand between brackets with slashes between them. Joining the pieces and
splitting the text are inverse to each other as long as no piece is empty or holds a slash, and a
mark is found where it was put as long as its first character does not stand before it.

## Main results

* `Score.slashed_pieces`, `Score.pieces_slashed`: joining and splitting are inverse
* `Separated.cutFirst?_append`: the first occurrence of a mark is the one that was put in
* `Separated.cutFirst?_eq_some_iff`: what is cut off at a mark that cannot overlap itself
* `Separated.append_cons_inj`: a text is split at the first of a character in one way only
-/

namespace Bendable

/-! ## The first occurrence of a mark -/

/-- A mark is found behind a text that does not hold its first character. -/
theorem Separated.cutFirst?_append {c : Char} {before : List Char} (h : c ∉ before)
    (mark after : List Char) :
    cutFirst? (c :: mark) (before ++ (c :: mark ++ after)) = some (before, after) := by
  -- Induction on what stands before: at each of its characters the mark does not even start.
  induction before with
  | nil =>
    have hp : (c :: mark).isPrefixOf (c :: (mark ++ after)) = true :=
      List.isPrefixOf_iff_prefix.mpr (List.prefix_append (c :: mark) after)
    rw [List.nil_append, List.cons_append, cutFirst?, if_pos hp]
    simp
  | cons d rest ih =>
    rw [List.mem_cons, not_or] at h
    have hp : ¬(c :: mark).isPrefixOf (d :: (rest ++ (c :: mark ++ after))) = true := by
      simp [List.isPrefixOf, h.1]
    rw [List.cons_append, cutFirst?, if_neg hp, ih h.2]
    rfl

/-- What stands before the first occurrence of a character, and what stands behind it, can be told
from the whole text. -/
theorem Separated.append_cons_inj {c : Char} {before before' after after' : List Char}
    (h : c ∉ before) (h' : c ∉ before') (he : before ++ c :: after = before' ++ c :: after') :
    before = before' ∧ after = after' := by
  have hcut := cutFirst?_append h [] after
  have hcut' := cutFirst?_append h' [] after'
  rw [List.singleton_append] at hcut hcut'
  rw [he, hcut', Option.some.injEq] at hcut
  exact Prod.mk.inj hcut.symm

/-- **A mark that cannot overlap itself**: none of its endings starts it. -/
def Separated.Unbordered (mark : List Char) : Prop :=
  ∀ part, part <:+ mark → part <+: mark → part = [] ∨ part = mark

theorem Separated.unbordered_of_tails {mark : List Char}
    (h : ∀ part ∈ mark.tails, part <+: mark → part = [] ∨ part = mark) : Unbordered mark :=
  fun part hs => h part ((List.mem_tails _ _).mpr hs)

/-- A mark that cannot overlap itself does not start in a text that does not hold it, even if the
mark itself follows. -/
theorem Separated.Unbordered.not_prefix {mark : List Char} (hm : Unbordered mark)
    {before : List Char} (hne : before ≠ []) (h : ¬mark <:+: before) (after : List Char) :
    ¬mark <+: before ++ (mark ++ after) := by
  intro hp
  rcases List.prefix_or_prefix_of_prefix hp (List.prefix_append before _) with hb | ⟨part, hb⟩
  · exact h hb.isInfix
  · -- What the mark has beyond the text is an ending of it and starts it.
    rw [← hb, List.prefix_append_right_inj, hb] at hp
    have hps : part <:+ mark := ⟨before, hb⟩
    have hpp : part <+: mark :=
      List.prefix_of_prefix_length_le hp (List.prefix_append mark after) hps.length_le
    rcases hm part hps hpp with rfl | rfl
    · exact h ⟨[], [], by simp [← hb]⟩
    · exact hne (List.append_left_eq_self.mp hb)

theorem Separated.not_infix_of_cutFirst? {mark text before after : List Char} (hne : mark ≠ [])
    (h : cutFirst? mark text = some (before, after)) : ¬mark <:+: before := by
  induction text generalizing before with
  | nil =>
    rw [cutFirst?, if_neg hne] at h
    cases h
  | cons c rest ih =>
    rw [cutFirst?] at h
    split at h
    · -- the mark starts here: nothing stands before it
      cases h
      rwa [List.infix_nil]
    · rename_i hp
      obtain ⟨⟨b, a⟩, hr, hc⟩ := Option.map_eq_some_iff.mp h
      cases hc
      rw [List.infix_cons_iff, not_or]
      refine ⟨fun hpre => hp ?_, ih hr⟩
      have hrest : rest = b ++ (mark ++ after) := by
        rw [eq_of_cutFirst? hr, List.append_assoc]
      rw [List.isPrefixOf_iff_prefix, hrest]
      exact hpre.trans (List.prefix_append (c :: b) (mark ++ after))

theorem Separated.Unbordered.cutFirst?_append {mark : List Char} (hne : mark ≠ [])
    (hm : Unbordered mark) {before : List Char} (h : ¬mark <:+: before) (after : List Char) :
    cutFirst? mark (before ++ (mark ++ after)) = some (before, after) := by
  induction before with
  | nil =>
    obtain ⟨c, tail, rfl⟩ := List.exists_cons_of_ne_nil hne
    have hp : (c :: tail).isPrefixOf (c :: (tail ++ after)) = true :=
      List.isPrefixOf_iff_prefix.mpr (List.prefix_append (c :: tail) after)
    rw [List.nil_append, List.cons_append, cutFirst?, if_pos hp]
    simp
  | cons d rest ih =>
    have hp : ¬mark.isPrefixOf (d :: (rest ++ (mark ++ after))) = true := by
      rw [List.isPrefixOf_iff_prefix]
      exact hm.not_prefix (List.cons_ne_nil d rest) h after
    have hrest : ¬mark <:+: rest := fun hi => h (hi.trans (List.suffix_cons d rest).isInfix)
    rw [List.cons_append, cutFirst?, if_neg hp, ih hrest]
    rfl

/-- **What is cut off at a mark**: the text holds the mark there and not before. -/
theorem Separated.cutFirst?_eq_some_iff {mark text before after : List Char} (hne : mark ≠ [])
    (hm : Unbordered mark) :
    cutFirst? mark text = some (before, after) ↔
      text = before ++ (mark ++ after) ∧ ¬mark <:+: before := by
  constructor
  · intro h
    refine ⟨?_, not_infix_of_cutFirst? hne h⟩
    rw [eq_of_cutFirst? h, List.append_assoc]
  · rintro ⟨rfl, h⟩
    exact hm.cutFirst?_append hne h after

namespace Score

/-! ## Pieces with slashes between them -/

theorem slashed_cons (item : List Char) {rest : List (List Char)} (h : rest ≠ []) :
    slashed (item :: rest) = item ++ '/' :: slashed rest := by
  cases rest with
  | nil => exact absurd rfl h
  | cons _ _ => rfl

/-- Behind the first item there is nothing, or a slash and the others. -/
theorem slashed_cons_append (item : List Char) (rest : List (List Char)) :
    ∃ tail, slashed (item :: rest) = item ++ tail ∧ slashed rest = tail.drop 1 := by
  cases rest with
  | nil => exact ⟨[], (List.append_nil item).symm, rfl⟩
  | cons next rest => exact ⟨'/' :: slashed (next :: rest), rfl, rfl⟩

theorem mem_slashed {items : List (List Char)} {c : Char} (h : c ∈ slashed items) :
    c = '/' ∨ ∃ item ∈ items, c ∈ item := by
  induction items with
  | nil => cases h
  | cons item rest ih =>
    by_cases hr : rest = []
    · -- the last item: no slash after it
      subst hr
      exact .inr ⟨item, by simp, h⟩
    · rw [slashed_cons item hr, List.mem_append, List.mem_cons] at h
      rcases h with h | rfl | h
      · exact .inr ⟨item, by simp, h⟩
      · exact .inl rfl
      · rcases ih h with rfl | ⟨i, hi, hc⟩
        · exact .inl rfl
        · exact .inr ⟨i, by simp [hi], hc⟩

theorem infix_slashed {items : List (List Char)} {item : List Char} (h : item ∈ items) :
    item <:+: slashed items := by
  induction items with
  | nil => cases h
  | cons first rest ih =>
    by_cases hr : rest = []
    · subst hr
      rw [List.mem_singleton.mp h]
      exact List.infix_rfl
    · rw [slashed_cons first hr]
      rcases List.mem_cons.mp h with rfl | h
      · exact (List.prefix_append _ _).isInfix
      · exact (ih h).trans ((List.suffix_cons '/' _).trans (List.suffix_append _ _)).isInfix

theorem slashed_ne_nil {items : List (List Char)} (hne : items ≠ []) (h : ∀ i ∈ items, i ≠ []) :
    slashed items ≠ [] := by
  obtain ⟨item, hi⟩ := List.exists_mem_of_ne_nil _ hne
  intro hs
  have := infix_slashed hi
  rw [hs, List.infix_nil] at this
  exact h item hi this

/-- Joining what was split gives the text back. -/
theorem slashed_splitAt (text : List Char) : slashed (Separated.splitAt '/' text) = text := by
  induction text with
  | nil => rfl
  | cons d rest ih =>
    have hne := Separated.splitAt_ne_nil '/' rest
    rw [Separated.splitAt]
    split
    · -- a slash: an empty piece in front of the others
      rename_i hd
      rw [slashed_cons [] hne, ih, hd]
      rfl
    · -- another character: the first piece grows by it
      cases hs : Separated.splitAt '/' rest with
      | nil => exact absurd hs hne
      | cons piece pieces =>
        rw [hs] at ih
        cases pieces with
        | nil => simpa [slashed] using ih
        | cons _ _ => simpa [slashed] using ih

/-- Splitting what was joined gives the pieces back, if none of them holds a slash. -/
theorem splitAt_slashed {items : List (List Char)} (hne : items ≠ [])
    (h : ∀ i ∈ items, '/' ∉ i) : Separated.splitAt '/' (slashed items) = items := by
  induction items with
  | nil => exact absurd rfl hne
  | cons item rest ih =>
    have hi : '/' ∉ item := h item (by simp)
    by_cases hr : rest = []
    · subst hr
      exact Separated.splitAt_of_not_mem hi
    · rw [slashed_cons item hr, Separated.splitAt_append_cons hi,
        ih hr fun i hm => h i (by simp [hm])]

theorem slashed_pieces (body : List Char) : slashed (pieces body) = body := by
  unfold pieces
  split
  · rename_i h
    rw [h]
    rfl
  · exact slashed_splitAt body

theorem pieces_slashed {items : List (List Char)} (h : ∀ i ∈ items, i ≠ [] ∧ '/' ∉ i) :
    pieces (slashed items) = items := by
  by_cases hne : items = []
  · subst hne
    rfl
  · -- Empty brackets hold no pieces, so no piece may be the empty text.
    rw [pieces, if_neg (slashed_ne_nil hne fun i hi => (h i hi).1)]
    exact splitAt_slashed hne fun i hi => (h i hi).2

end Score

end Bendable
