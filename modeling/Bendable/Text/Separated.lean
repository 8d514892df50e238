/-!
# Separated text

Cutting a text at a separating character, at the first occurrence of a longer mark, before an
ending, or inside the blanks at both ends.

## Main definitions

* `splitAt c text`: the pieces between the occurrences of `c`, at least one
* `cutFirst? mark text`: what stands before and after the first occurrence of `mark`
* `stripEnd? ending text`: what stands before `ending`
* `trim blank text`: the text between the blanks at its ends

## Main results

* `splitAt_append_cons`: a piece without the separator comes first
* `eq_of_cutFirst?`, `stripEnd?_eq_some_iff`: the parts make up the text
-/

namespace Bendable.Separated

/-- The pieces of a text between the occurrences of a character; a text without it is one
piece. -/
def splitAt (c : Char) : List Char → List (List Char)
  | [] => [[]]
  | d :: rest =>
    if d = c then [] :: splitAt c rest
    else
      match splitAt c rest with
      | [] => [[d]]
      | piece :: pieces => (d :: piece) :: pieces

/-- What stands before and after the first occurrence of a mark. -/
def cutFirst? (mark : List Char) : List Char → Option (List Char × List Char)
  | [] => if mark = [] then some ([], []) else none
  | c :: rest =>
    if mark.isPrefixOf (c :: rest) then some ([], (c :: rest).drop mark.length)
    else (cutFirst? mark rest).map fun (before, after) => (c :: before, after)

/-- What stands before the ending of a text. -/
def stripEnd? (ending text : List Char) : Option (List Char) :=
  if ending.isSuffixOf text then some (text.take (text.length - ending.length)) else none

/-- A text without the blanks at both of its ends. -/
def trim (blank : Char → Bool) (text : List Char) : List Char :=
  ((text.dropWhile blank).reverse.dropWhile blank).reverse

/-! ## What the pieces say of the text -/

/-- There is always a piece. -/
theorem splitAt_ne_nil (c : Char) (text : List Char) : splitAt c text ≠ [] := by
  cases text with
  | nil => simp [splitAt]
  | cons d rest =>
    unfold splitAt
    split
    · simp
    · split <;> simp

/-- A text without the separator is one piece. -/
theorem splitAt_of_not_mem {c : Char} {text : List Char} (h : c ∉ text) :
    splitAt c text = [text] := by
  induction text with
  | nil => rfl
  | cons d rest ih =>
    rw [List.mem_cons, not_or] at h
    simp [splitAt, Ne.symm h.1, ih h.2]

/-- A piece without the separator, the separator and a text: the piece comes first. -/
theorem splitAt_append_cons {c : Char} {piece : List Char} (h : c ∉ piece) (text : List Char) :
    splitAt c (piece ++ c :: text) = piece :: splitAt c text := by
  induction piece with
  | nil => simp [splitAt]
  | cons d rest ih =>
    rw [List.mem_cons, not_or] at h
    simp [splitAt, Ne.symm h.1, ih h.2]

/-- What is cut off at a mark stands before and after it. -/
theorem eq_of_cutFirst? {mark text before after : List Char}
    (h : cutFirst? mark text = some (before, after)) : text = before ++ mark ++ after := by
  induction text generalizing before with
  | nil =>
    unfold cutFirst? at h
    split at h <;> simp_all
  | cons c rest ih =>
    unfold cutFirst? at h
    split at h
    · rename_i hp
      obtain ⟨t, ht⟩ := List.isPrefixOf_iff_prefix.1 hp
      simp only [Option.some.injEq, Prod.mk.injEq] at h
      obtain ⟨rfl, rfl⟩ := h
      rw [← ht]
      simp
    · obtain ⟨⟨b, a⟩, hr, hc⟩ := Option.map_eq_some_iff.1 h
      simp only [Prod.mk.injEq] at hc
      obtain ⟨rfl, rfl⟩ := hc
      simp [ih hr]

/-- What stands before an ending, followed by it, is the text. -/
theorem stripEnd?_eq_some_iff {ending text before : List Char} :
    stripEnd? ending text = some before ↔ text = before ++ ending := by
  unfold stripEnd?
  split
  · rename_i h
    obtain ⟨t, rfl⟩ := List.isSuffixOf_iff_suffix.1 h
    simp
  · rename_i h
    constructor
    · intro h; cases h
    · rintro rfl
      exact absurd (List.isSuffixOf_iff_suffix.2 ⟨before, rfl⟩) h

end Bendable.Separated
