import Mathlib.Data.List.TakeWhile
import Bendable.Settings.PlainFile
import Bendable.Proofs.Settings.File

/-!
# The loader of plain files

The loader cuts a file into its lines and takes the assignment of each, so what plain lines assign
is what it reads. It is one of the loaders that read plain lines, whatever it does with others.

## Main results

* `Separated.exists_trim`, `Separated.trim_append`: a text and its trimmed part
* `PlainFile.assignment?_plain`: the assignment of a plain line
* `PlainFile.readsPlainLines_load`: the loader reads plain lines
-/

namespace Bendable

/-! ## Trimmed texts -/

namespace Separated

variable {blank : Char → Bool}

/-- Blanks in front of a text that does not start with one are dropped. -/
theorem dropWhile_blanks_append {front text : List Char} (hf : ∀ c ∈ front, blank c = true)
    (ht : ∀ c ∈ text.head?, blank c = false) : (front ++ text).dropWhile blank = text := by
  rw [List.dropWhile_append_of_pos hf]
  cases text with
  | nil => rfl
  | cons c rest =>
    have hc : ¬ blank c = true := by simp [ht c rfl]
    exact List.dropWhile_cons_of_neg hc

theorem head_dropWhile (text : List Char) :
    ∀ c ∈ (text.dropWhile blank).head?, blank c = false := by
  intro c hc
  have hnot := List.head?_dropWhile_not blank text
  rw [Option.mem_def.mp hc] at hnot
  simpa using hnot

/-- **What is trimmed** is the part between blanks at both ends. -/
theorem trim_append {front text back : List Char} (hf : ∀ c ∈ front, blank c = true)
    (ht : IsTrimmed blank text) (hb : ∀ c ∈ back, blank c = true) :
    trim blank (front ++ text ++ back) = text := by
  unfold trim
  cases htext : text with
  | nil =>
    have hall : ∀ c ∈ front ++ back, blank c = true := by
      intro c hc
      exact (List.mem_append.mp hc).elim (hf c) (hb c)
    rw [List.append_nil, List.dropWhile_eq_nil_iff.mpr hall]
    rfl
  | cons c rest =>
    rw [← htext, List.append_assoc, dropWhile_blanks_append hf, List.reverse_append,
      dropWhile_blanks_append, List.reverse_reverse]
    · simpa using hb
    · rw [List.head?_reverse]
      exact ht.last
    · rw [htext] at ht ⊢
      exact ht.head

/-- A text is cut at the blanks of its end as its reverse is at those of its front. -/
theorem dropWhile_reverse_append (blank : Char → Bool) (text : List Char) :
    (text.reverse.dropWhile blank).reverse ++ (text.reverse.takeWhile blank).reverse = text := by
  rw [← List.reverse_append, List.takeWhile_append_dropWhile, List.reverse_reverse]

theorem blank_of_mem_takeWhile_reverse {text : List Char} :
    ∀ c ∈ (text.reverse.takeWhile blank).reverse, blank c = true :=
  fun _ hc => List.mem_takeWhile_imp (List.mem_reverse.mp hc)

/-- **A text is its trimmed part between blanks.** -/
theorem exists_trim (blank : Char → Bool) (text : List Char) :
    ∃ front back, (∀ c ∈ front, blank c = true) ∧ (∀ c ∈ back, blank c = true) ∧
      text = front ++ trim blank text ++ back ∧ IsTrimmed blank (trim blank text) := by
  have hmid : trim blank text ++ ((text.dropWhile blank).reverse.takeWhile blank).reverse =
      text.dropWhile blank := dropWhile_reverse_append blank (text.dropWhile blank)
  refine ⟨text.takeWhile blank, ((text.dropWhile blank).reverse.takeWhile blank).reverse,
    fun c hc => List.mem_takeWhile_imp hc, blank_of_mem_takeWhile_reverse, ?_, ?_, ?_⟩
  · rw [List.append_assoc, hmid, List.takeWhile_append_dropWhile]
  · -- what is left starts where the blanks in front end
    intro c hc
    refine head_dropWhile text c ?_
    rw [← hmid, List.head?_append, Option.mem_def.mp hc]
    rfl
  · rw [trim, List.getLast?_reverse]
    exact head_dropWhile _

/-- Blanks around a text do not count when it is trimmed. -/
theorem trim_surround {front back : List Char} (hf : ∀ c ∈ front, blank c = true) (text : List Char)
    (hb : ∀ c ∈ back, blank c = true) : trim blank (front ++ text ++ back) = trim blank text := by
  obtain ⟨front', back', hf', hb', htext, ht⟩ := exists_trim blank text
  have hfront : ∀ c ∈ front ++ front', blank c = true :=
    fun c hc => (List.mem_append.mp hc).elim (hf c) (hf' c)
  have hback : ∀ c ∈ back' ++ back, blank c = true :=
    fun c hc => (List.mem_append.mp hc).elim (hb' c) (hb c)
  have hall : front ++ text ++ back = front ++ front' ++ trim blank text ++ (back' ++ back) := by
    conv => lhs; rw [htext]
    simp only [List.append_assoc]
  rw [hall, trim_append hfront ht hback]

theorem trim_dropWhile (text : List Char) :
    trim blank (text.dropWhile blank) = trim blank text := by
  have hfront : ∀ c ∈ text.takeWhile blank, blank c = true := fun c hc => List.mem_takeWhile_imp hc
  rw [← trim_surround hfront (text.dropWhile blank) (List.forall_mem_nil _), List.append_nil,
    List.takeWhile_append_dropWhile]

theorem trim_dropWhile_reverse (text : List Char) :
    trim blank (text.reverse.dropWhile blank).reverse = trim blank text := by
  rw [← trim_surround (List.forall_mem_nil _) (text.reverse.dropWhile blank).reverse
    blank_of_mem_takeWhile_reverse, List.nil_append, dropWhile_reverse_append]

/-- A trimmed text starts like the text without the blanks in front. -/
theorem head?_trim (text : List Char) :
    (trim blank text).head? = (text.dropWhile blank).head? := by
  obtain ⟨front, back, hf, hb, htext, ht⟩ := exists_trim blank text
  cases hcore : trim blank text with
  | nil =>
    have hall : ∀ c ∈ text, blank c = true := by
      rw [htext, hcore]
      simpa using fun c hc => hc.elim (hf c) (hb c)
    rw [List.dropWhile_eq_nil_iff.mpr hall]
  | cons c rest =>
    rw [htext, List.append_assoc, dropWhile_blanks_append hf]
    · rw [hcore]
      rfl
    · intro d hd
      rw [hcore] at hd ht
      exact ht.head d hd

/-- Around a character that is no blank, the blanks at the two ends are dropped apart. -/
theorem trim_append_cons {c : Char} (hc : blank c = false) (front text : List Char) :
    trim blank (front ++ c :: text) =
      front.dropWhile blank ++ c :: (text.reverse.dropWhile blank).reverse := by
  have hall : front ++ c :: text = front.takeWhile blank ++
      (front.dropWhile blank ++ c :: (text.reverse.dropWhile blank).reverse) ++
        (text.reverse.takeWhile blank).reverse := by
    conv =>
      lhs
      rw [← dropWhile_reverse_append blank text,
        ← List.takeWhile_append_dropWhile (p := blank) (l := front)]
    simp only [List.append_assoc, List.cons_append]
  rw [hall]
  refine trim_append (fun d hd => List.mem_takeWhile_imp hd) ⟨?_, ?_⟩ blank_of_mem_takeWhile_reverse
  -- Either side has nothing left and the character is at the end, or it ends in no blank.
  · intro d hd
    cases hfront : front.dropWhile blank with
    | nil =>
      rw [hfront] at hd
      cases hd
      exact hc
    | cons e rest =>
      refine head_dropWhile front d ?_
      rw [hfront] at hd ⊢
      exact hd
  · intro d hd
    rw [List.getLast?_append, List.getLast?_cons, List.getLast?_reverse] at hd
    cases hlast : (text.reverse.dropWhile blank).head? with
    | none =>
      rw [hlast] at hd
      cases hd
      exact hc
    | some e =>
      refine head_dropWhile text.reverse d ?_
      rw [hlast] at hd ⊢
      exact hd

end Separated

namespace PlainFile

open Environment

/-! ## Lines -/

theorem isBlank_of_isGap {gap : List Char} (h : IsGap gap) : ∀ c ∈ gap, isBlank c = true := by
  intro c hc
  rcases h c hc with rfl | rfl <;> decide

theorem equals_not_mem_gap {gap : List Char} (h : IsGap gap) : '=' ∉ gap :=
  fun hm => absurd (h '=' hm) (by decide)

/-- The equals sign cuts a line at its first occurrence. -/
theorem cut_equals {front : List Char} (h : '=' ∉ front) (text : List Char) :
    (front ++ '=' :: text).takeWhile (· ≠ '=') = front ∧
      (front ++ '=' :: text).dropWhile (· ≠ '=') = '=' :: text := by
  have hfront : ∀ c ∈ front, decide (c ≠ '=') = true := by
    rintro c hc
    exact decide_eq_true (ne_of_mem_of_not_mem hc h)
  rw [List.takeWhile_append_of_pos hfront, List.dropWhile_append_of_pos hfront]
  simp

/-- What is read from a line with an equals sign. -/
theorem assignment?_equals {front : List Char} (h : '=' ∉ front) (text : List Char) :
    assignment? (front ++ '=' :: text) =
      if (Separated.trim isBlank front).head? = some '#' then none
      else some (String.ofList (Separated.trim isBlank front),
        String.ofList (Separated.trim isBlank text)) := by
  have hlead : '=' ∉ front.dropWhile isBlank :=
    fun hm => h ((List.dropWhile_suffix _).mem hm)
  obtain ⟨htake, hdrop⟩ := cut_equals hlead (text.reverse.dropWhile isBlank).reverse
  have hline : Separated.trim isBlank (front ++ '=' :: text) =
      front.dropWhile isBlank ++ '=' :: (text.reverse.dropWhile isBlank).reverse :=
    Separated.trim_append_cons (by decide) front text
  unfold assignment?
  simp only [hline, htake, hdrop, Separated.head?_trim, Separated.trim_dropWhile]
  cases front.dropWhile isBlank with
  | nil => simp [Separated.trim_dropWhile_reverse]
  | cons first rest => simp [Separated.trim_dropWhile_reverse]

/-- A line without an equals sign assigns nothing. -/
theorem assignment?_eq_none {line : List Char} (h : '=' ∉ line) : assignment? line = none := by
  have hcore : '=' ∉ Separated.trim isBlank line := by
    obtain ⟨front, back, -, -, htext, -⟩ := Separated.exists_trim isBlank line
    rw [htext] at h
    exact fun hm => h (List.mem_append_left _ (List.mem_append_right _ hm))
  have hdrop : (Separated.trim isBlank line).dropWhile (· ≠ '=') = [] :=
    List.dropWhile_eq_nil_iff.mpr fun c hc => decide_eq_true (ne_of_mem_of_not_mem hc hcore)
  unfold assignment?
  simp only [hdrop]

/-- A comment assigns nothing, even with an equals sign in it. -/
theorem assignment?_comment {gap : List Char} (hg : IsGap gap) (text : List Char) :
    assignment? (gap ++ '#' :: text) = none := by
  by_cases heq : '=' ∈ text
  · obtain ⟨front, back, rfl, hfront⟩ := List.eq_append_cons_of_mem heq
    have hmark : '=' ∉ gap ++ '#' :: front := by
      simpa using ⟨equals_not_mem_gap hg, hfront⟩
    have hhead : (Separated.trim isBlank (gap ++ '#' :: front)).head? = some '#' := by
      rw [Separated.head?_trim, List.dropWhile_append_of_pos (isBlank_of_isGap hg)]
      rfl
    have hread := assignment?_equals hmark back
    rw [if_pos hhead] at hread
    simpa using hread
  · refine assignment?_eq_none ?_
    simpa using ⟨equals_not_mem_gap hg, heq⟩

theorem isTrimmed_name {name : List Char} (h : IsPlainName name) :
    Separated.IsTrimmed isBlank name where
  head c hc := (h.chars c (List.mem_of_mem_head? hc)).1
  last c hc := (h.chars c (List.mem_of_mem_getLast? hc)).1

/-- **A plain line is read as its assignment.** -/
theorem assignment?_plain {line : List Char} {entry : Option (String × String)}
    (h : PlainLine line entry) : assignment? line = entry := by
  cases h with
  | blank hg => exact assignment?_eq_none (equals_not_mem_gap hg)
  | comment hg ht => exact assignment?_comment hg _
  | @assignment g₁ g₂ g₃ g₄ name text h₁ h₂ h₃ h₄ hn ht =>
    have hname : '=' ∉ name := fun hm => (hn.chars '=' hm).2 (by simp)
    have hfront : '=' ∉ g₁ ++ name ++ g₂ := by
      simpa using ⟨equals_not_mem_gap h₁, hname, equals_not_mem_gap h₂⟩
    have hhead : name.head? ≠ some '#' :=
      fun hc => (hn.chars '#' (List.mem_of_mem_head? hc)).2 (by simp)
    rw [assignment?_equals hfront,
      Separated.trim_append (isBlank_of_isGap h₁) (isTrimmed_name hn) (isBlank_of_isGap h₂),
      Separated.trim_append (isBlank_of_isGap h₃) ht.trimmed (isBlank_of_isGap h₄), if_neg hhead]

/-! ## Files -/

/-- A text on one line. -/
def IsOneLine (text : List Char) : Prop := ∀ c ∈ text, c ≠ '\n' ∧ c ≠ '\r'

theorem isOneLine_gap {gap : List Char} (h : IsGap gap) : IsOneLine gap := by
  intro c hc
  rcases h c hc with rfl | rfl <;> decide

/-- A plain line is one line. -/
theorem isOneLine_plain {line : List Char} {entry : Option (String × String)}
    (h : PlainLine line entry) : IsOneLine line := by
  cases h with
  | blank hg => exact isOneLine_gap hg
  | comment hg ht =>
    intro c hc
    rw [List.mem_append, List.mem_cons] at hc
    rcases hc with hc | rfl | hc
    · exact isOneLine_gap hg c hc
    · decide
    · simpa using ht c hc
  | @assignment g₁ g₂ g₃ g₄ name text h₁ h₂ h₃ h₄ hn ht =>
    intro c hc
    simp only [List.mem_append, List.mem_cons] at hc
    rcases hc with ((hc | hc) | hc) | rfl | (hc | hc) | hc
    · exact isOneLine_gap h₁ c hc
    · -- the ends of a line are blanks, which a name does not have
      have hblank := (hn.chars c hc).1
      constructor <;> rintro rfl <;> exact absurd hblank (by decide)
    · exact isOneLine_gap h₂ c hc
    · decide
    · exact isOneLine_gap h₃ c hc
    · have hline := ht.line c hc
      constructor <;> rintro rfl <;> exact absurd hline (by decide)
    · exact isOneLine_gap h₄ c hc

/-- Both ends of a line are made one before a text is cut. -/
theorem map_oneLine {line : List Char} (h : IsOneLine line) :
    (line.map fun c => if c = '\r' then '\n' else c) = line :=
  (List.map_congr_left fun c hc => if_neg (h c hc).2).trans (List.map_id line)

theorem lines_oneLine {line : List Char} (h : IsOneLine line) : lines line = [line] := by
  rw [lines, map_oneLine h]
  exact Separated.splitAt_of_not_mem fun hm => (h '\n' hm).1 rfl

theorem lines_cons {line : List Char} (h : IsOneLine line) {c : Char} (hc : c = '\n' ∨ c = '\r')
    (rest : List Char) : lines (line ++ c :: rest) = line :: lines rest := by
  have hend : (if c = '\r' then '\n' else c) = '\n' := by
    rcases hc with rfl | rfl <;> rfl
  rw [lines, List.map_append, map_oneLine h, List.map_cons, hend]
  exact Separated.splitAt_append_cons (fun hm => (h '\n' hm).1 rfl) _

theorem assignments_nil : assignments [] = [] := rfl

/-- An ended line adds its assignment in front. -/
theorem assignments_ended {line mark : List Char} {entry : Option (String × String)}
    (hl : PlainLine line entry) (hm : EndsLine mark) (rest : List Char) :
    assignments (line ++ (mark ++ rest)) = entry.toList ++ assignments rest := by
  have hline := isOneLine_plain hl
  have hcons : ∀ c : Char, c = '\n' ∨ c = '\r' → ∀ rest,
      assignments (line ++ c :: rest) = entry.toList ++ assignments rest := by
    intro c hc rest
    rw [assignments, lines_cons hline hc, List.filterMap_cons, assignment?_plain hl]
    cases entry with
    | none => rfl
    | some e => rfl
  simp only [EndsLine, List.mem_cons, List.not_mem_nil, or_false] at hm
  rcases hm with rfl | rfl | rfl
  · exact hcons '\n' (.inl rfl) rest
  · exact hcons '\r' (.inr rfl) rest
  · -- the line between the two ends is empty
    have hempty : assignments ('\n' :: rest) = assignments rest := by
      have hnil : IsOneLine [] := nofun
      rw [assignments, ← List.nil_append ('\n' :: rest), lines_cons hnil (.inl rfl)]
      rfl
    exact (hcons '\r' (.inr rfl) ('\n' :: rest)).trans (by rw [hempty])

/-- **Plain lines are read as their assignments**, with those of what follows. -/
theorem assignments_lines {front : List Char} {entries : List (String × String)}
    (h : PlainLines front entries) (rest : List Char) :
    assignments (front ++ rest) = entries ++ assignments rest := by
  induction h generalizing rest with
  | nil => rfl
  | snoc hf hl hm ih =>
    rw [List.append_assoc, List.append_assoc, ih, assignments_ended hl hm, List.append_assoc]

/-- The last line is read whether it has ended or not. -/
theorem assignments_concat {front line mark : List Char} {entries : List (String × String)}
    {entry : Option (String × String)} (hf : PlainLines front entries) (hl : PlainLine line entry)
    (hm : mark = [] ∨ EndsLine mark) :
    assignments (front ++ line ++ mark) = assignments front ++ entry.toList := by
  have hfront : assignments front = entries := by
    simpa [assignments_nil] using assignments_lines hf []
  rw [List.append_assoc, assignments_lines hf, hfront]
  rcases hm with rfl | hm
  · rw [List.append_nil, assignments, lines_oneLine (isOneLine_plain hl), List.filterMap_cons,
      assignment?_plain hl]
    cases entry with
    | none => rfl
    | some e => rfl
  · have hended := assignments_ended hl hm []
    rw [List.append_nil, assignments_nil, List.append_nil] at hended
    rw [hended]

/-! ## The loader -/

theorem get?_load (env : Environment) (text : List Char) (name : String) :
    (load env (String.ofList text)).get? name =
      (env.get? name).or ((assignments text).reverse.lookup name) := by
  rw [load, String.toList_ofList]
  exact List.lookup_append

/-- **The loader reads plain lines.** -/
theorem readsPlainLines_load : ReadsPlainLines load where
  own {env text name value entries} _ h := by
    rw [← String.ofList_toList (s := text), get?_load, h, Option.some_or]
  empty env name := (get?_load env [] name).trans Option.or_none
  assigned {env front line mark entries name value} hf hl hm hn := by
    rw [get?_load, hn, Option.none_or, assignments_concat hf hl hm, lookup_reverse_concat]
    simp
  other {env front line mark entries entry name} hf hl hm hother := by
    rw [get?_load, get?_load, assignments_concat hf hl hm, lookup_reverse_concat,
      lookup_toList_eq_none hother, Option.none_or]

end PlainFile

end Bendable
