import Bendable.Settings.Environment

/-!
# Files of assignments

What a name stands for in an environment that is completed by a file: the environment's own text, or
else the text of the last line of the file that assigns the name. A loader is only relied on where
the lines are plain, and only for what one more line at the end of a file does; the rest is an
induction over the lines. Plain lines have none of the forms that a loader may give a meaning of its
own, such as quotes, references to other names, or comments behind a text.

## Main definitions

* `Environment.PlainLine line entry`: a plain line, with its assignment if it has one
* `Environment.PlainFile text entries`: a file of plain lines, with its assignments in their order
* `Environment.ReadsPlainLines load`: what a loader is relied on for
* `Environment.merged env entries name`: what a name stands for

## Main results

* `Environment.merged_eq_some_iff`: whose text a name stands for
* `Environment.get?_complete`: a completed environment has the texts that names stand for
-/

namespace Bendable

/-- **A trimmed text** has no blank at either end. -/
structure Separated.IsTrimmed (blank : Char → Bool) (text : List Char) : Prop where
  head : ∀ c ∈ text.head?, blank c = false
  last : ∀ c ∈ text.getLast?, blank c = false

namespace Environment

/-! ## Plain lines -/

/-- What may stand around the parts of a line. -/
def IsGap (text : List Char) : Prop := ∀ c ∈ text, c = ' ' ∨ c = '\t'

/-- **A plain name**: it has no blanks, marks or quotes, and is not the word that may stand before a
name. -/
structure IsPlainName (name : List Char) : Prop where
  nonempty : name ≠ []
  chars : ∀ c ∈ name, isBlank c = false ∧ c ∉ ['=', '#', '\'', '"', '\x00']
  noExport : name ≠ ['e', 'x', 'p', 'o', 'r', 't']

/-- **A plain text** of an assignment, which stands for itself: on one line, without blanks at its
ends, a quote or a number sign at its front, a number sign behind a blank, or a reference. -/
structure IsPlainText (text : List Char) : Prop where
  line : ∀ c ∈ text, c ∉ ['\n', '\r', '\x00']
  trimmed : Separated.IsTrimmed isBlank text
  unquoted : ∀ c ∈ text.head?, c ∉ ['\'', '"', '#']
  uncommented : ∀ c, isBlank c = true → ¬[c, '#'] <:+: text
  literal : ¬['$', '\x7b'] <:+: text

/-- **A plain line**, with what it assigns: it is blank, a comment, or an assignment with gaps
around its parts. -/
inductive PlainLine : List Char → Option (String × String) → Prop
  | blank {gap : List Char} (hg : IsGap gap) : PlainLine gap none
  | comment {gap text : List Char} (hg : IsGap gap) (ht : ∀ c ∈ text, c ∉ ['\n', '\r']) :
    PlainLine (gap ++ '#' :: text) none
  | assignment {g₁ g₂ g₃ g₄ name text : List Char} (h₁ : IsGap g₁) (h₂ : IsGap g₂) (h₃ : IsGap g₃)
      (h₄ : IsGap g₄) (hn : IsPlainName name) (ht : IsPlainText text) :
    PlainLine (g₁ ++ name ++ g₂ ++ '=' :: (g₃ ++ text ++ g₄))
      (some (String.ofList name, String.ofList text))

/-- A text without blanks and marks is plain. -/
theorem isPlainText_of_chars {text : List Char} (h : ∀ c ∈ text, isBlank c = false ∧
    c ∉ ['\n', '\r', '\x00', '\'', '"', '#', '$']) : IsPlainText text where
  line c hc := by
    have hsub : ['\n', '\r', '\x00'] ⊆ ['\n', '\r', '\x00', '\'', '"', '#', '$'] := by decide
    exact fun hm => (h c hc).2 (hsub hm)
  trimmed := ⟨fun c hc => (h c (List.mem_of_mem_head? hc)).1,
    fun c hc => (h c (List.mem_of_mem_getLast? hc)).1⟩
  unquoted c hc := by
    have hsub : ['\'', '"', '#'] ⊆ ['\n', '\r', '\x00', '\'', '"', '#', '$'] := by decide
    exact fun hm => (h c (List.mem_of_mem_head? hc)).2 (hsub hm)
  uncommented c _ := fun hi => (h '#' (hi.subset (by simp))).2 (by simp)
  literal := fun hi => (h '$' (hi.subset (by simp))).2 (by simp)

/-- The usual form of an assignment, without gaps. -/
theorem plainLine_assignment {name text : String} (hn : IsPlainName name.toList)
    (ht : IsPlainText text.toList) :
    PlainLine (name.toList ++ '=' :: text.toList) (some (name, text)) := by
  have hg : IsGap [] := nofun
  have h := PlainLine.assignment hg hg hg hg hn ht
  rw [String.ofList_toList, String.ofList_toList] at h
  simpa using h

/-! ## Plain files -/

/-- **The end of a line**: a line feed, a carriage return, or both. -/
def EndsLine (mark : List Char) : Prop := mark ∈ [['\n'], ['\r'], ['\r', '\n']]

/-- **Plain lines** that have all ended, with their assignments in their order. -/
inductive PlainLines : List Char → List (String × String) → Prop
  | nil : PlainLines [] []
  | snoc {front line mark : List Char} {entries : List (String × String)}
      {entry : Option (String × String)} (h : PlainLines front entries) (hl : PlainLine line entry)
      (hm : EndsLine mark) : PlainLines (front ++ line ++ mark) (entries ++ entry.toList)

/-- **A plain file**: plain lines, the last of which has not ended. It may be blank, so a file may
also end with a line. -/
inductive PlainFile : String → List (String × String) → Prop
  | mk {front line : List Char} {entries : List (String × String)}
      {entry : Option (String × String)} (h : PlainLines front entries)
      (hl : PlainLine line entry) :
    PlainFile (String.ofList (front ++ line)) (entries ++ entry.toList)

/-- **A loader that reads plain lines.** It leaves what the process has, and an empty file adds
nothing. One more line, which may have ended, sets the name that it assigns and leaves the
others. -/
structure ReadsPlainLines (load : Loader) : Prop where
  own : ∀ {env : Environment} {text name value : String} {entries : List (String × String)},
    PlainFile text entries → env.get? name = some value → (load env text).get? name = some value
  empty : ∀ (env : Environment) (name : String), (load env "").get? name = env.get? name
  assigned : ∀ {env : Environment} {front line mark : List Char}
    {entries : List (String × String)} {name value : String},
    PlainLines front entries → PlainLine line (some (name, value)) → mark = [] ∨ EndsLine mark →
      env.get? name = none →
        (load env (String.ofList (front ++ line ++ mark))).get? name = some value
  other : ∀ {env : Environment} {front line mark : List Char} {entries : List (String × String)}
    {entry : Option (String × String)} {name : String},
    PlainLines front entries → PlainLine line entry → mark = [] ∨ EndsLine mark →
      (∀ e ∈ entry, e.1 ≠ name) →
        (load env (String.ofList (front ++ line ++ mark))).get? name =
          (load env (String.ofList front)).get? name

/-! ## What names stand for -/

/-- **What a name stands for** with the assignments of a file behind an environment. -/
def merged (env : Environment) (entries : List (String × String)) (name : String) : Option String :=
  (env.get? name).or (entries.reverse.lookup name)

/-- The environment's own text counts, even an empty one, and else that of the last assignment. -/
theorem merged_eq_some_iff {env : Environment} {entries : List (String × String)}
    {name value : String} : merged env entries name = some value ↔
      env.get? name = some value ∨ env.get? name = none ∧ ∃ earlier later,
        entries = earlier ++ (name, value) :: later ∧ ∀ e ∈ later, e.1 ≠ name := by
  rw [merged, Option.or_eq_some_iff, List.lookup_eq_some_iff]
  refine or_congr Iff.rfl (and_congr Iff.rfl ?_)
  constructor
  · rintro ⟨later, earlier, he, hl⟩
    refine ⟨earlier.reverse, later.reverse, ?_, fun e hm => ?_⟩
    · rw [← List.reverse_reverse entries, he]
      simp
    · exact (bne_iff_ne.mp (hl e (List.mem_reverse.mp hm))).symm
  · rintro ⟨earlier, later, rfl, hl⟩
    refine ⟨later.reverse, earlier.reverse, by simp, fun e hm => ?_⟩
    exact bne_iff_ne.mpr (hl e (List.mem_reverse.mp hm)).symm

/-- One more assignment at the end counts before all others of its name. -/
theorem lookup_reverse_concat (entries : List (String × String)) (entry : Option (String × String))
    (name : String) : (entries ++ entry.toList).reverse.lookup name =
      (entry.toList.lookup name).or (entries.reverse.lookup name) := by
  rw [List.reverse_append, List.lookup_append]
  cases entry with
  | none => rfl
  | some e => rfl

theorem lookup_toList_eq_none {entry : Option (String × String)} {name : String}
    (h : ∀ e ∈ entry, e.1 ≠ name) : entry.toList.lookup name = none := by
  rw [List.lookup_eq_none_iff]
  intro e he
  exact bne_iff_ne.mpr (h e (Option.mem_toList.mp he)).symm

namespace ReadsPlainLines

variable {load : Loader} (hload : ReadsPlainLines load) {env : Environment} {name : String}

include hload in
/-- **What one more line does** to a name that the process does not have. -/
theorem get?_concat {front line mark : List Char} {entries : List (String × String)}
    {entry : Option (String × String)} (hf : PlainLines front entries) (hl : PlainLine line entry)
    (hm : mark = [] ∨ EndsLine mark) (hn : env.get? name = none)
    (hfront : (load env (String.ofList front)).get? name = entries.reverse.lookup name) :
    (load env (String.ofList (front ++ line ++ mark))).get? name =
      (entries ++ entry.toList).reverse.lookup name := by
  rw [lookup_reverse_concat]
  by_cases he : ∃ value, entry = some (name, value)
  · obtain ⟨value, rfl⟩ := he
    rw [hload.assigned hf hl hm hn]
    simp
  · have hother : ∀ e ∈ entry, e.1 ≠ name := by
      rintro ⟨_, value⟩ he' rfl
      exact he ⟨value, he'⟩
    rw [hload.other hf hl hm hother, lookup_toList_eq_none hother, Option.none_or, hfront]

include hload in
/-- **What plain lines do** to a name that the process does not have. -/
theorem get?_lines {text : List Char} {entries : List (String × String)}
    (h : PlainLines text entries) (hn : env.get? name = none) :
    (load env (String.ofList text)).get? name = entries.reverse.lookup name := by
  -- Induction on the lines; each is one more at the end.
  induction h with
  | nil => exact (hload.empty env name).trans hn
  | snoc hf hl hm ih => exact hload.get?_concat hf hl (.inr hm) hn ih

include hload in
/-- **A file is read as its assignments say.** -/
theorem get?_file {text : String} {entries : List (String × String)}
    (h : PlainFile text entries) : (load env text).get? name = merged env entries name := by
  cases hn : env.get? name with
  | some value => rw [merged, hn, hload.own h hn, Option.some_or]
  | none =>
    rw [merged, hn, Option.none_or]
    cases h with
    | @mk front line entries entry hf hl =>
      have hline := hload.get?_concat hf hl (.inl rfl) hn (hload.get?_lines hf hn)
      rwa [List.append_nil] at hline

end ReadsPlainLines

/-! ## Environments completed by a file -/

/-- **What the file behind an environment holds**: no assignments if there is none, and those of its
lines if it is plain. -/
inductive FileHolds : Option String → List (String × String) → Prop
  | absent : FileHolds none []
  | plain {text : String} {entries : List (String × String)} (h : PlainFile text entries) :
    FileHolds (some text) entries

/-- **The completed environment has the texts that names stand for.** -/
theorem get?_complete {load : Loader} (hload : ReadsPlainLines load) (env : Environment)
    {file : Option String} {entries : List (String × String)} (h : FileHolds file entries) :
    (env.complete load file).get? = merged env entries := by
  funext name
  cases h with
  | absent => exact Option.or_none.symm
  | plain h => exact hload.get?_file h

end Environment

end Bendable
