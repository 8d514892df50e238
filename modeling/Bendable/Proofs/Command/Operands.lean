import Bendable.Command.Request

/-!
# Operands behind a separator

A command line is read twice: once to find the command, and once more from there to fill the slots
of its operands. A word of two dashes ends the switches in both readings, so the words behind it
fill the slots one by one as they stand, whatever they look like. Only another word of two dashes
would be dropped, unless it comes first.

The words are given here as fillings: pairs of the name of a slot and the word that fills it.

## Main results

* `Words.trace_separator`: words behind a separator fill the slots as they stand
* `Request.ofWords_separator`: the request of a command with its operands behind a separator
-/

namespace Bendable

namespace Words

variable {α : Type} {filled : List (String × String)} {first : String × String}

/-! ## Marks -/

/-- A word that does not start with a dash is plain. -/
theorem mark_of_head {entries : List (String × Switch α)} {word : String}
    (h : word.toList.head? ≠ some '-') : mark entries word = .ok .plain := by
  unfold mark
  split
  · -- only a dash starts a switch
    rename_i heq
    exact absurd (by rw [heq]; rfl) h
  · rfl

/-- **All words behind a separator are plain.** -/
theorem markAll_separator (entries : List (String × Switch α)) (words : List String) :
    markAll entries ("--" :: words) =
      .ok (⟨"--", .separator⟩ :: words.map fun word => ⟨word, .plain⟩) := by
  rw [markAll, if_pos rfl]

/-! ## Steps -/

/-- **Plain words fill the slots one by one**, if none of them is a word of two dashes. -/
theorem follow_plain (entries : List (String × Switch α)) (h : ∀ p ∈ filled, p.2 ≠ "--") :
    follow entries (filled.map fun p => .one p.1) (filled.map fun p => ⟨p.2, .plain⟩) =
      ⟨filled.map fun p => .slot p.1 (some p.2), [], [], none⟩ := by
  -- Induction on the fillings: the first word fills the first slot, and no separator follows it.
  induction filled with
  | nil => rfl
  | cons p rest ih =>
    have hown : ownWord p.2 = some p.2 := if_neg (h p List.mem_cons_self)
    have hrest := ih fun q hq => h q (List.mem_cons_of_mem _ hq)
    cases rest with
    | nil =>
      simp only [List.map_cons, List.map_nil, follow, hown]
      rfl
    | cons q rest =>
      simp only [List.map_cons] at hrest ⊢
      rw [follow]
      simp only [hown, hrest]
      rfl

/-- The word behind the separator fills the first slot whatever it is. -/
theorem follow_separator (entries : List (String × Switch α)) (h : ∀ p ∈ filled, p.2 ≠ "--") :
    follow entries ((first :: filled).map fun p => .one p.1)
        (⟨"--", .separator⟩ :: (first :: filled).map fun p => ⟨p.2, .plain⟩) =
      ⟨(first :: filled).map fun p => .slot p.1 (some p.2), [], [], none⟩ := by
  simp only [List.map_cons]
  rw [follow]
  simp only [follow_plain entries h]
  rfl

/-- **Words behind a separator fill the slots as they stand.** -/
theorem trace_separator (switches : List (Switch α)) (h : ∀ p ∈ filled, p.2 ≠ "--") :
    trace switches ((first :: filled).map fun p => .one p.1)
        ("--" :: (first :: filled).map Prod.snd) =
      ⟨(first :: filled).map fun p => .slot p.1 (some p.2), [], [], none⟩ := by
  rw [trace, markAll_separator, List.map_map]
  exact follow_separator (table switches) h

/-- A plain word and a separator behind it go to the slot of all words, with what follows. -/
theorem trace_rest (switches : List (Switch α)) {name word : String}
    (h : word.toList.head? ≠ some '-') (words : List String) :
    trace switches [.rest name] (word :: "--" :: words) =
      ⟨[.rest (word :: "--" :: words)], [], [], none⟩ := by
  have hne : word ≠ "--" := by
    rintro rfl
    exact h rfl
  rw [trace, markAll, if_neg hne, mark_of_head h, markAll_separator]
  simp only [bind, Except.bind]
  rw [follow]
  simp [Trace.before, Trace.done, Function.comp_def]

end Words

/-! ## Commands -/

theorem Command.ofName?_name (command : Command) : ofName? command.name = some command := by
  cases command <;> rfl

theorem Command.name_head (command : Command) : command.name.toList.head? ≠ some '-' := by
  cases command <;> decide

namespace Request

variable {command : Command} {filled : List (String × String)} {first : String × String}

/-- The operands of fillings, refused for the first word that its slot does not take. -/
def operandsOf (filled : List (String × String)) : Except UsageProblem (List Value) :=
  filled.mapM fun p => operandOfWord p.1 (some p.2)

/-- **Filled slots give their operands** in order. -/
theorem takeSteps_slots (r : Request) (filled : List (String × String)) :
    r.takeSteps (filled.map fun p => .slot p.1 (some p.2)) =
      (operandsOf filled).map fun vs => some { r with operands := r.operands ++ vs } := by
  -- Induction on the fillings: each one adds its operand to the request.
  induction filled generalizing r with
  | nil => simp [takeSteps, operandsOf, Except.map, pure, Except.pure]
  | cons p rest ih =>
    rw [List.map_cons, takeSteps, operandsOf, List.mapM_cons, ← operandsOf]
    cases operandOfWord p.1 (some p.2) with
    | error e => rfl
    | ok v =>
      simp only [bind, Except.bind, ih]
      cases operandsOf rest with
      | error e => rfl
      | ok vs => simp [Except.map, pure, Except.pure]

theorem ofCommandWords_separator (hn : command.operandNames = (first :: filled).map Prod.fst)
    (h : ∀ p ∈ filled, p.2 ≠ "--") :
    ofCommandWords command false ("--" :: (first :: filled).map Prod.snd) =
      (operandsOf (first :: filled)).map fun vs => some (⟨command, false, vs, none, none⟩, []) := by
  have ht : Words.trace (switches command) (command.operandNames.map .one)
      ("--" :: (first :: filled).map Prod.snd) =
        ⟨(first :: filled).map fun p => .slot p.1 (some p.2), [], [], none⟩ := by
    rw [hn, List.map_map]
    exact Words.trace_separator (switches command) h
  rw [ofCommandWords, ht, takeSteps_slots]
  cases operandsOf (first :: filled) with
  | error p => rfl
  | ok vs => rfl

/-- **The request of a command with its operands behind a separator**: the words are the operands as
they stand, and one that its slot does not take is a usage error of the command. -/
theorem ofWords_separator (command : Command) (first : String × String)
    (filled : List (String × String)) (hn : command.operandNames = (first :: filled).map Prod.fst)
    (h : ∀ p ∈ filled, p.2 ≠ "--") :
    ofWords (command.name :: "--" :: (first :: filled).map Prod.snd) =
      ((operandsOf (first :: filled)).mapError fun p => ⟨some command, p⟩).map fun vs =>
        .request ⟨command, false, vs, none, none⟩ := by
  -- The first reading gives all words to the command, the separator with them.
  have hmain : ofWords (command.name :: "--" :: (first :: filled).map Prod.snd) =
      ofCommand false [] (command.name :: "--" :: (first :: filled).map Prod.snd) := by
    rw [ofWords, Words.trace_rest mainSwitches command.name_head]
    rfl
  rw [hmain, ofCommand, command.ofName?_name]
  simp only [ofCommandWords_separator hn h]
  cases operandsOf (first :: filled) with
  | error p => rfl
  | ok vs => rfl

end Request

end Bendable
