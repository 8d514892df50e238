import Bendable.Command.Run
import Bendable.Proofs.Refusal

/-!
# What a run reports

A run that carries out a request leaves a report of the result. An output is written as a line, with
the exit code zero. An error about scores is written as the last line of the error output, behind
the log records that are shown, with the exit code one and no output. Other faults escape.

## Main definitions

* `WholeLines s`: every line of `s` is ended
* `Fault.IsScoreError f`: the fault `f` is an error about scores
* `Outcome.Reports o x`: the outcome `o` reports the result `x`

## Main results

* `Request.outcome_reports`: a request reports its result, if no other fault arises
* `Request.outcome_escaped`: other faults escape
-/

namespace Bendable

/-! ## Lines -/

/-- **Whole lines**: no text, or a text that ends in a line end. -/
def WholeLines (s : String) : Prop := s = "" ∨ ∃ front, s = front ++ "\n"

theorem WholeLines.append {s t : String} (hs : WholeLines s) (ht : WholeLines t) :
    WholeLines (s ++ t) := by
  rcases ht with rfl | ⟨front, rfl⟩
  · simpa using hs
  · exact .inr ⟨s ++ front, by rw [String.append_assoc]⟩

theorem WholeLines.join {lines : List String} (h : ∀ line ∈ lines, WholeLines line) :
    WholeLines (String.join lines) := by
  induction lines with
  | nil => exact .inl rfl
  | cons line rest ih =>
    rw [String.join_cons]
    exact (h line List.mem_cons_self).append (ih fun l hl => h l (List.mem_cons_of_mem _ hl))

theorem ErrorLine.wholeLines_write (time : String) (line : ErrorLine) :
    WholeLines (line.write time) := by
  cases line with
  | record r => exact .inr ⟨_, rfl⟩
  | text s => exact .inr ⟨s, rfl⟩

/-- **The error output consists of whole lines.** -/
theorem Report.wholeLines_errorText (time : String) (r : Report) :
    WholeLines (r.errorText time) := by
  refine .join fun line hl => ?_
  obtain ⟨l, -, rfl⟩ := List.mem_map.mp hl
  exact l.wholeLines_write time

/-- A text at the end is shown behind the lines before it, whatever the log level. -/
theorem Report.errorText_concat (time : String) {r : Report} {errors : List ErrorLine} {s : String}
    (h : r.errors = errors ++ [.text s]) :
    r.errorText time = Report.errorText time { r with errors } ++ (s ++ "\n") := by
  simp [errorText, h, ErrorLine.isShown, ErrorLine.write]

/-- **The last line of the error output** is the last text. -/
theorem Report.errorText_of_last (time : String) {r : Report} {errors : List ErrorLine} {s : String}
    (h : r.errors = errors ++ [.text s]) :
    ∃ front, WholeLines front ∧ r.errorText time = front ++ (s ++ "\n") :=
  ⟨_, wholeLines_errorText time _, errorText_concat time h⟩

/-! ## Reports of results -/

/-- **An error about scores.** -/
def Fault.IsScoreError (f : Fault) : Prop := ∃ e, f = .score e

/-- **A report of a result**: an output makes a line, with the code zero; an error about scores
makes the last line of the error output, with the code one and no output. -/
def Outcome.Reports (o : Outcome) : Except Fault String → Prop
  | .ok output => ∃ r, o = .finished r ∧ r.code = 0 ∧ r.output = output ++ "\n"
  | .error f => ∃ r e, o = .finished r ∧ f = .score e ∧ r.code = 1 ∧ r.output = "" ∧
      ∀ time, ∃ front, WholeLines front ∧
        r.errorText time = front ++ ("Error: " ++ e.message ++ "\n")

/-- **A request reports its result**, if the only faults are errors about scores. -/
theorem Request.outcome_reports {nesting : Option Nat} {settings : Settings} {r : Request}
    (h : RefusesWith Fault.IsScoreError (r.evaluate nesting settings)) :
    (r.outcome nesting settings).Reports (r.evaluate nesting settings) := by
  unfold outcome
  cases hr : r.evaluate nesting settings with
  | ok output => exact ⟨_, rfl, rfl, rfl⟩
  | error f =>
    obtain ⟨e, rfl⟩ := h f hr
    refine ⟨_, e, rfl, rfl, rfl, rfl, fun time => ?_⟩
    -- The message stands behind the records, the last of which is that of the failure.
    exact Report.errorText_of_last time (List.append_cons _ _ _)

/-- **Every other fault of a request escapes.** -/
theorem Request.outcome_escaped {nesting : Option Nat} {settings : Settings} {r : Request}
    {f : Fault} (h : r.evaluate nesting settings = .error f) (hf : ¬f.IsScoreError) :
    r.outcome nesting settings = .escaped f := by
  unfold outcome
  cases f with
  | score e => exact absurd ⟨e, rfl⟩ hf
  | _ => simp only [h]

end Bendable
