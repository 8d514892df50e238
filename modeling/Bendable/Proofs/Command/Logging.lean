import Bendable.Proofs.Command.ExitCode

/-!
# Logging does not influence a run

Two runs of one command line that differ in the log level alone, or in a switch in front that asks
for more of the log, end in the same way: with the same exit code and output, and with the same
error output once the log lines are removed from it.

The level stands in the report and nowhere else, and it only decides which records are shown. The
switch is marked and followed before all other words, so the words behind it are understood as they
are without it; from there on it is a field that each step leaves alone or sets again.

## Main definitions

* `withoutLog`: the lines of a text that are no log lines
* `Outcome.SameButLog`: runs that differ in log lines at most
* `Request.louder`, `Asked.louder`: what is asked for, with more of the log

## Main results

* `Request.ofWords_verbose`: the switch in front changes nothing else in what is asked for
* `run_logging_irrelevant`: the log influences no result
-/

namespace Bendable

/-! ## Removing log lines -/

/-- Whether a line starts like a log line: with the time and the name of a level. -/
def isLogLine (time : String) (line : List Char) : Bool :=
  LogLevel.all.any fun level => (time ++ " - " ++ level.name ++ " - ").toList.isPrefixOf line

/-- The lines of a text that are no log lines. -/
def withoutLog (time text : String) : List (List Char) :=
  (Separated.splitAt '\n' text.toList).filter fun line => !isLogLine time line

theorem LogLevel.oneLine_name (level : LogLevel) : OneLine level.name := by
  cases level <;> decide

theorem Logger.oneLine_name (logger : Logger) : OneLine logger.name := by
  cases logger <;> decide

theorem LogLevel.mem_all (level : LogLevel) : level ∈ all := by
  cases level <;> decide

/-- A line that starts like a log line is removed with its end. -/
theorem withoutLog_line {time line : String} (ho : OneLine line) (level : LogLevel)
    (hl : (time ++ " - " ++ level.name ++ " - ").toList <+: line.toList) (text : String) :
    withoutLog time (line ++ "\n" ++ text) = withoutLog time text := by
  have hlog : isLogLine time line.toList = true :=
    List.any_eq_true.mpr ⟨level, level.mem_all, List.isPrefixOf_iff_prefix.mpr hl⟩
  have hsplit : Separated.splitAt '\n' (line ++ "\n" ++ text).toList =
      line.toList :: Separated.splitAt '\n' text.toList := by
    rw [← Separated.splitAt_append_cons ho]
    simp
  rw [withoutLog, hsplit, List.filter_cons_of_neg (by simp [hlog]), withoutLog]

/-- **Log lines in front are removed.** -/
theorem withoutLog_append {time log : String} (ht : OneLine time) (hl : LogLines time log)
    (text : String) : withoutLog time (log ++ text) = withoutLog time text := by
  obtain ⟨records, hr, rfl⟩ := hl
  induction records with
  | nil => simp
  | cons record records ih =>
    obtain ⟨hm, hrest⟩ := List.forall_mem_cons.mp hr
    rw [List.map_cons, String.join_cons, String.append_assoc, withoutLog_line _ record.level]
    · exact ih hrest
    · simp [String.append_assoc]
    · simp only [oneLine_append, ht, hm, record.level.oneLine_name, record.logger.oneLine_name,
        and_true, true_and]
      decide

example : withoutLog "noon" "noon - DEBUG - score_kernel.cli - Running\nError: x\n" =
    ["Error: x".toList, []] := by decide

/-! ## Runs that differ in the log -/

/-- **The same but for the log**: the same way to end, with the same exit code and output or the
same fault, and the same error output once the log lines are removed. -/
inductive Outcome.SameButLog : Outcome → Outcome → Prop
  | help (command : Option Command) : SameButLog (.help command) (.help command)
  | finished {r r' : Report} (code : r.code = r'.code) (output : r.output = r'.output)
      (errors : ∀ time, OneLine time →
        withoutLog time (r.errorText time) = withoutLog time (r'.errorText time)) :
      SameButLog (.finished r) (.finished r')
  | escaped (f : Fault) : SameButLog (.escaped f) (.escaped f)

theorem Outcome.SameButLog.refl (o : Outcome) : o.SameButLog o := by
  cases o with
  | help c => exact .help c
  | finished r => exact .finished rfl rfl fun _ _ => rfl
  | escaped f => exact .escaped f

theorem Report.IsSuccess.withoutLog_errorText {r : Report} {output : String}
    (h : r.IsSuccess output) {time : String} (ht : OneLine time) :
    withoutLog time (r.errorText time) = withoutLog time "" := by
  simpa using withoutLog_append ht (h.errorText time) ""

theorem Report.IsFailure.withoutLog_errorText {r : Report} {e : ScoreError} (h : r.IsFailure e)
    {time : String} (ht : OneLine time) :
    withoutLog time (r.errorText time) = withoutLog time ("Error: " ++ e.message ++ "\n") := by
  obtain ⟨log, hl, herr⟩ := h.errorText time
  rw [herr, withoutLog_append ht hl]

/-- **Requests with the same result end in the same way**, whatever their log levels are. -/
theorem Request.outcome_sameButLog {nesting : Option Nat} {settings settings' : Settings}
    {r r' : Request} (h : r'.evaluate nesting settings' = r.evaluate nesting settings) :
    (r.outcome nesting settings).SameButLog (r'.outcome nesting settings') := by
  cases he : r.evaluate nesting settings with
  | ok output =>
    obtain ⟨_, ho, hs⟩ := outcome_success he
    obtain ⟨_, ho', hs'⟩ := outcome_success (h.trans he)
    rw [ho, ho']
    refine .finished (hs.code.trans hs'.code.symm) (hs.output.trans hs'.output.symm) ?_
    intro time ht
    rw [hs.withoutLog_errorText ht, hs'.withoutLog_errorText ht]
  | error f =>
    by_cases hf : f.IsScoreError
    · obtain ⟨e, rfl⟩ := hf
      obtain ⟨_, ho, hs⟩ := outcome_failure he
      obtain ⟨_, ho', hs'⟩ := outcome_failure (h.trans he)
      rw [ho, ho']
      refine .finished (hs.code.trans hs'.code.symm) (hs.output.trans hs'.output.symm) ?_
      intro time ht
      rw [hs.withoutLog_errorText ht, hs'.withoutLog_errorText ht]
    · rw [outcome_escaped he hf, outcome_escaped (h.trans he) hf]
      exact .escaped f

/-! ## The level and the switch -/

/-- The result of a request does not depend on the log level. -/
theorem Request.evaluate_logLevel (nesting : Option Nat) (settings : Settings) (level : LogLevel)
    (r : Request) :
    r.evaluate nesting { settings with logLevel := level } = r.evaluate nesting settings := rfl

/-- A request with more of the log. -/
def Request.louder (r : Request) : Request := { r with verbose := true }

/-- What is asked for, with more of the log if it is a request. -/
def Asked.louder : Asked → Asked
  | help c => .help c
  | request r => .request r.louder

/-- The result of a request does not depend on how much of the log is shown. -/
theorem Request.evaluate_louder (nesting : Option Nat) (settings : Settings) (r : Request) :
    r.louder.evaluate nesting settings = r.evaluate nesting settings := rfl

/-! ## The switch in front -/

namespace Words

variable {α : Type} {entries : List (String × Switch α)} {word : String}

/-- A word in front is marked by itself. -/
theorem markAll_cons {m : Mark α} (hw : word ≠ "--") (hm : mark entries word = .ok m)
    (words : List String) :
    markAll entries (word :: words) = (markAll entries words).map (⟨word, m⟩ :: ·) := by
  rw [markAll, if_neg hw, hm]
  rfl

/-- A switch that takes no word is a step of its own, and fills no slot. -/
theorem follow_switch {s : Switch α} (hs : s.takesWord = false) (long : Bool) (slots : List Slot)
    (items : List (Marked α)) :
    follow entries slots (⟨word, .switch s long none⟩ :: items) =
      (follow entries slots items).before [.switch s.meaning none] := by
  have hu : unpack entries s long none = .ok ⟨[(s.meaning, none)], none⟩ := by
    simp [unpack, Unpacked.alone, hs]
  conv_lhs => unfold follow
  simp only [hu]
  rfl

end Words

namespace Request

theorem louder_setCount (r : Request) (count : Value) (group : Group) :
    r.louder.setCount count group = (r.setCount count group).louder := by
  cases group <;> rfl

/-- A command's words are taken in the same way with more of the log. The request is built up step
by step, so the induction is over the steps, for every request so far. -/
theorem takeSteps_louder (r : Request) (steps : List (Words.Step Meaning)) :
    takeSteps r.louder steps = (takeSteps r steps).map (Option.map louder) := by
  induction steps generalizing r with
  | nil => rfl
  | cons step steps ih =>
    cases step with
    | switch meaning word =>
      cases meaning with
      | help => rfl
      | verbose => exact ih { r with verbose := true }
      | count group =>
        simp only [takeSteps]
        cases countOfWord group word with
        | error p => rfl
        | ok count =>
          have hcount := ih (r.setCount count group)
          rwa [← louder_setCount] at hcount
    | slot name word =>
      simp only [takeSteps]
      cases operandOfWord name word with
      | error p => rfl
      | ok v => exact ih { r with operands := r.operands ++ [v] }
    | rest words => exact ih r

theorem ofCommandWords_louder (command : Command) (verbose : Bool) (words : List String) :
    ofCommandWords command true words =
      (ofCommandWords command verbose words).map (Option.map (Prod.map louder id)) := by
  have hstart : (⟨command, true, [], none, none⟩ : Request) =
      louder ⟨command, verbose, [], none, none⟩ := rfl
  unfold ofCommandWords
  generalize Words.trace (switches command) (command.operandNames.map .one) words = t
  simp only [hstart, takeSteps_louder]
  cases takeSteps ⟨command, verbose, [], none, none⟩ t.steps with
  | error p => rfl
  | ok asked =>
    cases asked with
    | none => rfl
    | some r =>
      simp only [Except.map, Option.map, bind, Except.bind]
      cases t.complaint with
      | some c => rfl
      | none => by_cases hu : t.unfilled = [] <;> simp [hu]

theorem ofCommand_louder (verbose : Bool) (extras words : List String) :
    ofCommand true extras words = (ofCommand verbose extras words).map Asked.louder := by
  cases words with
  | nil => rfl
  | cons name words =>
    simp only [ofCommand]
    cases Command.ofName? name with
    | none => rfl
    | some command =>
      simp only [ofCommandWords_louder command verbose]
      cases ofCommandWords command verbose words with
      | error p => rfl
      | ok asked =>
        rcases asked with _ | ⟨r, more⟩
        · rfl
        · simp only [Except.map, Option.map, Prod.map, id]
          split <;> rfl

theorem takeMainSteps_louder (t : Words.Trace Meaning) (verbose : Bool)
    (steps : List (Words.Step Meaning)) :
    takeMainSteps t true steps = (takeMainSteps t verbose steps).map Asked.louder := by
  induction steps generalizing verbose with
  | nil =>
    simp only [takeMainSteps]
    cases t.complaint <;> rfl
  | cons step steps ih =>
    cases step with
    | switch meaning word =>
      cases meaning with
      | help => rfl
      | verbose => exact ih true
      | count group => exact ih verbose
    | slot name word => exact ih verbose
    | rest words => exact ofCommand_louder verbose t.extras words

/-- Steps put in front of a trace do not change what its other steps ask for. -/
theorem takeMainSteps_before (front : List (Words.Step Meaning)) (t : Words.Trace Meaning)
    (verbose : Bool) (steps : List (Words.Step Meaning)) :
    takeMainSteps (t.before front) verbose steps = takeMainSteps t verbose steps := by
  induction steps generalizing verbose with
  | nil => rfl
  | cons step steps ih =>
    cases step with
    | switch meaning word =>
      cases meaning with
      | help => rfl
      | verbose => exact ih true
      | count group => exact ih verbose
    | slot name word => exact ih verbose
    | rest words => rfl

/-- **The switch in front changes nothing else** in what is asked for. -/
theorem ofWords_verbose (words : List String) :
    ofWords ("-v" :: words) = (ofWords words).map Asked.louder := by
  have hmark : Words.mark (Words.table mainSwitches) "-v" =
      .ok (.switch ⟨["-v", "--verbose"], false, .verbose⟩ false none) := by rfl
  unfold ofWords Words.trace
  rw [Words.markAll_cons (by decide) hmark]
  cases Words.markAll (Words.table mainSwitches) words with
  | error c => rfl
  | ok items =>
    simp only [Except.map, Words.follow_switch]
    generalize Words.follow (Words.table mainSwitches) [.rest "command"] items = t
    exact (takeMainSteps_before _ t true t.steps).trans (takeMainSteps_louder t false t.steps)

end Request

/-! ## Runs -/

theorem run_logLevel (nesting : Option Nat) (settings : Settings) (level : LogLevel)
    (words : List String) : (run nesting (.given settings) words).SameButLog
      (run nesting (.given { settings with logLevel := level }) words) := by
  unfold run
  cases Request.ofWords words with
  | error e => exact .refl _
  | ok asked =>
    cases asked with
    | help c => exact .refl _
    | request r => exact Request.outcome_sameButLog (r.evaluate_logLevel nesting settings level)

theorem run_verbose (nesting : Option Nat) (source : SettingsSource) (words : List String) :
    (run nesting source words).SameButLog (run nesting source ("-v" :: words)) := by
  unfold run
  rw [Request.ofWords_verbose]
  cases Request.ofWords words with
  | error e => exact .refl _
  | ok asked =>
    cases asked with
    | help c => exact .refl _
    | request r =>
      simp only [Except.map, Asked.louder]
      cases source.load with
      | error e => exact .refl _
      | ok settings => exact Request.outcome_sameButLog (r.evaluate_louder nesting settings)

/-- **The log influences no result.** With another log level, or with the switch for more of the log
in front, a command line ends in the same way, with the same exit code and output or the same fault,
and with the same error output once the log lines are removed. -/
theorem run_logging_irrelevant (nesting : Option Nat) (settings : Settings) (level : LogLevel)
    (words : List String) :
    (run nesting (.given settings) words).SameButLog
        (run nesting (.given { settings with logLevel := level }) words) ∧
      (run nesting (.given settings) words).SameButLog
        (run nesting (.given settings) ("-v" :: words)) :=
  ⟨run_logLevel nesting settings level words, run_verbose nesting (.given settings) words⟩

end Bendable
