import Bendable.Proofs.Command.Messages
import Bendable.Proofs.Command.Reports

/-!
# What an exit code says

A run that ends with a report has carried out a command, or was refused it with an error about
scores, or has not understood the command line or the settings, and the exit code says which. The
first two have log records in the error output; a record never breaks its line, so the error output
consists of log lines, with the line of the error behind them if there is one. A usage error is
found before anything is logged.

## Main definitions

* `LogLines time text`: the text `text` consists of log lines written at `time`
* `Report.IsSuccess`, `Report.IsFailure`, `Report.IsUsage`: what the exit codes promise
* `Asks source words settings r`: a command line and its settings are understood as a request
* `Misunderstood source words e`: they are not, for the reason `e`

## Main results

* `Request.outcome_success`, `Request.outcome_failure`, `Request.outcome_cases`: how a request ends
* `exists_misunderstood_iff`: when a command line or its settings are not understood
* `run_cases`: what a report is of
* `run_exitCode_discipline`: what every exit code says, and when it is two
-/

namespace Bendable

/-! ## Log lines -/

/-- **Log lines**: each line has the time, the level, the logger and the message of a record. -/
def LogLines (time text : String) : Prop :=
  ∃ records : List LogRecord, (∀ record ∈ records, OneLine record.message) ∧
    text = String.join (records.map fun record =>
      time ++ " - " ++ record.level.name ++ " - " ++ record.logger.name ++ " - " ++
        record.message ++ "\n")

/-- Of records, those that are severe enough are written as log lines. -/
theorem Report.logLines_errorText (time : String) {r : Report} {records : List LogRecord}
    (h : r.errors = records.map .record) (ho : ∀ record ∈ records, OneLine record.message) :
    LogLines time (r.errorText time) := by
  refine ⟨records.filter fun record => (ErrorLine.record record).isShown r.level, ?_, ?_⟩
  · intro record hr
    exact ho record (List.mem_of_mem_filter hr)
  · rw [errorText, h, List.filter_map, List.map_map]
    rfl

/-! ## Reports -/

/-- **A success**: the output is a line, and the error output has nothing but log lines. -/
structure Report.IsSuccess (r : Report) (output : String) : Prop where
  code : r.code = 0
  output : r.output = output ++ "\n"
  errorText : ∀ time, LogLines time (r.errorText time)

/-- **A failure**: there is no output, and the last line of the error output has the message of an
error about scores; before it there is nothing but log lines. -/
structure Report.IsFailure (r : Report) (e : ScoreError) : Prop where
  code : r.code = 1
  output : r.output = ""
  message : OneLine e.message
  errorText : ∀ time, ∃ log, LogLines time log ∧
    r.errorText time = log ++ ("Error: " ++ e.message ++ "\n")

/-- **A usage error**: there is no output, and the error output has nothing but the error. -/
structure Report.IsUsage (r : Report) (e : UsageError) : Prop where
  code : r.code = 2
  output : r.output = ""
  errorText : ∀ time, r.errorText time = e.message ++ "\n"

theorem UsageError.isUsage_report (e : UsageError) : e.report.IsUsage e where
  code := rfl
  output := rfl
  errorText time := by simp [report, Report.errorText, ErrorLine.isShown, ErrorLine.write]

/-- Log records with the line of an error behind them make a failure. -/
theorem Report.isFailure_of_errors {r : Report} {e : ScoreError} {records : List LogRecord}
    (hc : r.code = 1) (ho : r.output = "") (hm : OneLine e.message)
    (hl : ∀ record ∈ records, OneLine record.message)
    (h : r.errors = records.map .record ++ [.text ("Error: " ++ e.message)]) : r.IsFailure e where
  code := hc
  output := ho
  message := hm
  errorText time := ⟨_, logLines_errorText time rfl hl, errorText_concat time h⟩

/-! ## Records of a request -/

theorem Command.oneLine_name (command : Command) : OneLine command.name := by
  have hall : ∀ c ∈ Command.all, OneLine c.name := by decide
  exact hall command (by cases command <;> decide)

namespace Request

theorem oneLine_startRecord (command : Command) : OneLine (startRecord command).message :=
  oneLine_append.mpr ⟨by decide, command.oneLine_name⟩

theorem oneLine_failureRecord (command : Command) {e : ScoreError} (h : OneLine e.message) :
    OneLine (failureRecord command e).message := by
  unfold failureRecord
  simp only [oneLine_append, command.oneLine_name, h, and_true]
  decide

/-- The reason of a parse error stands in its message, so the record of it is on one line too. -/
theorem oneLine_rejection {e : ParseError} (h : OneLine e.message) :
    ∀ record ∈ rejection e, OneLine record.message := by
  have hreason : OneLine e.reason.message := by
    unfold ParseError.message at h
    exact (oneLine_append.mp h).2
  unfold rejection
  split
  · simp
  · rename_i reason _
    intro record hr
    obtain rfl := List.mem_singleton.mp hr
    simp only [oneLine_append, Quoted.oneLine_quote, hreason, and_true]
    decide

/-- Decoding shows the score that it gives. -/
theorem oneLine_of_evaluate_decode {nesting : Option Nat} {settings : Settings} {r : Request}
    {output : String} (hc : r.command = .decode) (h : r.evaluate nesting settings = .ok output) :
    OneLine output := by
  rw [evaluate, hc] at h
  obtain ⟨s, -, hs⟩ := bind_eq_ok_iff.mp h
  cases hs
  exact s.oneLine_toString

theorem oneLine_records (nesting : Option Nat) (settings : Settings) (r : Request) :
    ∀ record ∈ records r.command (r.evaluate nesting settings), OneLine record.message := by
  have hrefuses := refusesWith_evaluate nesting settings r
  intro record hr
  unfold records at hr
  split at hr
  · rename_i output ho
    split at hr
    · rename_i hc
      obtain rfl := List.mem_singleton.mp hr
      exact oneLine_append.mpr ⟨by decide, oneLine_of_evaluate_decode hc ho⟩
    · cases hr
  · rename_i e he
    exact oneLine_rejection (hrefuses _ he) record hr
  · rename_i e he
    have hmessage : OneLine (DecodeError.message (.invalidScore e)) := hrefuses _ he
    unfold DecodeError.message at hmessage
    exact oneLine_rejection (oneLine_append.mp hmessage).2 record hr
  · cases hr

/-- The records that a request leaves in any case. -/
theorem oneLine_startRecord_records (nesting : Option Nat) (settings : Settings) (r : Request) :
    ∀ record ∈ startRecord r.command :: records r.command (r.evaluate nesting settings),
      OneLine record.message :=
  List.forall_mem_cons.mpr ⟨oneLine_startRecord r.command, oneLine_records nesting settings r⟩

/-! ## How a request ends -/

variable {nesting : Option Nat} {settings : Settings} {r : Request}

/-- **A request with an output ends in success.** -/
theorem outcome_success {output : String} (h : r.evaluate nesting settings = .ok output) :
    ∃ report, r.outcome nesting settings = .finished report ∧ report.IsSuccess output := by
  have hlines := oneLine_startRecord_records nesting settings r
  unfold outcome
  simp only [h] at hlines ⊢
  exact ⟨_, rfl, rfl, rfl, fun time => Report.logLines_errorText time rfl hlines⟩

/-- **A request that is refused with an error about scores ends in failure.** -/
theorem outcome_failure {e : ScoreError} (h : r.evaluate nesting settings = .error (.score e)) :
    ∃ report, r.outcome nesting settings = .finished report ∧ report.IsFailure e := by
  have hmessage : OneLine e.message := refusesWith_evaluate nesting settings r _ h
  have hlines := oneLine_startRecord_records nesting settings r
  -- The record of the failure comes last, right before the message.
  have hall : ∀ record ∈
      (startRecord r.command :: records r.command (r.evaluate nesting settings)) ++
        [failureRecord r.command e], OneLine record.message := by
    intro record hr
    rcases List.mem_append.mp hr with hr | hr
    · exact hlines record hr
    · obtain rfl := List.mem_singleton.mp hr
      exact oneLine_failureRecord r.command hmessage
  unfold outcome
  simp only [h] at hall ⊢
  exact ⟨_, rfl, Report.isFailure_of_errors rfl rfl hmessage hall (by simp)⟩

/-- **A request ends in one of three ways**: in success, in failure, or with a fault that is no error
about scores and escapes. -/
theorem outcome_cases (nesting : Option Nat) (settings : Settings) (r : Request) :
    (∃ output report, r.evaluate nesting settings = .ok output ∧
      r.outcome nesting settings = .finished report ∧ report.IsSuccess output) ∨
    (∃ e report, r.evaluate nesting settings = .error (.score e) ∧
      r.outcome nesting settings = .finished report ∧ report.IsFailure e) ∨
    ∃ f, r.outcome nesting settings = .escaped f := by
  cases h : r.evaluate nesting settings with
  | ok output =>
    obtain ⟨report, hr, hs⟩ := outcome_success h
    exact .inl ⟨output, report, rfl, hr, hs⟩
  | error f =>
    by_cases hf : f.IsScoreError
    · obtain ⟨e, rfl⟩ := hf
      obtain ⟨report, hr, hs⟩ := outcome_failure h
      exact .inr (.inl ⟨e, report, rfl, hr, hs⟩)
    · exact .inr (.inr ⟨f, outcome_escaped h hf⟩)

end Request

/-! ## How a command line ends -/

variable {nesting : Option Nat} {source : SettingsSource} {words : List String}

/-- **A command line and its settings are understood** as a request. -/
structure Asks (source : SettingsSource) (words : List String) (settings : Settings)
    (r : Request) : Prop where
  request : Request.ofWords words = .ok (.request r)
  settings : source.load = .ok settings

/-- **A command line or its settings are not understood**: the words are not those of a request, or
they are and the settings are wrong. -/
inductive Misunderstood (source : SettingsSource) (words : List String) : UsageError → Prop
  | words {e : UsageError} (h : Request.ofWords words = .error e) : Misunderstood source words e
  | settings {r : Request} {p : UsageProblem} (hw : Request.ofWords words = .ok (.request r))
      (h : source.load = .error p) : Misunderstood source words ⟨none, p⟩

theorem run_of_misunderstood {e : UsageError} (h : Misunderstood source words e) :
    run nesting source words = .finished e.report := by
  cases h with
  | words h => simp only [run, h]
  | settings hw h => simp only [run, hw, h]

theorem run_of_asks {settings : Settings} {r : Request} (h : Asks source words settings r) :
    run nesting source words = r.outcome nesting settings := by
  simp only [run, h.request, h.settings]

/-- A command line that does not ask for help is understood or not. -/
theorem asks_or_misunderstood (source : SettingsSource)
    (hh : ∀ c, Request.ofWords words ≠ .ok (.help c)) :
    (∃ settings r, Asks source words settings r) ∨ ∃ e, Misunderstood source words e := by
  cases hw : Request.ofWords words with
  | error e => exact .inr ⟨e, .words hw⟩
  | ok asked =>
    cases asked with
    | help c => exact absurd hw (hh c)
    | request r =>
      cases hs : source.load with
      | error e => exact .inr ⟨_, .settings hw hs⟩
      | ok settings => exact .inl ⟨settings, r, hw, hs⟩

/-- Settings that are given are never wrong, and a file that is no text gives none. -/
theorem exists_misunderstood_iff (hh : ∀ c, Request.ofWords words ≠ .ok (.help c)) :
    (∃ e, Misunderstood source words e) ↔ (∃ e, Request.ofWords words = .error e) ∨
      (∃ env e, source = .environment env ∧ Settings.load env = .error e) ∨
        ∃ message, source = .unreadable message := by
  have hsource : ∀ {p}, source.load = .error p → ∃ e, Misunderstood source words e := by
    intro p hp
    rcases asks_or_misunderstood source hh with ⟨settings, r, ha⟩ | hm
    · exact absurd (ha.settings.symm.trans hp) nofun
    · exact hm
  constructor
  · rintro ⟨e, h⟩
    cases h with
    | words h => exact .inl ⟨e, h⟩
    | settings hw h =>
      cases source with
      | given settings => cases h
      | environment env =>
        obtain ⟨e, he, -⟩ := mapError_eq_error_iff.mp h
        exact .inr (.inl ⟨env, e, rfl, he⟩)
      | unreadable message => exact .inr (.inr ⟨message, rfl⟩)
  · rintro (⟨e, h⟩ | ⟨env, e, rfl, h⟩ | ⟨message, rfl⟩)
    · exact ⟨e, .words h⟩
    · exact hsource (mapError_eq_error_iff.mpr ⟨e, h, rfl⟩)
    · exact hsource rfl

/-- **A run that ends with a report has succeeded, failed or not understood**, and the report is of
that kind. -/
theorem run_cases (hh : ∀ c, Request.ofWords words ≠ .ok (.help c)) {report : Report}
    (hr : run nesting source words = .finished report) :
    (∃ settings r output, Asks source words settings r ∧
      r.evaluate nesting settings = .ok output ∧ report.IsSuccess output) ∨
    (∃ settings r e, Asks source words settings r ∧
      r.evaluate nesting settings = .error (.score e) ∧ report.IsFailure e) ∨
    ∃ e, Misunderstood source words e ∧ report.IsUsage e := by
  rcases asks_or_misunderstood source hh with ⟨settings, r, ha⟩ | ⟨e, hm⟩
  · rw [run_of_asks ha] at hr
    rcases Request.outcome_cases nesting settings r with
      ⟨output, _, he, ho, hs⟩ | ⟨e, _, he, ho, hf⟩ | ⟨f, ho⟩
    · cases hr.symm.trans ho
      exact .inl ⟨settings, r, output, ha, he, hs⟩
    · cases hr.symm.trans ho
      exact .inr (.inl ⟨settings, r, e, ha, he, hf⟩)
    · cases hr.symm.trans ho
  · cases hr.symm.trans (run_of_misunderstood hm)
    exact .inr (.inr ⟨e, hm, e.isUsage_report⟩)

/-- **What every exit code says.** A run of a command line that does not ask for help, if it ends
with an exit code, has carried out a request, with code zero; or the request was refused with an
error about scores, with code one; or the command line or its settings were not understood, with
code two. The last is so exactly if the words make no request, or the environment no settings, or
the file that completes it is no text. -/
theorem run_exitCode_discipline (nesting : Option Nat) (source : SettingsSource)
    (words : List String) (hh : ∀ c, Request.ofWords words ≠ .ok (.help c)) :
    ((∃ report, run nesting source words = .finished report ∧ report.code = 2) ↔
      (∃ e, Request.ofWords words = .error e) ∨
        (∃ env e, source = .environment env ∧ Settings.load env = .error e) ∨
          ∃ message, source = .unreadable message) ∧
    ∀ report, run nesting source words = .finished report →
      (∃ settings r output, Asks source words settings r ∧
        r.evaluate nesting settings = .ok output ∧ report.IsSuccess output) ∨
      (∃ settings r e, Asks source words settings r ∧
        r.evaluate nesting settings = .error (.score e) ∧ report.IsFailure e) ∨
      ∃ e, Misunderstood source words e ∧ report.IsUsage e := by
  refine ⟨?_, fun report hr => run_cases hh hr⟩
  rw [← exists_misunderstood_iff hh]
  constructor
  · rintro ⟨report, hr, hc⟩
    rcases run_cases hh hr with ⟨_, _, _, -, -, hs⟩ | ⟨_, _, _, -, -, hf⟩ | ⟨e, hm, -⟩
    · exact absurd (hs.code.symm.trans hc) (by decide)
    · exact absurd (hf.code.symm.trans hc) (by decide)
    · exact ⟨e, hm⟩
  · rintro ⟨e, hm⟩
    exact ⟨e.report, run_of_misunderstood hm, rfl⟩

/-- A command line with a count that is no number, which is not understood. -/
theorem run_exitCode_bad_count :
    (∀ c, Request.ofWords ["zero", "--hard", "x"] ≠ .ok (.help c)) ∧
    ∃ report, run (some 0) (.environment []) ["zero", "--hard", "x"] = .finished report ∧
      report.code = 2 := by
  have herror : Request.ofWords ["zero", "--hard", "x"] =
      .error ⟨some .zero, .notCount "--hard" "x"⟩ := by rfl
  have hh : ∀ c, Request.ofWords ["zero", "--hard", "x"] ≠ .ok (.help c) := by
    intro c h
    cases herror.symm.trans h
  exact ⟨hh, (run_exitCode_discipline (some 0) (.environment []) _ hh).1.mpr (.inl ⟨_, herror⟩)⟩

end Bendable
