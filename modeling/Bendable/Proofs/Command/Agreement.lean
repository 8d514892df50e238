import Bendable.Proofs.Command.Operands
import Bendable.Proofs.Command.Reports
import Bendable.Proofs.Json.Indented
import Bendable.Proofs.Score.Acceptance
import Bendable.Proofs.Score.Shape
import Bendable.Proofs.Snapshot.Overlong

/-!
# Commands agree with the library

A command with its operands behind a separator reports what the library gives for the same texts:
each text is parsed, the left one first, and then the scores are combined, shown or scaled. Within
the digit limit the library refuses the text of a score with errors about scores only, so there is
always a report. A number that cannot be read is a usage error before any text is parsed.

A snapshot is another matter. Where it nests too deep for the reader of JSON, the fault of that is
no error about scores, and neither the library nor the command turns it into one.

## Main definitions

* `Command.onTwo`, `Command.onOne`, `Command.scaling`: what the library gives for a command

## Main results

* `Diagnostics.read_indented_toValue`: the summary that is shown is read back as a document
* `run_reports_library`: the outcome of every command on scores
* `run_decode_opened`: a snapshot that nests too deep leaves no report
-/

namespace Bendable

/-! ## The library's results -/

namespace Command

/-- What the library gives for a command on two scores. -/
def onTwo : Command → Option (Score → Score → Except Fault String)
  | .compare => some fun s t => do
    let o ← s.compare t
    .ok (match o with
      | .lt => "<"
      | .eq => "="
      | .gt => ">")
  | .add => some fun s t => do
    let sum ← s.add t
    .ok (toString sum)
  | .subtract => some fun s t => do
    let difference ← s.subtract t
    .ok (toString difference)
  | _ => none

/-- What the library gives for a command on one score. -/
def onOne : Command → Option (Score → String)
  | .showScore => some fun s => String.ofList (Json.indented 0 (Diagnostics.ofScore s).toValue)
  | .negate => some fun s => toString s.negate
  | .encode => some fun s => String.ofList (Snapshot.encode s)
  | .hash => some fun s => String.ofList (Snapshot.digest s)
  | _ => none

/-- The scaling of a command on a score and a number. -/
def scaling : Command → Option (Score → Value → Except Fault Score)
  | .multiply => some Score.multiply
  | .divide => some Score.divide
  | .power => some Score.power
  | _ => none

end Command

variable {command : Command} {nesting : Option Nat} {settings : Settings} {t u : String}

/-! ## Reports of command lines -/

/-- With settings that are given, a command line ends as the request that it asks for. -/
theorem run_of_ofWords {words : List String} {r : Request}
    (hw : Request.ofWords words = .ok (.request r)) :
    run nesting (.given settings) words = r.outcome nesting settings := by
  rw [run, hw]
  rfl

/-- A command line that asks for a request reports the result of the request. -/
theorem reports_of_ofWords {words : List String} {r : Request} {x : Except Fault String}
    (hw : Request.ofWords words = .ok (.request r)) (he : r.evaluate nesting settings = x)
    (hx : RefusesWith Fault.IsScoreError x) :
    (run nesting (.given settings) words).Reports x := by
  subst he
  rw [run_of_ofWords hw]
  exact Request.outcome_reports hx

/-- Within the digit limit a text is refused with an error about scores. -/
theorem Score.refusesWith_parse (hk : Numeral.KeepsLimit t.toList) :
    RefusesWith Fault.IsScoreError (parse (.string t) none none) := by
  have h : RefusesWith (Fault.IsParseError t) (parse (.string t) none none) :=
    refusesWith_parseText hk (by simp) (by simp)
  refine h.mono ?_
  rintro f ⟨token, reason, rfl⟩
  exact ⟨_, rfl⟩

/-! ## Two scores -/

section OnTwo

variable {f : Score → Score → Except Fault String}

/-- Scores that do not combine are refused with a shape error. -/
theorem refusesWith_onTwo (hf : f ∈ command.onTwo) (left right : Score) :
    RefusesWith Fault.IsScoreError (f left right) := by
  have hshape : RefusesWith Fault.IsScoreError (left.validate right) := by
    refine (Score.refusesWith_validate left right).mono ?_
    rintro f ⟨e, rfl⟩
    exact ⟨_, rfl⟩
  cases command with
  | compare | add | subtract =>
    cases hf
    exact .bind (.bind hshape fun _ _ => .ok _) fun _ _ => .ok _
  | _ => cases hf

/-- The first two operands are parsed one after the other. -/
theorem Request.scores_bind {α : Type} (r : Request) (f : Score × Score → Except Fault α) :
    r.scores >>= f = (do
      let left ← r.score 0
      let right ← r.score 1
      f (left, right)) := by
  unfold scores
  cases r.score 0 with
  | error e => rfl
  | ok left =>
    cases r.score 1 with
    | error e => rfl
    | ok right => rfl

theorem evaluate_onTwo (hf : f ∈ command.onTwo) (t u : String) :
    Request.evaluate nesting settings ⟨command, false, [.string t, .string u], none, none⟩ = (do
      let left ← Score.parse (.string t) none none
      let right ← Score.parse (.string u) none none
      f left right) := by
  cases command with
  | compare | add | subtract =>
    cases hf
    exact Request.scores_bind _ _
  | _ => cases hf

/-- **A command on two scores** parses its texts from the left. -/
theorem reports_onTwo (hf : f ∈ command.onTwo) (hu : u ≠ "--")
    (ht : Numeral.KeepsLimit t.toList) (hk : Numeral.KeepsLimit u.toList) :
    (run nesting (.given settings) [command.name, "--", t, u]).Reports (do
      let left ← Score.parse (.string t) none none
      let right ← Score.parse (.string u) none none
      f left right) := by
  have hn : command.operandNames = ["left", "right"] := by
    cases command with
    | compare | add | subtract => rfl
    | _ => cases hf
  have hw : Request.ofWords [command.name, "--", t, u] =
      .ok (.request ⟨command, false, [.string t, .string u], none, none⟩) :=
    Request.ofWords_separator command ("left", t) [("right", u)] hn (by simpa using hu)
  refine reports_of_ofWords hw (evaluate_onTwo hf t u) ?_
  exact .bind (Score.refusesWith_parse ht) fun left _ =>
    .bind (Score.refusesWith_parse hk) fun right _ => refusesWith_onTwo hf left right

end OnTwo

/-! ## One score -/

section OnOne

variable {f : Score → String}

theorem evaluate_onOne (hf : f ∈ command.onOne) (t : String) :
    Request.evaluate nesting settings ⟨command, false, [.string t], none, none⟩ = (do
      let s ← Score.parse (.string t) none none
      .ok (f s)) := by
  cases command with
  | showScore | negate | encode | hash =>
    rw [← Option.some.inj hf]
    rfl
  | _ => cases hf

/-- **A command on one score** parses its text. -/
theorem reports_onOne (hf : f ∈ command.onOne) (ht : Numeral.KeepsLimit t.toList) :
    (run nesting (.given settings) [command.name, "--", t]).Reports (do
      let s ← Score.parse (.string t) none none
      .ok (f s)) := by
  have hn : command.operandNames = ["score"] := by
    cases command with
    | showScore | negate | encode | hash => rfl
    | _ => cases hf
  have hw : Request.ofWords [command.name, "--", t] =
      .ok (.request ⟨command, false, [.string t], none, none⟩) :=
    Request.ofWords_separator command ("score", t) [] hn (by simp)
  exact reports_of_ofWords hw (evaluate_onOne hf t)
    (.bind (Score.refusesWith_parse ht) fun s _ => .ok _)

end OnOne

/-! ## Summaries -/

/-- **A written summary is read back** as the document that it is. -/
theorem Diagnostics.read_indented_toValue (d : Diagnostics) :
    Json.read {} (Json.indented 0 d.toValue) = .ok d.toValue := by
  have hint : ∀ depth (n : Int), Json.Layout {} depth (Json.indented depth (.int n)) (.int n) :=
    fun _ n => Json.layout_compact_int_unlimited n
  have hstring : ∀ depth (s : String),
      Json.Layout {} depth (Json.indented depth (.string s)) (.string s) := fun _ s => .string s
  have hbool : ∀ b : Bool, Json.Layout {} 1 (Json.indented 1 (.bool b)) (.bool b) := by
    intro b
    cases b with
    | false => exact .false
    | true => exact .true
  have hallows : Json.Limits.Allows {} 1 := nofun
  refine Json.read_indented_dict (by simp [Value.names]) ?_
  simp only [List.forall_mem_cons, List.not_mem_nil, false_implies, implies_true, and_true]
  refine ⟨hstring 1 _, hstring 1 _, hint 1 _, hint 1 _, hint 1 _, hbool _, hbool _, ?_, ?_⟩
  · exact Json.layout_indented_list hallows (List.forall_mem_map.mpr fun i _ => hint 2 i)
  · exact Json.layout_indented_list hallows (List.forall_mem_map.mpr fun s _ => hstring 2 s)

/-! ## Snapshots -/

/-- Decoding refuses with decode errors, if neither the text nor the one in it exceeds the digit
limit and the limit on the nesting changes nothing. -/
theorem Snapshot.refusesWith_decode (ht : Numeral.KeepsLimit t.toList)
    (hk : ∀ members text, Json.read (.standard nesting) t.toList = .ok (.dict members) →
      members.lookup "score" = some (.string text) → Numeral.KeepsLimit text.toList)
    (hn : Json.read (.standard nesting) t.toList = Json.read (.standard none) t.toList) :
    RefusesWith Fault.IsDecodeError (decode nesting (.string t)) := by
  cases hr : Json.read (.standard nesting) t.toList with
  | ok v =>
    rw [decode_of_read hr]
    cases v with
    | dict members =>
      have hw : Value.membersWritable members = true := Json.isWritable_of_read hr
      exact refusesWith_ofMembers hw fun text htext => hk members text hr htext
    | _ => exact refusesWith_refuse _
  | error e =>
    cases e with
    | invalid e =>
      simp only [decode, decodeText, hr]
      exact refusesWith_refuse _
    | tooManyDigits =>
      -- the text keeps to the limit
      exact absurd hr (Json.read_ne_tooManyDigits ht)
    | tooDeep => exact absurd hn ((Json.read_eq_tooDeep_iff _ nesting t.toList).mp hr)

theorem not_isScoreError_tooDeep : ¬Fault.tooDeep.IsScoreError := by
  rintro ⟨e, he⟩
  cases he

/-- The words of the command on a snapshot. -/
theorem ofWords_decode (t : String) : Request.ofWords [Command.decode.name, "--", t] =
    .ok (.request ⟨.decode, false, [.string t], none, none⟩) :=
  Request.ofWords_separator .decode ("snapshot", t) [] rfl (by simp)

/-- **The command on a snapshot** decodes its text. -/
theorem reports_decode (ht : Numeral.KeepsLimit t.toList)
    (hk : ∀ members text, Json.read (.standard nesting) t.toList = .ok (.dict members) →
      members.lookup "score" = some (.string text) → Numeral.KeepsLimit text.toList)
    (hn : Json.read (.standard nesting) t.toList = Json.read (.standard none) t.toList) :
    (run nesting (.given settings) [Command.decode.name, "--", t]).Reports (do
      let s ← Snapshot.decode nesting (.string t)
      .ok (toString s)) := by
  have hdecode : RefusesWith Fault.IsScoreError (Snapshot.decode nesting (.string t)) := by
    refine (Snapshot.refusesWith_decode ht hk hn).mono ?_
    rintro f ⟨e, rfl⟩
    exact ⟨_, rfl⟩
  exact reports_of_ofWords (ofWords_decode t) rfl (.bind hdecode fun s _ => .ok _)

/-- **A fault of decoding that is no error about scores escapes** from the command. -/
theorem escapes_decode {f : Fault} (hf : Snapshot.decode nesting (.string t) = .error f)
    (hne : ¬f.IsScoreError) :
    run nesting (.given settings) [Command.decode.name, "--", t] = .escaped f := by
  have he : Request.evaluate nesting settings ⟨.decode, false, [.string t], none, none⟩ =
      .error f := by
    change (Snapshot.decode nesting (.string t) >>= fun s => .ok (toString s)) = .error f
    rw [hf]
    rfl
  rw [run_of_ofWords (ofWords_decode t), Request.outcome_escaped he hne]

/-! ## A score and a number -/

section Scaling

variable {f : Score → Value → Except Fault Score}

/-- A number scales every score. -/
theorem scaling_real (hf : f ∈ command.scaling) (s : Score) (x : Binary64) :
    ∃ r, f s (.real x) = .ok r := by
  cases command with
  | multiply | divide | power =>
    cases hf
    exact ⟨_, rfl⟩
  | _ => cases hf

theorem evaluate_scaling (hf : f ∈ command.scaling) (t : String) (x : Binary64) :
    Request.evaluate nesting settings ⟨command, false, [.string t, .real x], none, none⟩ = (do
      let s ← Score.parse (.string t) none none
      let r ← f s (.real x)
      .ok (toString r)) := by
  cases command with
  | multiply | divide | power =>
    cases hf
    rfl
  | _ => cases hf

/-- The second operand of a command that scales must be a number. -/
theorem operandsOf_scaling (t u : String) :
    Request.operandsOf [("score", t), (Command.numberName, u)] =
      match Binary64.ofText? u.toList with
      | some x => .ok [.string t, .real x]
      | none => .error (.notNumber Command.numberName u) := by
  have hs : ¬"score" = Command.numberName := by decide
  simp only [Request.operandsOf, List.mapM_cons, List.mapM_nil, Request.operandOfWord, if_neg hs,
    if_true]
  cases Binary64.ofText? u.toList with
  | none => rfl
  | some x => rfl

theorem ofWords_scaling (hf : f ∈ command.scaling) (t : String) (hu : u ≠ "--") :
    Request.ofWords [command.name, "--", t, u] =
      match Binary64.ofText? u.toList with
      | some x => .ok (.request ⟨command, false, [.string t, .real x], none, none⟩)
      | none => .error ⟨some command, .notNumber Command.numberName u⟩ := by
  have hn : command.operandNames = ["score", Command.numberName] := by
    cases command with
    | multiply | divide | power => rfl
    | _ => cases hf
  have hw := Request.ofWords_separator command ("score", t) [(Command.numberName, u)] hn
    (by simpa using hu)
  rw [operandsOf_scaling] at hw
  refine hw.trans ?_
  cases Binary64.ofText? u.toList with
  | none => rfl
  | some x => rfl

/-- **A command that scales** takes a number that is read. -/
theorem reports_scaling (hf : f ∈ command.scaling) (hu : u ≠ "--") {x : Binary64}
    (hx : Binary64.ofText? u.toList = some x) (ht : Numeral.KeepsLimit t.toList) :
    (run nesting (.given settings) [command.name, "--", t, u]).Reports (do
      let s ← Score.parse (.string t) none none
      let r ← f s (.real x)
      .ok (toString r)) := by
  have hw := ofWords_scaling hf t hu
  rw [hx] at hw
  refine reports_of_ofWords hw (evaluate_scaling hf t x) ?_
  refine .bind (Score.refusesWith_parse ht) fun s _ => .bind ?_ fun r _ => .ok _
  obtain ⟨r, hr⟩ := scaling_real hf s x
  rw [hr]
  exact .ok r

/-- A number that cannot be read is a usage error, whatever the score is. -/
theorem usage_scaling (hf : f ∈ command.scaling) (t : String) (hu : u ≠ "--")
    (hx : Binary64.ofText? u.toList = none) :
    run nesting (.given settings) [command.name, "--", t, u] =
      .finished (UsageError.report ⟨some command, .notNumber Command.numberName u⟩) := by
  have hw := ofWords_scaling hf t hu
  rw [hx] at hw
  rw [run, hw]

end Scaling

/-! ## All commands on scores -/

/-- **Commands agree with the library**, whatever the settings and the texts behind the separator: a
command on two scores or on one score reports what the library gives for its texts, parsed from the
left. What is shown of a score is its summary, laid out in lines, that reads back as the same
document. A snapshot is decoded with a report exactly where the limit on the nesting changes nothing
in what is read; otherwise the fault of that escapes. It changes nothing in a text that opens no
more lists and dictionaries than may nest. A command that scales reports what the library gives for
a number that is read, and ends with a usage error for any other text in its place. -/
theorem run_reports_library (nesting : Option Nat) (settings : Settings) (t u : String) :
    (∀ c f, f ∈ Command.onTwo c → u ≠ "--" → Numeral.KeepsLimit t.toList →
      Numeral.KeepsLimit u.toList →
        (run nesting (.given settings) [c.name, "--", t, u]).Reports (do
          let left ← Score.parse (.string t) none none
          let right ← Score.parse (.string u) none none
          f left right)) ∧
    (∀ c f, f ∈ Command.onOne c → Numeral.KeepsLimit t.toList →
      (run nesting (.given settings) [c.name, "--", t]).Reports (do
        let s ← Score.parse (.string t) none none
        .ok (f s))) ∧
    (∀ s : Score,
      let summary := (Diagnostics.ofScore s).toValue
      Json.indented 0 summary = ['\n'].intercalate (Json.lines summary) ∧
        (∀ line ∈ Json.lines summary, '\n' ∉ line) ∧
        Json.read {} (Json.indented 0 summary) = .ok summary) ∧
    (Numeral.KeepsLimit t.toList →
      (∀ members text, Json.read (.standard nesting) t.toList = .ok (.dict members) →
        members.lookup "score" = some (.string text) → Numeral.KeepsLimit text.toList) →
      (Json.read (.standard nesting) t.toList = Json.read (.standard none) t.toList →
        (run nesting (.given settings) [Command.decode.name, "--", t]).Reports (do
          let s ← Snapshot.decode nesting (.string t)
          .ok (toString s))) ∧
      (Json.read (.standard nesting) t.toList ≠ Json.read (.standard none) t.toList →
        run nesting (.given settings) [Command.decode.name, "--", t] = .escaped .tooDeep)) ∧
    ((∀ k ∈ nesting, t.toList.countP Json.opens ≤ k + 1) →
      Json.read (.standard nesting) t.toList = Json.read (.standard none) t.toList) ∧
    (∀ c f, f ∈ Command.scaling c → u ≠ "--" →
      (∀ x, Binary64.ofText? u.toList = some x → Numeral.KeepsLimit t.toList →
        (run nesting (.given settings) [c.name, "--", t, u]).Reports (do
          let s ← Score.parse (.string t) none none
          let r ← f s (.real x)
          .ok (toString r))) ∧
      (Binary64.ofText? u.toList = none → ∃ r,
        run nesting (.given settings) [c.name, "--", t, u] = .finished r ∧ r.code = 2)) := by
  refine ⟨fun c f hf hu ht hk => reports_onTwo hf hu ht hk,
    fun c f hf ht => reports_onOne hf ht,
    fun s => ⟨?_, Json.unbroken_lines _, Diagnostics.read_indented_toValue _⟩,
    fun ht hk => ⟨fun hn => reports_decode ht hk hn, fun hn => ?_⟩, Json.read_eq_of_opens_le _,
    fun c f hf hu => ⟨fun x hx ht => reports_scaling hf hu hx ht, fun hx => ?_⟩⟩
  · exact Json.indented_eq_lines 0 _
  · have hdeep : Snapshot.decode nesting (.string t) = .error .tooDeep := by
      rwa [Snapshot.decode_eq_tooDeep_iff, Json.read_eq_tooDeep_iff]
    exact escapes_decode hdeep not_isScoreError_tooDeep
  · exact ⟨_, usage_scaling hf t hu hx, rfl⟩

/-- Texts that look like switches, like numbers and like separators are taken as they stand. A list
inside a list nests too deep where none may stand around another. -/
theorem run_reports_library_dashes :
    (run (some 0) (.given {}) ["compare", "--", "-1init[-3]hard/[]soft", "[7]hard/[]soft"]).Reports
        (.ok "<") ∧
      (∃ e : ParseError, e.text = "-h" ∧
        (run (some 0) (.given {}) ["add", "--", "-h", "-v"]).Reports (.error (.score (.parse e)))) ∧
      (∃ e : ParseError, e.text = "--" ∧
        (run (some 0) (.given {}) ["negate", "--", "--"]).Reports (.error (.score (.parse e)))) ∧
      (∃ e, (run (some 0) (.given {}) ["decode", "--", "-1"]).Reports
        (.error (.score (.decode e)))) ∧
      run (some 0) (.given {}) ["decode", "--", "[["] = .escaped .tooDeep ∧
      (run (some 0) (.given {}) ["multiply", "--", "-1init[]hard/[]soft", "-2"]).Reports (do
        let s ← Score.parse (.string "-1init[]hard/[]soft") none none
        let r ← s.multiply (.real (Binary64.ofDecimal true 2 0))
        .ok (toString r)) ∧
      ∃ r, run (some 0) (.given {}) ["divide", "--", "-1init[]hard/[]soft", "-h"] = .finished r ∧
        r.code = 2 := by
  have hk : ∀ text : String, text.toList.length ≤ 22 → Numeral.KeepsLimit text.toList :=
    fun text h => Numeral.keepsLimit_of_length_le (Nat.le_trans h (by decide))
  have hopened : Json.read (.standard (some 0)) "[[".toList = .error .tooDeep := by rfl
  refine ⟨?_, ⟨⟨"-h", "-h", .missingStart⟩, rfl, ?_⟩, ⟨⟨"--", "--", .missingStart⟩, rfl, ?_⟩,
    ⟨.notObject "int", ?_⟩, ?_, ?_, ?_⟩
  · exact (run_reports_library (some 0) {} "-1init[-3]hard/[]soft" "[7]hard/[]soft").1 .compare _
      rfl (by decide) (hk _ (by decide)) (hk _ (by decide))
  · exact (run_reports_library (some 0) {} "-h" "-v").1 .add _ rfl (by decide) (hk _ (by decide))
      (hk _ (by decide))
  · exact (run_reports_library (some 0) {} "--" "").2.1 .negate _ rfl (hk _ (by decide))
  · have hall := (run_reports_library (some 0) {} "-1" "").2.2.2
    refine (hall.1 (hk _ (by decide)) ?_).1 (hall.2.1 (by decide))
    intro members text h
    cases h
  · have hall := (run_reports_library (some 0) {} "[[" "").2.2.2
    refine (hall.1 (hk _ (by decide)) ?_).2 ((Json.read_eq_tooDeep_iff _ _ _).mp hopened)
    intro members text h
    cases hopened.symm.trans h
  · exact ((run_reports_library (some 0) {} "-1init[]hard/[]soft" "-2").2.2.2.2.2 .multiply _ rfl
      (by decide)).1 _ rfl (hk _ (by decide))
  · exact ((run_reports_library (some 0) {} "-1init[]hard/[]soft" "-h").2.2.2.2.2 .divide _ rfl
      (by decide)).2 rfl

/-- A thousand lists that are opened inside each other, where fewer may nest: the text has no digit
and is no JSON, but the command does not report a decode error. -/
theorem run_decode_opened :
    let text := String.ofList (List.replicate 1000 '[')
    Numeral.KeepsLimit text.toList ∧ ∀ k < 999,
      run (some k) (.given {}) ["decode", "--", text] = .escaped .tooDeep ∧
        ∀ x, ¬(run (some k) (.given {}) ["decode", "--", text]).Reports x := by
  intro text
  have hlist : text.toList = List.replicate 1000 '[' := String.toList_ofList
  refine ⟨Numeral.keepsLimit_of_length_le ?_, fun k hk => ?_⟩
  · rw [hlist, List.length_replicate]
    decide
  have hread : Json.read (.standard (some k)) text.toList = .error .tooDeep := by
    have hopened : Json.read (.standard (some k)) (List.replicate 1000 '[' ++ []) =
        .error .tooDeep := Json.read_opened rfl (by omega) []
    rwa [List.append_nil, ← hlist] at hopened
  have hrun : run (some k) (.given {}) ["decode", "--", text] = .escaped .tooDeep :=
    escapes_decode ((Snapshot.decode_eq_tooDeep_iff _ text).mpr hread) not_isScoreError_tooDeep
  refine ⟨hrun, fun x hx => ?_⟩
  rw [hrun] at hx
  cases x with
  | ok output =>
    obtain ⟨r, hr, -⟩ := hx
    cases hr
  | error f =>
    obtain ⟨r, e, hr, -⟩ := hx
    cases hr

end Bendable
