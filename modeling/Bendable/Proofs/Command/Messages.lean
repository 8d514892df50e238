import Bendable.Command.Run
import Bendable.Proofs.Snapshot.Strict
import Bendable.Proofs.Text.Line

/-!
# Messages of refused commands

The error output is made of lines, so a message must not break one. Whatever the operands of a
command are, the error about scores that it is refused with has a message on one line: texts and
values are quoted in it, and what is not quoted is a name, a number or a score.

## Main definitions

* `Fault.SaysOneLine f`: if the fault `f` is an error about scores, its message stands on one line
* `Rejection.SaysOneLine r`: the same of the reason of a rejected text

## Main results

* `Score.refusesWith_parse_oneLine`, `Snapshot.refusesWith_decode_oneLine`: the readers' errors
* `Request.refusesWith_evaluate`: the errors of all commands
-/

namespace Bendable

/-- **A message on one line**, if the fault is an error about scores. -/
def Fault.SaysOneLine : Fault → Prop
  | .score e => OneLine e.message
  | _ => True

/-- **A reason on one line**, if a part of the text is to blame. -/
def Rejection.SaysOneLine : Rejection → Prop
  | .segment _ reason => OneLine reason.message
  | .tooManyDigits => True

theorem oneLine_intText (n : Int) : OneLine (intText n) :=
  oneLine_ofList.mpr (Numeral.newline_not_mem_ofInt n)

/-! ## Raised errors -/

/-- A raised error is itself, or the fault of an integer beyond the digit limit. -/
theorem Fault.saysOneLine_ofError {e : ScoreError} (h : OneLine e.message) :
    (ofError e).SaysOneLine := by
  unfold ofError
  split
  · exact h
  · trivial

theorem Fault.refusesWith_raise {α : Type} {e : ScoreError} (h : OneLine e.message) :
    RefusesWith SaysOneLine (raise e : Except Fault α) :=
  .error (saysOneLine_ofError h)

/-! ## Parse errors -/

theorem Group.oneLine_name (group : Group) : OneLine group.name := by
  cases group <;> decide

theorem Place.oneLine_name (place : Place) : OneLine place.name := by
  cases place with
  | init => decide
  | level group index =>
    unfold name
    simp only [oneLine_append, group.oneLine_name, oneLine_intText, and_true, true_and]
    decide

/-- The reasons for a part of a text show nothing but its place. -/
theorem ParseReason.oneLine_message {reason : ParseReason}
    (ht : ∀ typeName, reason = .notText typeName → OneLine typeName)
    (hc : ∀ group expected actual, reason = .wrongCount group expected actual →
      OneLine expected.display) : OneLine reason.message := by
  unfold message
  cases reason with
  | notText typeName =>
    simp only [oneLine_append, ht typeName rfl, and_true]
    decide
  | notInteger place | outOfRange place =>
    simp only [oneLine_append, place.oneLine_name, true_and]
    decide
  | wrongCount group expected actual =>
    simp only [oneLine_append, hc group expected actual rfl, group.oneLine_name, oneLine_intText,
      and_true]
    decide
  | _ => decide

/-- The message of a parse error quotes everything but its reason. -/
theorem ParseError.oneLine_message {e : ParseError} (h : OneLine e.reason.message) :
    OneLine e.message := by
  unfold message
  simp only [oneLine_append, Quoted.oneLine_quote, h, and_true]
  decide

theorem Rejection.refusesWith_segment {α : Type} {token : List Char} {reason : ParseReason}
    (h : OneLine reason.message) :
    RefusesWith SaysOneLine (.error (segment token reason) : Except Rejection α) :=
  .error h

theorem Level.refusesWith_read_oneLine (place : Place) (piece : List Char) :
    RefusesWith Rejection.SaysOneLine (Level.read place piece) := by
  unfold Level.read
  split
  · exact Rejection.refusesWith_segment (ParseReason.oneLine_message nofun nofun)
  · split
    · exact .error trivial
    · split
      · exact .ok _
      · exact Rejection.refusesWith_segment (ParseReason.oneLine_message nofun nofun)

theorem Level.refusesWith_readAll_oneLine (group : Group) (index : Nat)
    (pieces : List (List Char)) :
    RefusesWith Rejection.SaysOneLine (Level.readAll group index pieces) := by
  induction pieces generalizing index with
  | nil => exact .ok []
  | cons piece rest ih =>
    exact .bind (Level.refusesWith_read_oneLine _ piece) fun a _ =>
      .bind (ih (index + 1)) fun as _ => .ok (a :: as)

namespace Score

theorem refusesWith_readInit_oneLine (text : List Char) :
    RefusesWith Rejection.SaysOneLine (readInit text) := by
  unfold readInit
  split
  · exact .ok _
  · split
    · exact Rejection.refusesWith_segment (by decide)
    · refine .bind (Level.refusesWith_read_oneLine _ _) fun a _ => ?_
      split <;> exact .ok _

theorem refusesWith_bodies_oneLine (text : List Char) :
    RefusesWith Rejection.SaysOneLine (bodies text) := by
  unfold bodies
  split
  · split
    · exact Rejection.refusesWith_segment (by decide)
    · split
      · exact Rejection.refusesWith_segment (by decide)
      · exact .ok _
  · exact Rejection.refusesWith_segment (by decide)

theorem refusesWith_read_oneLine (text : List Char) :
    RefusesWith Rejection.SaysOneLine (read text) :=
  .bind (refusesWith_readInit_oneLine text) fun _ _ =>
    .bind (refusesWith_bodies_oneLine _) fun _ _ =>
      .bind (Level.refusesWith_readAll_oneLine _ _ _) fun _ _ =>
        .bind (Level.refusesWith_readAll_oneLine _ _ _) fun _ _ => .ok _

/-- An expected number is shown as it is displayed. -/
theorem refusesWith_checkCount_oneLine {group : Group} {s : Score} {expected : Option Value}
    (h : ∀ v ∈ expected, OneLine v.display) :
    RefusesWith Rejection.SaysOneLine (checkCount group s expected) := by
  cases expected with
  | none => exact .ok ()
  | some v =>
    simp only [checkCount]
    split
    · exact .ok ()
    · refine Rejection.refusesWith_segment (ParseReason.oneLine_message ?_ ?_)
      · intro _ htext
        cases htext
      · intro _ _ _ hcount
        cases hcount
        exact h v rfl

theorem refusesWith_parseText_oneLine {hard soft : Option Value}
    (hh : ∀ v ∈ hard, OneLine v.display) (hs : ∀ v ∈ soft, OneLine v.display) (text : String) :
    RefusesWith Fault.SaysOneLine (parseText hard soft text) := by
  refine .mapError (P := Rejection.SaysOneLine) ?_ ?_
  · exact .bind (refusesWith_read_oneLine _) fun s _ =>
      .bind (refusesWith_checkCount_oneLine hh) fun _ _ =>
        .bind (refusesWith_checkCount_oneLine hs) fun _ _ => .ok s
  · intro r hr
    cases r with
    | segment token reason =>
      exact Fault.saysOneLine_ofError (ParseError.oneLine_message hr)
    | tooManyDigits => trivial

/-- **A parse error says its message on one line**, whatever the value is that should be a text. -/
theorem refusesWith_parse_oneLine (v : Value) :
    RefusesWith Fault.SaysOneLine (parse v none none) := by
  unfold parse
  split
  · exact refusesWith_parseText_oneLine (by simp) (by simp) _
  · split
    · refine Fault.refusesWith_raise (ParseError.oneLine_message ?_)
      refine ParseReason.oneLine_message ?_ nofun
      rintro _ ⟨⟩
      exact Value.oneLine_typeName _
    · exact .error trivial

/-- Scores that do not combine are shown in the message. -/
theorem refusesWith_validate_oneLine (s t : Score) :
    RefusesWith Fault.SaysOneLine (s.validate t) := by
  have hcount : ∀ name m n, OneLine name →
      OneLine (ShapeError.countMessage (.score s) (.score t) name m n) := by
    intro name m n hname
    unfold ShapeError.countMessage
    simp only [oneLine_append, Operand.display, s.oneLine_toString, t.oneLine_toString, hname,
      oneLine_intText, and_true]
    decide
  unfold validate Operand.validate
  split
  · exact .ok ()
  · refine Fault.refusesWith_raise ?_
    change OneLine (if s.shape.1 = t.shape.1 then _ else _)
    split
    · exact hcount _ _ _ (by decide)
    · exact hcount _ _ _ (by decide)

end Score

/-! ## Decode errors -/

namespace Snapshot

theorem refusesWith_refuse_oneLine {α : Type} {e : DecodeError} (h : OneLine e.message) :
    RefusesWith Fault.SaysOneLine (refuse e : Except Fault α) :=
  Fault.refusesWith_raise h

theorem oneLine_nameList (names : List String) : OneLine (nameList names) :=
  oneLine_ofList.mpr (Value.newline_not_mem_literal _)

theorem refusesWith_checkFields_oneLine (members : List (String × Value)) :
    RefusesWith Fault.SaysOneLine (checkFields members) := by
  unfold checkFields
  dsimp only
  split
  · exact refusesWith_refuse_oneLine (oneLine_append.mpr ⟨by decide, oneLine_nameList _⟩)
  · split
    · exact refusesWith_refuse_oneLine (oneLine_append.mpr ⟨by decide, oneLine_nameList _⟩)
    · exact .ok ()

theorem refusesWith_checkKind_oneLine (v : Value) :
    RefusesWith Fault.SaysOneLine (checkKind v) := by
  have hkind : ∀ v : Value, OneLine (DecodeError.message (.unsupportedType v)) := by
    intro v
    unfold DecodeError.message
    simp only [oneLine_append, oneLine_ofList, v.newline_not_mem_literal, not_false_eq_true,
      and_true]
    decide
  unfold checkKind
  split
  · split
    · exact .ok ()
    · exact refusesWith_refuse_oneLine (hkind _)
  · exact refusesWith_refuse_oneLine (hkind _)

theorem refusesWith_checkCount_oneLine {name : String} (h : OneLine name) (v : Value) :
    RefusesWith Fault.SaysOneLine (checkCount name v) := by
  unfold checkCount
  split
  · split
    · refine refusesWith_refuse_oneLine ?_
      unfold DecodeError.message
      simp only [oneLine_append, h, oneLine_intText, and_true]
      decide
    · exact .ok ()
  · refine refusesWith_refuse_oneLine ?_
    unfold DecodeError.message
    simp only [oneLine_append, h, v.oneLine_typeName, and_true]
    decide

theorem refusesWith_scoreOfField_oneLine (h c : Nat) (v : Value) :
    RefusesWith Fault.SaysOneLine (scoreOfField (.int h) (.int c) v) := by
  have hcount : ∀ n : Nat, ∀ v ∈ some (Value.int n), OneLine v.display := by
    rintro n v ⟨⟩
    exact oneLine_ofList.mpr (Value.newline_not_mem_literal _)
  unfold scoreOfField
  split
  · rename_i text
    have hparse := Score.refusesWith_parseText_oneLine (hcount h) (hcount c) text
    split
    · -- the message of the parse error stands behind the words of the decoder
      rename_i e he
      have hmessage : OneLine e.message := hparse _ he
      refine refusesWith_refuse_oneLine ?_
      unfold DecodeError.message
      simp only [oneLine_append, hmessage, and_true]
      decide
    · exact hparse
  · exact refusesWith_refuse_oneLine (oneLine_append.mpr ⟨by decide, v.oneLine_typeName⟩)

theorem refusesWith_ofMembers_oneLine (members : List (String × Value)) :
    RefusesWith Fault.SaysOneLine (ofMembers members) := by
  refine .bind (refusesWith_checkFields_oneLine members) fun _ _ =>
    .bind (refusesWith_checkKind_oneLine _) fun _ _ =>
      .bind (refusesWith_checkCount_oneLine (by decide) _) fun _ hh =>
        .bind (refusesWith_checkCount_oneLine (by decide) _) fun _ hs => ?_
  -- Both counts have passed their check, so they are integers.
  obtain ⟨h, hh⟩ := checkCount_eq_ok_iff.mp hh
  obtain ⟨c, hc⟩ := checkCount_eq_ok_iff.mp hs
  rw [hh, hc]
  exact refusesWith_scoreOfField_oneLine h c _

theorem oneLine_syntaxError (e : Json.SyntaxError) : OneLine e.message := by
  have hnat : ∀ n : Nat, OneLine (toString n) := fun n =>
    oneLine_ofList.mpr (Numeral.newline_not_mem_ofNat n)
  have hproblem : OneLine e.problem.message := by
    cases e.problem <;> decide
  unfold Json.SyntaxError.message
  simp only [oneLine_append, hproblem, hnat, true_and, and_true]
  decide

theorem refusesWith_ofValue_oneLine (v : Value) : RefusesWith Fault.SaysOneLine (ofValue v) := by
  unfold ofValue
  split
  · exact refusesWith_ofMembers_oneLine _
  · exact refusesWith_refuse_oneLine (oneLine_append.mpr ⟨by decide, Value.oneLine_typeName _⟩)

/-- **A decode error says its message on one line**, whatever the value is that should be the text
of a snapshot. -/
theorem refusesWith_decode_oneLine (nesting : Option Nat) (v : Value) :
    RefusesWith Fault.SaysOneLine (decode nesting v) := by
  unfold decode
  split
  · unfold decodeText
    split
    · exact refusesWith_ofValue_oneLine _
    · exact refusesWith_refuse_oneLine (oneLine_append.mpr ⟨by decide, oneLine_syntaxError _⟩)
    · exact .error trivial
    · exact .error trivial
  · exact refusesWith_refuse_oneLine (oneLine_append.mpr ⟨by decide, Value.oneLine_typeName _⟩)

end Snapshot

/-! ## Commands -/

namespace Request

/-- A value that is no number is refused with a fault that is no error about scores. -/
theorem refusesWith_toReal_oneLine (v : Value) : RefusesWith Fault.SaysOneLine v.toReal := by
  unfold Value.toReal
  split
  · exact .ok _
  · exact .elim trivial _
  · exact .ok _
  · exact .elim trivial _
  · exact .error trivial

/-- So are counts that are no layout. -/
theorem refusesWith_zeroOf_oneLine (hard soft : Value) :
    RefusesWith Fault.SaysOneLine (Score.zeroOf hard soft) := by
  have hcount : ∀ group v, RefusesWith Fault.SaysOneLine (Score.countOfValue group v) := by
    intro group v
    unfold Score.countOfValue
    split
    · exact .ok _
    · exact .error trivial
  refine .bind (hcount .hard hard) fun h _ => .bind (hcount .soft soft) fun c _ => ?_
  split
  · unfold Fault.raiseLayout
    dsimp only
    split <;> exact .error trivial
  · split
    · exact .error trivial
    · exact .ok _

/-- **Every command says its error on one line**, whatever its operands are. -/
theorem refusesWith_evaluate (nesting : Option Nat) (settings : Settings) (r : Request) :
    RefusesWith Fault.SaysOneLine (r.evaluate nesting settings) := by
  have hscore : ∀ index, RefusesWith Fault.SaysOneLine (r.score index) := fun index =>
    Score.refusesWith_parse_oneLine _
  have hscores : RefusesWith Fault.SaysOneLine r.scores :=
    .bind (hscore 0) fun _ _ => .bind (hscore 1) fun _ _ => .ok _
  have hreal := refusesWith_toReal_oneLine (r.operand 1)
  unfold evaluate
  cases r.command with
  | showScore | negate | encode | hash => exact .bind (hscore 0) fun _ _ => .ok _
  | compare | add | subtract =>
    exact .bind hscores fun p _ =>
      .bind (.bind (Score.refusesWith_validate_oneLine p.1 p.2) fun _ _ => .ok _) fun _ _ => .ok _
  | multiply | divide | power =>
    exact .bind (hscore 0) fun _ _ => .bind (.bind hreal fun _ _ => .ok _) fun _ _ => .ok _
  | zero => exact .bind (refusesWith_zeroOf_oneLine _ _) fun _ _ => .ok _
  | decode => exact .bind (Snapshot.refusesWith_decode_oneLine _ _) fun _ _ => .ok _

end Request

end Bendable
