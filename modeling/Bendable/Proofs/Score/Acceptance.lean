import Bendable.Proofs.Score.Grammar

/-!
# What is parsed as a score

A text that keeps to the digit limit is parsed as a score exactly if the grammar makes it a text of
that score; in every other case the parse error quotes the text. Expected numbers of levels are
compared with the numbers that were read, and a difference is a parse error as well, unless its
message would need an integer beyond the limit.

## Main definitions

* `Fault.IsParseError text f`: the fault `f` is a parse error about `text`

## Main results

* `Score.parseText_eq_ok_iff`: the texts that are parsed, with the numbers of levels expected
* `Score.refusesWith_parseText`: the faults of the others
* `Score.parse_accepts_exactly_spelled`: the texts that are parsed, with no numbers expected
-/

namespace Bendable

/-- **A parse error about a text.** -/
def Fault.IsParseError (text : String) (f : Fault) : Prop :=
  ∃ token reason, f = .score (.parse ⟨text, token, reason⟩)

/-- A part that is not blamed for a count is reported in a parse error. -/
theorem Rejection.Blames.isParseError_of_ne {text : String} {r : Rejection}
    (h : r.Blames text.toList) (hne : r ≠ .tooManyDigits) : (r.fault text).IsParseError text := by
  cases r with
  | tooManyDigits => exact absurd rfl hne
  | segment token reason =>
    refine ⟨String.ofList token, reason, if_pos ?_⟩
    -- Only a wrong count could make the message too long, and a count is not blamed.
    cases reason with
    | wrongCount group expected actual => exact absurd rfl (h.2 group expected actual)
    | _ => rfl

/-- Within the digit limit there is a part to be blamed. -/
theorem Rejection.Blames.isParseError {text : String} {r : Rejection}
    (h : r.Blames text.toList) (hk : Numeral.KeepsLimit text.toList) :
    (r.fault text).IsParseError text := by
  refine h.isParseError_of_ne ?_
  rintro rfl
  exact h hk

namespace Score

/-! ## Expected numbers of levels -/

theorem checkCount_eq_ok_iff {group : Group} {s : Score} {expected : Option Value} :
    checkCount group s expected = .ok () ↔
      ∀ v ∈ expected, (Value.int (s.group group).length).equals v = true := by
  cases expected with
  | none => simp [checkCount]
  | some v =>
    simp only [checkCount, Option.mem_def, Option.some.injEq, forall_eq']
    split <;> simp_all

theorem refusesWith_checkCount {group : Group} {s : Score} {expected : Option Value}
    (h : ∀ v ∈ expected, v.isWritable = true) (text : String) :
    RefusesWith (fun r => (r.fault text).IsParseError text) (checkCount group s expected) := by
  cases expected with
  | none => exact .ok ()
  | some v =>
    simp only [checkCount]
    split
    · exact .ok ()
    · exact .error ⟨_, _, if_pos (h v rfl)⟩

/-! ## Parsing -/

/-- After reading, only the numbers of levels are left to check. -/
theorem parseText_of_read {text : String} {s : Score} (h : read text.toList = .ok s)
    (hard soft : Option Value) :
    parseText hard soft text =
      (checkCount .hard s hard).mapError (Rejection.fault text) >>= fun _ =>
        (checkCount .soft s soft).mapError (Rejection.fault text) >>= fun _ => .ok s := by
  rw [parseText, readExpecting, h]
  change (checkCount .hard s hard >>= fun _ =>
    checkCount .soft s soft >>= fun _ => .ok s).mapError _ = _
  simp only [mapError_bind]
  rfl

/-- A text that is not read is refused, whatever numbers of levels are expected. -/
theorem parseText_of_read_error {text : String} {r : Rejection} (h : read text.toList = .error r)
    (hard soft : Option Value) : parseText hard soft text = .error (r.fault text) := by
  rw [parseText, readExpecting, h]
  rfl

theorem parseText_eq_ok_iff {hard soft : Option Value} {text : String} {s : Score} :
    parseText hard soft text = .ok s ↔ Spells Level.Readable text.toList s ∧
      (∀ v ∈ hard, (Value.int s.hard.length).equals v = true) ∧
        ∀ v ∈ soft, (Value.int s.soft.length).equals v = true := by
  simp only [parseText, mapError_eq_ok_iff, readExpecting, bind_eq_ok_iff (x := read _),
    check_bind_eq_ok_iff, read_eq_ok_iff, checkCount_eq_ok_iff, Except.ok.injEq]
  constructor
  · rintro ⟨t, ht, hh, hs, rfl⟩
    exact ⟨ht, hh, hs⟩
  · rintro ⟨ht, hh, hs⟩
    exact ⟨s, ht, hh, hs, rfl⟩

theorem parse_eq_ok_iff {text : String} {s : Score} :
    parse (.string text) none none = .ok s ↔ Spells Level.Readable text.toList s := by
  simp [parse, parseText_eq_ok_iff]

/-- **The faults of a text**: within the digit limit they are parse errors about it. -/
theorem refusesWith_parseText {hard soft : Option Value} {text : String}
    (hk : Numeral.KeepsLimit text.toList) (hh : ∀ v ∈ hard, v.isWritable = true)
    (hs : ∀ v ∈ soft, v.isWritable = true) :
    RefusesWith (Fault.IsParseError text) (parseText hard soft text) := by
  refine .mapError (P := fun r => (r.fault text).IsParseError text) ?_ fun _ h => h
  refine .bind ((refusesWith_read text.toList).mono fun r hr => hr.isParseError hk) fun s _ => ?_
  exact .bind (refusesWith_checkCount hh text) fun _ _ =>
    .bind (refusesWith_checkCount hs text) fun _ _ => .ok s

/-- Within the digit limit every numeral is readable. -/
theorem spells_readable_iff {text : List Char} (hk : Numeral.KeepsLimit text) {s : Score} :
    Spells Level.Readable text s ↔ Spells Level.Spells text s :=
  ⟨fun h => h.imp fun _ _ _ hp => hp.1,
    fun h => h.imp fun _ _ hi hp => ⟨hp, (hk.of_infix hi).digits_le hp⟩⟩

/-- **Parsing accepts exactly the grammar**, and gives the init score and the levels that the
numerals stand for. Every other text is refused with a parse error about it. -/
theorem parse_accepts_exactly_spelled (text : String) (hk : Numeral.KeepsLimit text.toList) :
    (∀ s, parse (.string text) none none = .ok s ↔ Spells Level.Spells text.toList s) ∧
      ((∀ s, ¬Spells Level.Spells text.toList s) →
        ∃ f, parse (.string text) none none = .error f ∧ f.IsParseError text) := by
  have hok : ∀ s, parse (.string text) none none = .ok s ↔ Spells Level.Spells text.toList s := by
    intro s
    rw [← spells_readable_iff hk]
    exact parse_eq_ok_iff
  refine ⟨hok, fun hn => ?_⟩
  -- No count is expected, so no count can be beyond the limit.
  have hr : RefusesWith (Fault.IsParseError text) (parse (.string text) none none) :=
    refusesWith_parseText hk (by simp) (by simp)
  exact hr.exists_error fun s hs => hn s ((hok s).mp hs)

/-- A text with a slash after the label, a plus sign, leading zeros and no soft levels. -/
theorem parse_lenient_spelling :
    Numeral.KeepsLimit "-7init/[+007/-2147483648]hard/[]soft".toList ∧
      parse (.string "-7init/[+007/-2147483648]hard/[]soft") none none =
        .ok ⟨Level.wrap (-7), [Level.wrap 7, Level.least], []⟩ := by
  have hk : Numeral.KeepsLimit "-7init/[+007/-2147483648]hard/[]soft".toList :=
    Numeral.keepsLimit_of_length_le (by decide)
  have hi : Level.Spells ['-', '7'] (Level.wrap (-7)) := Numeral.ofSigned?_eq_some_iff.mp rfl
  have ha : Level.Spells ['+', '0', '0', '7'] (Level.wrap 7) := Numeral.ofSigned?_eq_some_iff.mp rfl
  have hb : Level.Spells "-2147483648".toList Level.least := Numeral.ofSigned?_eq_some_iff.mp rfl
  exact ⟨hk, ((parse_accepts_exactly_spelled _ hk).1 _).mpr
    ⟨_, _, [], .slash hi, .cons ha (.cons hb .nil), .nil, rfl⟩⟩

end Score

end Bendable
