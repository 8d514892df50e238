import Bendable.Proofs.Json.Unlimited
import Bendable.Proofs.Score.Overlong
import Bendable.Proofs.Snapshot.Strict

/-!
# Snapshots that run into a limit

A text that is not decoded should be refused with a decode error. The checks of the fields do that;
the limits come in from below. The reader of JSON stops at an integer with more digits than the
limit and at a list or dictionary that nests too deep, and the parser of a score stops at an
overlong level in a text that has passed all checks before it. The counts that the parser is told to
expect are no further way, because they have been read from JSON.

## Main definitions

* `Snapshot.Checked members text`: the members pass every check, and `text` is left for the parser

## Main results

* `Snapshot.ofMembers_eq_tooManyDigits_iff`: which members run into the limit
* `Snapshot.decode_eq_tooDeep_iff`: when decoding fails for the nesting
* `Snapshot.decode_decodeError_or_limit`: the faults of decoding, and when each arises
-/

namespace Bendable.Snapshot

/-- **Members that pass the checks**: the four fields and no others, the kind of score, two counts
that are integers from zero up, and a text for the parser. -/
structure Checked (members : List (String × Value)) (text : String) : Prop where
  names : ∀ name, name ∈ Value.names members ↔
    name ∈ ["hard_levels_count", "score", "soft_levels_count", "type"]
  kind : members.lookup "type" = some (.string "bendable")
  hard : ∃ n : Nat, members.lookup "hard_levels_count" = some (.int n)
  soft : ∃ n : Nat, members.lookup "soft_levels_count" = some (.int n)
  score : members.lookup "score" = some (.string text)

variable {members : List (String × Value)}

/-! ## The parser -/

/-- The field of the score runs into the limit where its text does, if the counts keep to it. -/
theorem scoreOfField_eq_tooManyDigits_iff {hard soft v : Value} (hh : hard.isWritable = true)
    (hs : soft.isWritable = true) :
    scoreOfField hard soft v = .error .tooManyDigits ↔
      ∃ text, v = .string text ∧ Score.MeetsOverlong text.toList := by
  cases v with
  | string text =>
    have hcounts : ¬∃ s, Score.Spells Level.Readable text.toList s ∧
        Score.CountsOverlong s (some hard) (some soft) := by
      rintro ⟨s, -, hc⟩
      exact Score.not_countsOverlong (by simpa using hh) (by simpa using hs) hc
    have hparse : Score.parseText (some hard) (some soft) text = .error .tooManyDigits ↔
        Score.MeetsOverlong text.toList := by
      rw [Score.parseText_eq_tooManyDigits_iff, or_iff_left hcounts]
    simp only [Value.string.injEq, exists_eq_left', ← hparse]
    unfold scoreOfField
    dsimp only
    split
    · -- a parse error is no limit, and becomes a decode error
      rename_i he
      simp [he, refuse_eq_error]
    · exact Iff.rfl
  | _ => simp [scoreOfField, refuse_eq_error]

/-! ## The checks together -/

theorem not_isDecodeError_tooManyDigits : ¬Fault.tooManyDigits.IsDecodeError := by
  rintro ⟨e, he⟩
  cases he

/-- **Which members run into the limit**: those that pass the checks with a text that does. -/
theorem ofMembers_eq_tooManyDigits_iff (hw : Value.membersWritable members = true) :
    ofMembers members = .error .tooManyDigits ↔
      ∃ text, Checked members text ∧ Score.MeetsOverlong text.toList := by
  have hn := not_isDecodeError_tooManyDigits
  -- Each check is passed, so what is left is the parser.
  rw [ofMembers, refusesWith_checkFields.check_bind_eq_error_iff hn,
    (refusesWith_checkKind _).check_bind_eq_error_iff hn,
    (refusesWith_checkCount _ _).check_bind_eq_error_iff hn,
    (refusesWith_checkCount _ _).check_bind_eq_error_iff hn,
    scoreOfField_eq_tooManyDigits_iff (isWritable_field hw _) (isWritable_field hw _),
    checkFields_eq_ok_iff, checkKind_eq_ok_iff, checkCount_eq_ok_iff, checkCount_eq_ok_iff]
  constructor
  · rintro ⟨hnames, hkind, ⟨h, hh⟩, ⟨c, hc⟩, text, htext, hover⟩
    exact ⟨text,
      { names := hnames
        kind := field_eq_string_iff.mp hkind
        hard := ⟨h, field_eq_int_iff.mp hh⟩
        soft := ⟨c, field_eq_int_iff.mp hc⟩
        score := field_eq_string_iff.mp htext }, hover⟩
  · rintro ⟨text, ⟨hnames, hkind, ⟨h, hh⟩, ⟨c, hc⟩, htext⟩, hover⟩
    exact ⟨hnames, field_eq_string_iff.mpr hkind, ⟨h, field_eq_int_iff.mpr hh⟩,
      ⟨c, field_eq_int_iff.mpr hc⟩, text, field_eq_string_iff.mpr htext, hover⟩

/-- **A value is refused with a decode error, or at the limit.** -/
theorem refusesWith_ofValue_or_limit (v : Value) :
    RefusesWith (fun f => f.IsDecodeError ∨ f = .tooManyDigits) (ofValue v) := by
  unfold ofValue
  split
  · refine refusesWith_ofMembers_of (fun _ => .inl)
      (refusesWith_scoreOfField_of (fun _ => .inl) fun text _ => ?_)
    exact (Score.refusesWith_parseText_or_limit _ _ text).mono fun _ h => h.imp_right .inr
  · exact (refusesWith_refuse _).mono fun _ => .inl

/-! ## Decoding -/

/-- A value that was read runs into the limit only through its members. -/
theorem ofValue_eq_tooManyDigits_iff {v : Value} (hw : v.isWritable = true) :
    ofValue v = .error .tooManyDigits ↔ ∃ members text, v = .dict members ∧
      Checked members text ∧ Score.MeetsOverlong text.toList := by
  cases v with
  | dict members =>
    rw [ofValue, ofMembers_eq_tooManyDigits_iff hw]
    simp only [Value.dict.injEq, exists_and_left, exists_eq_left']
  | _ => simp [ofValue, refuse_eq_error]

/-- The checks say nothing of the nesting, so decoding fails for it where reading does. -/
theorem decode_eq_tooDeep_iff (nesting : Option Nat) (text : String) :
    decode nesting (.string text) = .error .tooDeep ↔
      Json.read (.standard nesting) text.toList = .error .tooDeep := by
  cases hr : Json.read (.standard nesting) text.toList with
  | ok v =>
    rw [decode_of_read hr]
    have hne : ofValue v ≠ .error .tooDeep := by
      intro h
      rcases refusesWith_ofValue_or_limit v _ h with ⟨e, he⟩ | he <;> cases he
    simp [hne]
  | error e => cases e <;> simp [decode, decodeText, hr, refuse_eq_error]

/-- Decoding runs into the digit limit where reading does, or else behind the checks. -/
theorem decode_eq_tooManyDigits_iff (nesting : Option Nat) (text : String) :
    decode nesting (.string text) = .error .tooManyDigits ↔
      Json.read (.standard nesting) text.toList = .error .tooManyDigits ∨
        ∃ members t, Json.read (.standard nesting) text.toList = .ok (.dict members) ∧
          Checked members t ∧ Score.MeetsOverlong t.toList := by
  cases hr : Json.read (.standard nesting) text.toList with
  | ok v =>
    rw [decode_of_read hr, ofValue_eq_tooManyDigits_iff (Json.isWritable_of_read hr)]
    simp
  | error e => cases e <;> simp [decode, decodeText, hr, refuse_eq_error]

/-- A text is decoded, or refused with a decode error, or at a limit. -/
theorem decode_cases (nesting : Option Nat) (text : String) :
    (∃ s, decode nesting (.string text) = .ok s) ∨
      (∃ e, decode nesting (.string text) = .error (.score (.decode e))) ∨
      decode nesting (.string text) = .error .tooManyDigits ∨
      decode nesting (.string text) = .error .tooDeep := by
  cases hr : Json.read (.standard nesting) text.toList with
  | ok v =>
    rw [decode_of_read hr]
    rcases (refusesWith_ofValue_or_limit v).ok_or_error with hs | ⟨f, hf, ⟨e, rfl⟩ | rfl⟩
    · exact .inl hs
    · exact .inr (.inl ⟨e, hf⟩)
    · exact .inr (.inr (.inl hf))
  | error e =>
    cases e with
    | invalid e =>
      refine .inr (.inl ⟨.invalidJson e, ?_⟩)
      simp [decode, decodeText, hr, refuse_eq_error]
    | tooManyDigits => exact .inr (.inr (.inl (by simp [decode, decodeText, hr])))
    | tooDeep => exact .inr (.inr (.inr (by simp [decode, decodeText, hr])))

/-- **The faults of decoding**: a text that is not decoded is refused with a decode error, or it
runs into the digit limit, or it nests too deep. It runs into the digit limit exactly where the
limit changes what is read as JSON, or where the text in the field of the score runs into it in
members that pass every check. It nests too deep exactly where the limit on the nesting changes what
is read. The digit limit changes nothing in a text that keeps to it, and the other one nothing in a
text without more opening marks than may nest. -/
theorem decode_decodeError_or_limit (nesting : Option Nat) (text : String) :
    ((∃ s, decode nesting (.string text) = .ok s) ∨
      (∃ e, decode nesting (.string text) = .error (.score (.decode e))) ∨
      decode nesting (.string text) = .error .tooManyDigits ∨
      decode nesting (.string text) = .error .tooDeep) ∧
    (decode nesting (.string text) = .error .tooManyDigits ↔
      Json.read (.standard nesting) text.toList ≠ Json.read ⟨none, nesting⟩ text.toList ∨
        ∃ members t, Json.read (.standard nesting) text.toList = .ok (.dict members) ∧
          Checked members t ∧ Score.MeetsOverlong t.toList) ∧
    (decode nesting (.string text) = .error .tooDeep ↔
      Json.read (.standard nesting) text.toList ≠ Json.read (.standard none) text.toList) ∧
    (Numeral.KeepsLimit text.toList →
      Json.read (.standard nesting) text.toList = Json.read ⟨none, nesting⟩ text.toList) ∧
    ((∀ k ∈ nesting, text.toList.countP Json.opens ≤ k + 1) →
      Json.read (.standard nesting) text.toList = Json.read (.standard none) text.toList) := by
  refine ⟨decode_cases nesting text, ?_, ?_, Json.read_eq_of_keepsLimit nesting,
    Json.read_eq_of_opens_le _⟩
  · rw [← Json.read_eq_tooManyDigits_iff]
    exact decode_eq_tooManyDigits_iff nesting text
  · rw [← Json.read_eq_tooDeep_iff]
    exact decode_eq_tooDeep_iff nesting text

/-- A number that keeps to the limit is read alike without one, and is refused with a decode error.
It opens nothing, so it does not nest at all. -/
theorem decode_integer_within_limit :
    Numeral.KeepsLimit "-70".toList ∧
      Json.read (.standard (some 0)) "-70".toList = Json.read ⟨none, some 0⟩ "-70".toList ∧
      (∀ k ∈ some 0, "-70".toList.countP Json.opens ≤ k + 1) ∧
      Json.read (.standard (some 0)) "-70".toList = Json.read (.standard none) "-70".toList ∧
      ∃ e, decode (some 0) (.string "-70") = .error (.score (.decode e)) := by
  have hk : Numeral.KeepsLimit "-70".toList := Numeral.keepsLimit_of_length_le (by decide)
  have hopens : ∀ k ∈ some 0, "-70".toList.countP Json.opens ≤ k + 1 := by decide
  have hread : Json.read (.standard (some 0)) "-70".toList = .ok (.int (-70)) := by rfl
  have hall := decode_decodeError_or_limit (some 0) "-70"
  refine ⟨hk, hall.2.2.2.1 hk, hopens, hall.2.2.2.2 hopens, .notObject "int", ?_⟩
  rw [decode_of_read hread]
  rfl

/-- An integer, and a level in the field of the score, each of one digit more than the limit. -/
theorem decode_overlong_integer_and_level :
    let ones := List.replicate (Numeral.digitLimit + 1) '1'
    let score := String.ofList
      ('[' :: (ones ++ [']', 'h', 'a', 'r', 'd', '/', '[', ']', 's', 'o', 'f', 't']))
    let members : List (String × Value) := [("hard_levels_count", .int 1), ("score", .string score),
      ("soft_levels_count", .int 0), ("type", .string "bendable")]
    ∀ text ∈ [Numeral.ofInt (Numeral.leastLonger Numeral.digitLimit),
        Json.compact (.dict members)],
      ∀ nesting, decode nesting (.string (String.ofList text)) = .error .tooManyDigits ∧
        ¬((∃ s, decode nesting (.string (String.ofList text)) = .ok s) ∨
          ∃ f, decode nesting (.string (String.ofList text)) = .error f ∧ f.IsDecodeError) := by
  intro ones score members text htext nesting
  have hlimit : decode nesting (.string (String.ofList text)) = .error .tooManyDigits := by
    simp only [List.mem_cons, List.not_mem_nil, or_false] at htext
    rcases htext with htext | htext
    · -- the reader of JSON stops
      have hread : Json.read (.standard nesting)
          (Numeral.ofInt (Numeral.leastLonger Numeral.digitLimit)) = .error .tooManyDigits :=
        Json.read_overlong nesting (Numeral.isWritable_leastLonger rfl)
      simp only [htext, decode, decodeText, String.toList_ofList, hread]
    · -- the parser stops, behind all checks
      have hmeets : Score.MeetsOverlong score.toList := by
        rw [String.toList_ofList]
        refine Score.meetsOverlong_digits (fun c hc => ?_) ?_
        · rw [List.eq_of_mem_replicate hc]
          rfl
        · rw [List.length_replicate]
          exact Nat.lt_succ_self _
      have hint : ∀ n : Int, n.natAbs < Nat.pow 10 1 →
          Json.Layout (.standard nesting) 1 (Json.compact (.int n)) (.int n) := by
        intro n hn
        exact Json.layout_compact_int (Numeral.isWritable_of_natAbs_lt (by decide) hn)
      have hread : Json.read (.standard nesting)
          (String.ofList (Json.compact (.dict members))).toList = .ok (.dict members) := by
        rw [String.toList_ofList]
        refine Json.read_compact_dict (by simp [members]) (by simp [members, Value.names]) ?_
        simp only [members, List.forall_mem_cons, List.not_mem_nil, false_implies, implies_true,
          and_true]
        exact ⟨hint 1 (by decide), .string _, hint 0 (by decide), .string _⟩
      rw [htext, decode_of_read hread, ofValue_eq_tooManyDigits_iff (Json.isWritable_of_read hread)]
      exact ⟨members, score, rfl, ⟨fun name => Iff.rfl, rfl, ⟨1, rfl⟩, ⟨0, rfl⟩, rfl⟩, hmeets⟩
  refine ⟨hlimit, ?_⟩
  rintro (⟨s, hs⟩ | ⟨f, hf, e, rfl⟩)
  · rw [hlimit] at hs
    cases hs
  · rw [hlimit] at hf
    cases hf

end Bendable.Snapshot
