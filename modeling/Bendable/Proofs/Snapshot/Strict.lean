import Bendable.Snapshot
import Bendable.Proofs.Json.Layout
import Bendable.Proofs.Json.Limit
import Bendable.Proofs.Score.RoundTrip

/-!
# What is decoded as a snapshot

A text that holds a JSON value is decoded exactly if the value is a dictionary with the four fields
of a snapshot and no others, each of its type, whose counts are the numbers of levels of the score
that its text is parsed as. Every other value is refused with a decode error: the checks make no
other faults, and within the digit limit neither does the parser.

## Main definitions

* `Snapshot.Describes members s`: members of a dictionary are a snapshot of `s`
* `Fault.IsDecodeError f`: the fault `f` is a decode error

## Main results

* `Snapshot.ofMembers_eq_ok_iff`: the checks together accept exactly the snapshots
* `Snapshot.decode_accepts_exactly_snapshots`: which texts of JSON values are decoded
-/

namespace Bendable

/-- **A decode error.** -/
def Fault.IsDecodeError (f : Fault) : Prop := ∃ e, f = .score (.decode e)

namespace Snapshot

/-- **A snapshot of a score**: the four fields and no others, the kind of score, the numbers of
levels as integers, and a text that is parsed as the score. -/
structure Describes (members : List (String × Value)) (s : Score) : Prop where
  names : ∀ name, name ∈ Value.names members ↔
    name ∈ ["hard_levels_count", "score", "soft_levels_count", "type"]
  kind : members.lookup "type" = some (.string "bendable")
  hard : members.lookup "hard_levels_count" = some (.int s.hard.length)
  soft : members.lookup "soft_levels_count" = some (.int s.soft.length)
  score : ∃ text, members.lookup "score" = some (.string text) ∧
    Score.parse (.string text) none none = .ok s

variable {members : List (String × Value)}

/-! ## Fields -/

theorem field_eq_iff {name : String} {v : Value} (hv : v ≠ .null) :
    field members name = v ↔ members.lookup name = some v := by
  unfold field
  cases members.lookup name with
  | none => simpa using hv.symm
  | some w => simp

theorem field_eq_string_iff {name text : String} :
    field members name = .string text ↔ members.lookup name = some (.string text) :=
  field_eq_iff nofun

theorem field_eq_int_iff {name : String} {n : Int} :
    field members name = .int n ↔ members.lookup name = some (.int n) :=
  field_eq_iff nofun

/-- The value of a field keeps to the digit limit if all members do. -/
theorem isWritable_field (h : Value.membersWritable members = true) (name : String) :
    (field members name).isWritable = true := by
  unfold field
  cases hl : members.lookup name with
  | none => rfl
  | some v =>
    obtain ⟨before, after, rfl, -⟩ := List.lookup_eq_some_iff.mp hl
    exact Value.membersWritable_iff.mp h (name, v) (by simp)

/-! ## What each check accepts -/

theorem refuse_eq_error {α : Type} (e : DecodeError) :
    (refuse e : Except Fault α) = .error (.score (.decode e)) := rfl

theorem checkFields_eq_ok_iff :
    checkFields members = .ok () ↔ ∀ name, name ∈ Value.names members ↔ name ∈ fields := by
  have hmissing : (fields.filter fun name => !(Value.names members).contains name) = [] ↔
      ∀ name ∈ fields, name ∈ Value.names members := by
    simp [List.filter_eq_nil_iff]
  have hunknown : ((Value.names members).filter fun name => !fields.contains name) = [] ↔
      ∀ name ∈ Value.names members, name ∈ fields := by
    simp [List.filter_eq_nil_iff]
  unfold checkFields
  dsimp only
  split
  · -- a field is missing
    rename_i hm
    simp only [refuse_eq_error, reduceCtorEq, false_iff]
    intro h
    exact hm (hmissing.mpr fun name hn => (h name).mpr hn)
  · rename_i hm
    split
    · -- a name is no field
      rename_i hu
      simp only [refuse_eq_error, reduceCtorEq, false_iff]
      intro h
      exact hu (hunknown.mpr fun name hn => (h name).mp hn)
    · rename_i hu
      simp only [true_iff]
      intro name
      exact ⟨hunknown.mp (not_not.mp hu) name, hmissing.mp (not_not.mp hm) name⟩

theorem checkKind_eq_ok_iff {v : Value} : checkKind v = .ok () ↔ v = .string kind := by
  cases v with
  | string s =>
    simp only [checkKind, Value.string.injEq]
    split <;> simp_all [refuse_eq_error]
  | _ => simp [checkKind, refuse_eq_error]

theorem checkCount_eq_ok_iff {name : String} {v : Value} :
    checkCount name v = .ok () ↔ ∃ n : Nat, v = .int n := by
  cases v with
  | int n =>
    simp only [checkCount, Value.int.injEq]
    split
    · rename_i hn
      simp only [refuse_eq_error, reduceCtorEq, false_iff, not_exists]
      omega
    · rename_i hn
      simp only [true_iff]
      exact ⟨n.toNat, by omega⟩
  | _ => simp [checkCount, refuse_eq_error]

/-- The field of the score is judged by the parser, with the counts expected. -/
theorem scoreOfField_string_eq_ok_iff {hard soft : Value} {text : String} {s : Score} :
    scoreOfField hard soft (.string text) = .ok s ↔
      Score.parseText (some hard) (some soft) text = .ok s := by
  unfold scoreOfField
  dsimp only
  split
  · rename_i he
    rw [he]
    simp [refuse_eq_error]
  · exact Iff.rfl

theorem scoreOfField_eq_ok_iff {h c : Nat} {v : Value} {s : Score} :
    scoreOfField (.int h) (.int c) v = .ok s ↔ h = s.hard.length ∧ c = s.soft.length ∧
      ∃ text, v = .string text ∧ Score.parse (.string text) none none = .ok s := by
  have hequals : ∀ m n : Nat, (Value.int m).equals (.int n) = true ↔ n = m := by
    intro m n
    rw [Value.equals_int_iff rfl, Int.natCast_inj]
  cases v with
  | string text =>
    rw [scoreOfField_string_eq_ok_iff, Score.parseText_eq_ok_iff]
    simp only [Option.mem_def, Option.some.injEq, forall_eq', hequals, Value.string.injEq,
      exists_eq_left', Score.parse_eq_ok_iff]
    constructor
    · rintro ⟨hp, hh, hs⟩
      exact ⟨hh, hs, hp⟩
    · rintro ⟨hh, hs, hp⟩
      exact ⟨hp, hh, hs⟩
  | _ => simp [scoreOfField, refuse_eq_error]

/-! ## The checks together -/

/-- **The checks accept exactly the snapshots** and give the scores that they describe. -/
theorem ofMembers_eq_ok_iff {s : Score} : ofMembers members = .ok s ↔ Describes members s := by
  simp only [ofMembers, check_bind_eq_ok_iff, checkFields_eq_ok_iff, checkKind_eq_ok_iff,
    checkCount_eq_ok_iff]
  constructor
  · rintro ⟨hnames, hkind, ⟨h, hh⟩, ⟨c, hc⟩, hscore⟩
    rw [hh, hc, scoreOfField_eq_ok_iff] at hscore
    obtain ⟨rfl, rfl, text, htext, hparse⟩ := hscore
    exact
      { names := hnames
        kind := field_eq_string_iff.mp hkind
        hard := field_eq_int_iff.mp hh
        soft := field_eq_int_iff.mp hc
        score := ⟨text, field_eq_string_iff.mp htext, hparse⟩ }
  · rintro ⟨hnames, hkind, hh, hc, text, htext, hparse⟩
    have hh := field_eq_int_iff.mpr hh
    have hc := field_eq_int_iff.mpr hc
    refine ⟨hnames, field_eq_string_iff.mpr hkind, ⟨_, hh⟩, ⟨_, hc⟩, ?_⟩
    rw [hh, hc, scoreOfField_eq_ok_iff]
    exact ⟨rfl, rfl, text, field_eq_string_iff.mpr htext, hparse⟩

/-! ## How the checks refuse -/

theorem refusesWith_refuse {α : Type} (e : DecodeError) :
    RefusesWith Fault.IsDecodeError (refuse e : Except Fault α) :=
  .error ⟨e, rfl⟩

theorem refusesWith_checkFields : RefusesWith Fault.IsDecodeError (checkFields members) := by
  unfold checkFields
  dsimp only
  split
  · exact refusesWith_refuse _
  · split
    · exact refusesWith_refuse _
    · exact .ok ()

theorem refusesWith_checkKind (v : Value) : RefusesWith Fault.IsDecodeError (checkKind v) := by
  unfold checkKind
  split
  · split
    · exact .ok ()
    · exact refusesWith_refuse _
  · exact refusesWith_refuse _

theorem refusesWith_checkCount (name : String) (v : Value) :
    RefusesWith Fault.IsDecodeError (checkCount name v) := by
  unfold checkCount
  split
  · split
    · exact refusesWith_refuse _
    · exact .ok ()
  · exact refusesWith_refuse _

/-- A parse error about the field of the score becomes a decode error; every other fault of the
parser stays. -/
theorem refusesWith_scoreOfField_of {P : Fault → Prop} (hd : ∀ f, f.IsDecodeError → P f)
    {hard soft v : Value} (hp : ∀ text, v = .string text →
      RefusesWith (fun f => f.IsParseError text ∨ P f)
        (Score.parseText (some hard) (some soft) text)) :
    RefusesWith P (scoreOfField hard soft v) := by
  unfold scoreOfField
  split
  · rename_i text
    split
    · exact (refusesWith_refuse _).mono hd
    · -- what is left is no parse error
      rename_i hne
      intro f hf
      rcases hp text rfl f hf with ⟨token, reason, rfl⟩ | h
      · exact absurd hf (hne _)
      · exact h
  · exact (refusesWith_refuse _).mono hd

/-- The checks refuse with decode errors, so the members are refused like the field of the score. -/
theorem refusesWith_ofMembers_of {P : Fault → Prop} (hd : ∀ f, f.IsDecodeError → P f)
    (hs : RefusesWith P (scoreOfField (field members "hard_levels_count")
      (field members "soft_levels_count") (field members "score"))) :
    RefusesWith P (ofMembers members) :=
  .bind (refusesWith_checkFields.mono hd) fun _ _ =>
    .bind ((refusesWith_checkKind _).mono hd) fun _ _ =>
      .bind ((refusesWith_checkCount _ _).mono hd) fun _ _ =>
        .bind ((refusesWith_checkCount _ _).mono hd) fun _ _ => hs

/-- Within the digit limit the parser refuses with parse errors only, so members are refused with
decode errors only. -/
theorem refusesWith_ofMembers (hw : Value.membersWritable members = true)
    (hk : ∀ text, members.lookup "score" = some (.string text) →
      Numeral.KeepsLimit text.toList) :
    RefusesWith Fault.IsDecodeError (ofMembers members) := by
  have hh := isWritable_field hw "hard_levels_count"
  have hs := isWritable_field hw "soft_levels_count"
  refine refusesWith_ofMembers_of (fun _ h => h) (refusesWith_scoreOfField_of (fun _ h => h) ?_)
  intro text htext
  have hlimit := hk text (field_eq_string_iff.mp htext)
  exact (Score.refusesWith_parseText hlimit (by simpa using hh) (by simpa using hs)).mono
    fun _ => .inl

/-! ## Decoding -/

variable {nesting : Option Nat}

/-- After reading, decoding judges the value. -/
theorem decode_of_read {text : String} {v : Value}
    (hv : Json.read (.standard nesting) text.toList = .ok v) :
    decode nesting (.string text) = ofValue v := by
  simp [decode, decodeText, hv]

/-- **Decoding is strict and complete**, however deep texts may nest: the text of a JSON value is
decoded as a score exactly if the value is a dictionary that describes the score. Every other value
is refused with a decode error, if the text in its field of the score keeps to the digit limit. -/
theorem decode_accepts_exactly_snapshots {text : String} {v : Value}
    (hv : Json.read (.standard nesting) text.toList = .ok v) :
    (∀ s, decode nesting (.string text) = .ok s ↔
        ∃ members, v = .dict members ∧ Describes members s) ∧
      ((∀ members t, v = .dict members → members.lookup "score" = some (.string t) →
          Numeral.KeepsLimit t.toList) →
        (∀ s members, v = .dict members → ¬Describes members s) →
        ∃ e, decode nesting (.string text) = .error (.score (.decode e))) := by
  -- The reader has kept the counts to the digit limit, so no message is too long.
  have hw : v.isWritable = true := Json.isWritable_of_read hv
  rw [decode_of_read hv]
  cases v with
  | dict members =>
    have hok : ∀ s, ofMembers members = .ok s ↔ Describes members s := fun s => ofMembers_eq_ok_iff
    refine ⟨fun s => by simp [ofValue, hok], fun hk hn => ?_⟩
    have hr : RefusesWith Fault.IsDecodeError (ofMembers members) :=
      refusesWith_ofMembers hw fun t ht => hk members t rfl ht
    obtain ⟨f, hf, e, rfl⟩ := hr.exists_error fun s hs => hn s members rfl ((hok s).mp hs)
    exact ⟨e, hf⟩
  | _ => exact ⟨fun s => by simp [ofValue, refuse_eq_error], fun _ _ => ⟨_, rfl⟩⟩

/-- A repeated field counts with its last value, and a boolean is no count. -/
theorem decode_repeated_field_and_boolean_count :
    decode (some 0) (.string (String.ofList (Json.compact (.dict [("hard_levels_count", .null),
        ("score", .string "-7init[]hard/[+3]soft"), ("soft_levels_count", .int 1),
        ("type", .string "bendable"), ("hard_levels_count", .int 0)])))) =
      .ok ⟨Level.wrap (-7), [], [Level.wrap 3]⟩ ∧
    ∃ e, decode (some 0) (.string (String.ofList (Json.compact (.dict [("hard_levels_count", .int 0),
        ("score", .string "[]hard/[3]soft"), ("soft_levels_count", .bool true),
        ("type", .string "bendable")])))) = .error (.score (.decode e)) := by
  have hread : ∀ members, members ≠ [] → (∀ member ∈ members,
      Json.Layout (.standard (some 0)) 1 (Json.compact member.2) member.2) →
      Json.read (.standard (some 0))
        (String.ofList (Json.compact (.dict members))).toList =
          .ok (.dict (Value.collect members)) := by
    intro members hne hl
    rw [String.toList_ofList]
    exact Json.read_compact_collect hne hl
  have hint : ∀ n : Int, n.natAbs < Nat.pow 10 1 →
      Json.Layout (.standard (some 0)) 1 (Json.compact (.int n)) (.int n) := by
    intro n hn
    exact Json.layout_compact_int (Numeral.isWritable_of_natAbs_lt (by decide) hn)
  constructor
  · have hi : Level.Readable ['-', '7'] (Level.wrap (-7)) :=
      ⟨Numeral.ofSigned?_eq_some_iff.mp rfl, by decide⟩
    have ha : Level.Readable ['+', '3'] (Level.wrap 3) :=
      ⟨Numeral.ofSigned?_eq_some_iff.mp rfl, by decide⟩
    have hl := hread [("hard_levels_count", .null), ("score", .string "-7init[]hard/[+3]soft"),
      ("soft_levels_count", .int 1), ("type", .string "bendable"), ("hard_levels_count", .int 0)]
      (by simp) (by
        simp only [List.forall_mem_cons, List.not_mem_nil, false_implies, implies_true, and_true]
        exact ⟨.null, .string _, hint 1 (by decide), .string _, hint 0 (by decide)⟩)
    refine ((decode_accepts_exactly_snapshots hl).1 _).mpr ⟨_, rfl, ?_⟩
    simp only [Value.collect, List.foldl_cons, List.foldl_nil, Value.put, reduceIte,
      String.reduceEq]
    refine ⟨fun name => Iff.rfl, rfl, rfl, rfl, _, rfl, ?_⟩
    exact Score.parse_eq_ok_iff.mpr ⟨_, [], _, .label hi, .nil, .cons ha .nil, rfl⟩
  · have hl := hread [("hard_levels_count", .int 0), ("score", .string "[]hard/[3]soft"),
      ("soft_levels_count", .bool true), ("type", .string "bendable")]
      (by simp) (by
        simp only [List.forall_mem_cons, List.not_mem_nil, false_implies, implies_true, and_true]
        exact ⟨hint 0 (by decide), .string _, .true, .string _⟩)
    simp only [Value.collect, List.foldl_cons, List.foldl_nil, Value.put, reduceIte,
      String.reduceEq] at hl
    refine (decode_accepts_exactly_snapshots hl).2 ?_ ?_
    · rintro members t ⟨⟩ ht
      cases ht
      exact Numeral.keepsLimit_of_length_le (by decide)
    · rintro s members ⟨⟩ h
      cases h.soft

end Snapshot

end Bendable
