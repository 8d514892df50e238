import Bendable.Proofs.Json.Layout
import Bendable.Proofs.Snapshot.Strict

/-!
# Decoding what was encoded

The snapshot of a score is the text of a dictionary that describes the score, so decoding it gives
the score back. The numbers of levels are written as integers, and these must keep to the digit
limit; they do so for every score whose sequences of levels keep to the greatest length.

## Main definitions

* `Score.IsStorable s`: the numbers of levels of `s` keep to the digit limit

## Main results

* `Snapshot.read_members`, `Snapshot.read_encode`: the snapshot of a score is read as its members
* `Snapshot.decode_encode`: decoding a snapshot gives the score
-/

namespace Bendable

/-! ## Storable scores -/

/-- **A storable score**: its numbers of levels keep to the digit limit, without which neither can
be written as an integer. -/
def Score.IsStorable (s : Score) : Prop :=
  Numeral.isWritable s.hard.length = true ∧ Numeral.isWritable s.soft.length = true

theorem Numeral.isWritable_of_le_maxLength {n : Nat} (h : n ≤ Score.maxLength) :
    Numeral.isWritable n = true := by
  have hn : n < Nat.pow 10 19 := by
    have : Nat.pow 10 19 = 10000000000000000000 := rfl
    have : Score.maxLength = 9223372036854775807 := rfl
    omega
  exact isWritable_of_natAbs_lt (by decide) hn

/-- Every score that can be held is storable. -/
theorem Score.isStorable_of_length_le {s : Score} (hh : s.hard.length ≤ maxLength)
    (hs : s.soft.length ≤ maxLength) : s.IsStorable :=
  ⟨Numeral.isWritable_of_le_maxLength hh, Numeral.isWritable_of_le_maxLength hs⟩

namespace Snapshot

/-! ## The members -/

/-- No field is written twice. -/
theorem names_members_nodup (s : Score) : (Value.names (members s)).Nodup := by
  simp [Value.names, members]

/-- **The members that are written describe the score.** -/
theorem describes_members (s : Score) : Describes (members s) s where
  names := by
    intro name
    simp [Value.names, members]
  kind := rfl
  hard := rfl
  soft := rfl
  score := ⟨toString s, rfl, Score.parse_toString_eq s none none⟩

section Reading

variable {limits : Json.Limits} {nesting : Option Nat} {s : Score}

/-- Every member is written as a layout of its value, if the numbers of levels are. -/
theorem layout_member
    (hh : Json.Layout limits 1 (Json.compact (.int s.hard.length)) (.int s.hard.length))
    (hs : Json.Layout limits 1 (Json.compact (.int s.soft.length)) (.int s.soft.length))
    {member : String × Value} (hm : member ∈ members s) :
    Json.Layout limits 1 (Json.compact member.2) member.2 := by
  -- Two counts and two strings.
  simp only [members, List.mem_cons, List.not_mem_nil, or_false] at hm
  rcases hm with rfl | rfl | rfl | rfl
  · exact hh
  · exact .string _
  · exact hs
  · exact .string _

/-- A snapshot is read as its members, if the numbers of levels are read. -/
theorem read_members
    (hh : Json.Layout limits 1 (Json.compact (.int s.hard.length)) (.int s.hard.length))
    (hs : Json.Layout limits 1 (Json.compact (.int s.soft.length)) (.int s.soft.length)) :
    Json.read limits (encode s) = .ok (.dict (members s)) := by
  exact Json.read_compact_dict (by simp [members]) (names_members_nodup s) fun _ hm =>
    layout_member hh hs hm

/-- **The snapshot of a score is read as its members.** -/
theorem read_encode (h : s.IsStorable) :
    Json.read (.standard nesting) (encode s) = .ok (.dict (members s)) :=
  read_members (Json.layout_compact_int h.1) (Json.layout_compact_int h.2)

end Reading

/-- **Decoding inverts encoding**: every storable score is encoded, and decoding its snapshot gives
the score, however deep texts may nest. -/
theorem decode_encode (s : Score) (h : s.IsStorable) :
    ∃ text, (storable (.score s)).map encode = .ok text ∧
      ∀ nesting, decode nesting (.string (String.ofList text)) = .ok s := by
  refine ⟨encode s, rfl, fun nesting => ?_⟩
  have hread : Json.read (.standard nesting) (String.ofList (encode s)).toList =
      .ok (.dict (members s)) := by
    rw [String.toList_ofList]
    exact read_encode h
  rw [decode_of_read hread]
  exact ofMembers_eq_ok_iff.mpr (describes_members s)

/-- A score with an init score, two hard levels and no soft levels. -/
theorem decode_encode_two_hard :
    Score.IsStorable ⟨Level.wrap (-7), [Level.wrap 7, Level.least], []⟩ ∧
      ∃ text, (storable (.score ⟨Level.wrap (-7), [Level.wrap 7, Level.least], []⟩)).map encode =
          .ok text ∧
        ∀ nesting, decode nesting (.string (String.ofList text)) =
          .ok ⟨Level.wrap (-7), [Level.wrap 7, Level.least], []⟩ := by
  have h : Score.IsStorable ⟨Level.wrap (-7), [Level.wrap 7, Level.least], []⟩ :=
    Score.isStorable_of_length_le (by decide) (by decide)
  exact ⟨h, decode_encode _ h⟩

end Snapshot

end Bendable
