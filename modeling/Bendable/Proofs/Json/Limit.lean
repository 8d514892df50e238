import Mathlib.Data.List.TakeWhile
import Bendable.Json.Reader
import Bendable.Proofs.Refusal
import Bendable.Proofs.Text.Numeral
import Bendable.Proofs.Value.Members

/-!
# The digit limit of JSON numbers

With the digit limit in force the reader gives only values whose integers keep to it, at every
depth, so that each of them can be shown in a message.

## Main results

* `Json.isWritable_of_read`: the value of a text keeps to the digit limit
-/

namespace Bendable.Json

/-! ## Numbers -/

/-- The whole part of a number consists of digits. -/
theorem splitWhole_digits (text : List Char) : ∀ c ∈ (splitWhole text).1, c.isDigit = true := by
  unfold splitWhole
  split
  · simp
  · intro c hc
    exact List.mem_takeWhile_imp hc

/-- What was read keeps to the digit limit; the rest of the text does not matter. -/
abbrev Keeps (P : α → Bool) (x : Except Stop (α × List Char)) : Prop :=
  Yields (fun r => P r.1 = true) x

theorem readNumber_keeps (text : List Char) :
    Keeps Value.isWritable (readNumber (some Numeral.digitLimit) text) := by
  unfold readNumber
  split
  rename_i negative unsigned hsign
  dsimp only
  split
  · -- no digits
    exact .error _
  split
  · -- an exponent: a real number
    exact .ok rfl
  split
  · -- a fraction: a real number
    exact .ok rfl
  split
  · -- more digits than the limit
    exact .error _
  · rename_i hl
    refine .ok ?_
    exact Numeral.isWritable_signed (splitWhole_digits unsigned) (by simpa using hl) negative

theorem readPlain_keeps (text : List Char) :
    Keeps Value.isWritable (readPlain (some Numeral.digitLimit) text) := by
  unfold readPlain
  split
  · rename_i word v hw
    have hm : (word, v) ∈ words := List.mem_of_find?_eq_some hw
    have hall : ∀ entry ∈ words, entry.2.isWritable = true := by
      simp [words, Value.isWritable]
    exact .ok (hall _ hm)
  · exact readNumber_keeps text

/-! ## One step of the readers -/

section Step

variable {nesting : Option Nat} {fuel : Nat}
  (hv : ∀ depth text, Keeps Value.isWritable (readValue (.standard nesting) fuel depth text))
  (hi : ∀ depth text, Keeps Value.allWritable (readItems (.standard nesting) fuel depth text))
  (hm : ∀ depth text, Keeps Value.membersWritable (readMembers (.standard nesting) fuel depth text))

include hi hm in
theorem readValue_keeps (depth : Nat) (text : List Char) :
    Keeps Value.isWritable (readValue (.standard nesting) (fuel + 1) depth text) := by
  rw [readValue.eq_def]
  dsimp only
  split
  · -- a string holds no integer
    exact .map (P := fun _ => True) (fun _ _ => trivial) fun _ _ => rfl
  · refine .bind (P := fun _ => True) (fun _ _ => trivial) fun _ _ => ?_
    split
    · exact .ok rfl
    · exact .map (hi _ _) fun _ h => h
  · refine .bind (P := fun _ => True) (fun _ _ => trivial) fun _ _ => ?_
    split
    · exact .ok rfl
    · -- collecting drops members and makes up none
      exact .map (hm _ _) fun _ h => Value.membersWritable_collect h
  · exact readPlain_keeps _

include hv hi in
theorem readItems_keeps (depth : Nat) (text : List Char) :
    Keeps Value.allWritable (readItems (.standard nesting) (fuel + 1) depth text) := by
  rw [readItems]
  refine .bind (hv _ text) ?_
  rintro ⟨v, rest⟩ hr
  dsimp only at hr ⊢
  split
  · exact .ok (by simp [Value.allWritable, hr])
  · refine .bind (hi _ _) ?_
    rintro ⟨items, rest⟩ hrs
    exact .ok (by simp [Value.allWritable, hr, hrs])
  · exact .error _

include hv hm in
theorem readMembers_keeps (depth : Nat) (text : List Char) :
    Keeps Value.membersWritable (readMembers (.standard nesting) (fuel + 1) depth text) := by
  rw [readMembers.eq_def]
  dsimp only
  split
  · -- a name holds no integer
    refine .bind (P := fun _ => True) (fun _ _ => trivial) ?_
    rintro ⟨name, rest⟩ -
    dsimp only
    split
    · refine .bind (hv _ _) ?_
      rintro ⟨v, rest⟩ hr
      dsimp only at hr ⊢
      split
      · exact .ok (by simp [Value.membersWritable, hr])
      · refine .bind (hm _ _) ?_
        rintro ⟨members, rest⟩ hrs
        exact .ok (by simp [Value.membersWritable, hr, hrs])
      · exact .error _
    · exact .error _
  · exact .error _

end Step

/-! ## Whole texts -/

/-- The three readers keep to the digit limit, whatever the fuel. -/
theorem readers_keep (nesting : Option Nat) (fuel : Nat) :
    (∀ depth text, Keeps Value.isWritable (readValue (.standard nesting) fuel depth text)) ∧
      (∀ depth text, Keeps Value.allWritable (readItems (.standard nesting) fuel depth text)) ∧
      ∀ depth text,
        Keeps Value.membersWritable (readMembers (.standard nesting) fuel depth text) := by
  -- Induction on the fuel: a step calls the readers with less of it.
  induction fuel with
  | zero =>
    refine ⟨fun depth text => ?_, fun depth text => ?_, fun depth text => ?_⟩
    · rw [readValue]
      exact .error _
    · rw [readItems]
      exact .error _
    · rw [readMembers]
      exact .error _
  | succ fuel ih =>
    obtain ⟨hv, hi, hm⟩ := ih
    exact ⟨readValue_keeps hi hm, readItems_keeps hv hi, readMembers_keeps hv hm⟩

/-- **The value of a text keeps to the digit limit.** -/
theorem isWritable_of_read {nesting : Option Nat} {text : List Char} {v : Value}
    (h : read (.standard nesting) text = .ok v) : v.isWritable = true := by
  rw [read, mapError_eq_ok_iff, readDocument] at h
  split at h
  · cases h
  · obtain ⟨⟨w, rest⟩, hw, h⟩ := bind_eq_ok_iff.mp h
    dsimp only at h
    split at h
    · cases h
      exact (readers_keep _ _).1 _ _ _ hw
    · cases h

end Bendable.Json
