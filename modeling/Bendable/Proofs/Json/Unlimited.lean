import Bendable.Proofs.Json.Stop

/-!
# Reading without a limit

A limit can only cut a run of the readers short: unless the run stops at the limit, it is the run
without that limit, and such a run never stops there. So a text runs into the limit exactly if the
limit changes what is read. Digits and nesting are alike in this, and each is lifted on its own.

## Main definitions

* `Json.Lifts stop a b`: the limits `b` are the limits `a` without the one that `stop` tells of
* `Json.CutShort stop x y`: the run `x` under a limit is the run `y` without it, or ends in `stop`

## Main results

* `Json.readers_cutShort`: a limit only cuts the readers short
* `Json.read_eq_tooManyDigits_iff`, `Json.read_eq_tooDeep_iff`: a text runs into a limit exactly if
  the limit changes its value
-/

namespace Bendable.Json

variable {α β : Type} {stop : Stop} {a b : Limits}

/-- **A lifted limit**: the limit that a stop tells of is there before and not after. -/
inductive Lifts : Stop → Limits → Limits → Prop
  | digits (digits nesting : Option Nat) : Lifts .tooManyDigits ⟨digits, nesting⟩ ⟨none, nesting⟩
  | nesting (digits nesting : Option Nat) : Lifts .tooDeep ⟨digits, nesting⟩ ⟨digits, none⟩

/-- **A run cut short**: the run `x` under a limit stops at it, or it is the run `y` without one. -/
def CutShort (stop : Stop) (x y : Except Stop α) : Prop := x = .error stop ∨ x = y

namespace CutShort

/-- A run that does not look at the limit. -/
theorem refl (x : Except Stop α) : CutShort stop x x := .inr rfl

theorem map {x y : Except Stop α} (h : CutShort stop x y) (f : α → β) :
    CutShort stop (x.map f) (y.map f) := by
  rcases h with rfl | rfl
  · exact .inl rfl
  · exact refl _

/-- Runs in sequence are cut short where the first is, or else where the second is. -/
theorem bind {x y : Except Stop α} {f g : α → Except Stop β} (h : CutShort stop x y)
    (hf : ∀ r, CutShort stop (f r) (g r)) : CutShort stop (x >>= f) (y >>= g) := by
  rcases h with rfl | rfl
  · exact .inl rfl
  · cases x with
    | error e => exact refl _
    | ok r => exact hf r

end CutShort

/-! ## Leaves -/

/-- The digit limit is looked at for integers only. -/
theorem readNumber_cutShort (limit : Option Nat) (text : List Char) :
    CutShort .tooManyDigits (readNumber limit text) (readNumber none text) := by
  unfold readNumber
  split
  dsimp only
  split
  · exact .refl _
  split
  · exact .refl _
  split
  · exact .refl _
  simp only [Option.any_none, Bool.false_eq_true, if_false]
  split
  · exact .inl rfl
  · exact .refl _

theorem readPlain_cutShort (h : Lifts stop a b) (text : List Char) :
    CutShort stop (readPlain a.digits text) (readPlain b.digits text) := by
  cases h with
  | digits digits nesting =>
    unfold readPlain
    split
    · exact .refl _
    · exact readNumber_cutShort digits text
  | nesting digits nesting => exact .refl _

/-- The nesting is looked at by its check only. -/
theorem checkNesting_cutShort (h : Lifts stop a b) (depth : Nat) :
    CutShort stop (a.checkNesting depth) (b.checkNesting depth) := by
  cases h with
  | digits digits nesting => exact .refl _
  | nesting digits nesting =>
    unfold Limits.checkNesting
    split
    · exact .inl rfl
    · exact .refl _

/-! ## One step of the readers -/

section Step

variable {fuel : Nat} (h : Lifts stop a b)
  (hv : ∀ depth text, CutShort stop (readValue a fuel depth text) (readValue b fuel depth text))
  (hi : ∀ depth text, CutShort stop (readItems a fuel depth text) (readItems b fuel depth text))
  (hm : ∀ depth text,
    CutShort stop (readMembers a fuel depth text) (readMembers b fuel depth text))

include h hi hm in
theorem readValue_cutShort (depth : Nat) (text : List Char) :
    CutShort stop (readValue a (fuel + 1) depth text) (readValue b (fuel + 1) depth text) := by
  rw [readValue.eq_def, readValue.eq_def b]
  dsimp only
  split
  · -- a string holds no integer and does not nest
    exact .refl _
  · refine .bind (checkNesting_cutShort h depth) fun _ => ?_
    split
    · exact .refl _
    · exact (hi _ _).map _
  · refine .bind (checkNesting_cutShort h depth) fun _ => ?_
    split
    · exact .refl _
    · exact (hm _ _).map _
  · exact readPlain_cutShort h _

include hv hi in
theorem readItems_cutShort (depth : Nat) (text : List Char) :
    CutShort stop (readItems a (fuel + 1) depth text) (readItems b (fuel + 1) depth text) := by
  rw [readItems, readItems]
  refine .bind (hv _ text) fun r => ?_
  dsimp only
  split
  · exact .refl _
  · exact .bind (hi _ _) fun _ => .refl _
  · exact .refl _

include hv hm in
theorem readMembers_cutShort (depth : Nat) (text : List Char) :
    CutShort stop (readMembers a (fuel + 1) depth text) (readMembers b (fuel + 1) depth text) := by
  rw [readMembers.eq_def, readMembers.eq_def b]
  dsimp only
  split
  · -- a name is a string
    refine .bind (.refl _) fun r => ?_
    split
    · refine .bind (hv _ _) fun r => ?_
      split
      · exact .refl _
      · exact .bind (hm _ _) fun _ => .refl _
      · exact .refl _
    · exact .refl _
  · exact .refl _

end Step

/-! ## Whole texts -/

/-- **A limit only cuts the readers short**, whatever the fuel and the depth. -/
theorem readers_cutShort (h : Lifts stop a b) (fuel : Nat) :
    (∀ depth text, CutShort stop (readValue a fuel depth text) (readValue b fuel depth text)) ∧
      (∀ depth text, CutShort stop (readItems a fuel depth text) (readItems b fuel depth text)) ∧
      ∀ depth text,
        CutShort stop (readMembers a fuel depth text) (readMembers b fuel depth text) := by
  -- Induction on the fuel: a step calls the readers with less of it.
  induction fuel with
  | zero =>
    refine ⟨fun depth text => ?_, fun depth text => ?_, fun depth text => ?_⟩
    · rw [readValue, readValue]
      exact .refl _
    · rw [readItems, readItems]
      exact .refl _
    · rw [readMembers, readMembers]
      exact .refl _
  | succ fuel ih =>
    obtain ⟨hv, hi, hm⟩ := ih
    exact ⟨readValue_cutShort h hi hm, readItems_cutShort hv hi, readMembers_cutShort hv hm⟩

theorem readDocument_cutShort (h : Lifts stop a b) (text : List Char) :
    CutShort stop (readDocument a text) (readDocument b text) := by
  unfold readDocument
  split
  · exact .refl _
  · exact .bind ((readers_cutShort h _).1 _ _) fun _ => .refl _

/-- A text runs into a limit if lifting the limit changes what is read. -/
theorem read_of_ne (h : Lifts stop a b) {text : List Char} (hne : read a text ≠ read b text) :
    read a text = .error (stop.failure text) := by
  rcases readDocument_cutShort h text with hstop | hsame
  · rw [read, hstop]
    rfl
  · exact absurd (by rw [read, read, hsame]) hne

/-- **A text runs into the digit limit** exactly if the limit changes what is read. -/
theorem read_eq_tooManyDigits_iff (digits nesting : Option Nat) (text : List Char) :
    read ⟨digits, nesting⟩ text = .error .tooManyDigits ↔
      read ⟨digits, nesting⟩ text ≠ read ⟨none, nesting⟩ text := by
  refine ⟨fun h heq => ?_, fun hne => read_of_ne (.digits digits nesting) hne⟩
  rw [heq] at h
  exact not_exceeds_none text (exceeds_of_read h)

/-- **A text nests too deep** exactly if the limit on the nesting changes what is read. -/
theorem read_eq_tooDeep_iff (digits nesting : Option Nat) (text : List Char) :
    read ⟨digits, nesting⟩ text = .error .tooDeep ↔
      read ⟨digits, nesting⟩ text ≠ read ⟨digits, none⟩ text := by
  refine ⟨fun h heq => ?_, fun hne => read_of_ne (.nesting digits nesting) hne⟩
  rw [heq] at h
  exact not_deepens_unlimited rfl text (deepens_of_read h)

/-- The digit limit changes nothing in what is read of a text that keeps to it. -/
theorem read_eq_of_keepsLimit (nesting : Option Nat) {text : List Char}
    (h : Numeral.KeepsLimit text) : read (.standard nesting) text = read ⟨none, nesting⟩ text := by
  by_contra hne
  exact read_ne_tooManyDigits h ((read_eq_tooManyDigits_iff _ nesting text).mpr hne)

/-- The limit on the nesting changes nothing in what is read of a text that opens no more lists and
dictionaries than may nest. -/
theorem read_eq_of_opens_le (digits : Option Nat) {nesting : Option Nat} {text : List Char}
    (h : ∀ k ∈ nesting, text.countP opens ≤ k + 1) :
    read ⟨digits, nesting⟩ text = read ⟨digits, none⟩ text := by
  by_contra hne
  obtain ⟨k, hk, hlt⟩ := deepens_of_read ((read_eq_tooDeep_iff digits nesting text).mpr hne)
  rw [Nat.zero_add] at hlt
  exact Nat.not_lt.mpr (h k hk) hlt

end Bendable.Json
