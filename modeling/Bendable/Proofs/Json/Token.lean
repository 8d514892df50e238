import Bendable.Json.Reader
import Bendable.Json.Writer
import Bendable.Proofs.Text.Numeral

/-!
# Strings and integers in JSON text

The leaves of a written value are read back: a quoted string, whatever characters it holds, and an
integer within the limit, if what follows does not go on with the number.

## Main results

* `Json.readString_quote`: a quoted string is read back
* `Json.readNumber_ofInt`: a written integer is read back, within the limit
-/

namespace Bendable.Json

/-! ## Strings -/

theorem hexValue?_digitChar {d : Nat} (h : d < 16) : hexValue? (Nat.digitChar d) = some d := by
  have hall : ∀ d, d < 16 → hexValue? (Nat.digitChar d) = some d := by decide
  exact hall d h

/-- Four hexadecimal digits hold the code points of the first plane. -/
theorem hexCode?_hexDigits {n : Nat} (h : n < 65536) :
    ∃ a b c d, Quoted.hexDigits 4 n = [a, b, c, d] ∧ hexCode? a b c d = some n := by
  refine ⟨_, _, _, _, rfl, ?_⟩
  simp only [hexCode?, hexValue?_digitChar (Nat.mod_lt _ (by decide : 0 < 16)), bind,
    Option.bind_some, Option.some.injEq]
  omega

theorem readCodes_escaped (whole : List Char) {letter c : Char} (hu : letter ≠ 'u')
    (he : escaped? letter = some c) (text : List Char) :
    readCodes whole ('\\' :: letter :: text) = prepend c.toNat (readCodes whole text) := by
  rw [readCodes.eq_def]
  simp [hu, he]

theorem readCodes_plain (whole : List Char) {c : Char} (hq : c ≠ '"') (hb : c ≠ '\\')
    (hs : ¬c < ' ') (text : List Char) :
    readCodes whole (c :: text) = prepend c.toNat (readCodes whole text) := by
  rw [readCodes.eq_def]
  simp [hq, hb, hs]

/-- A written character is read as its code point. Something must follow: the reader of a code
escape looks past its digits. -/
theorem readCodes_writeChar (whole : List Char) (c : Char) {text : List Char} (h : text ≠ []) :
    readCodes whole (writeChar c ++ text) = prepend c.toNat (readCodes whole text) := by
  obtain ⟨next, tail, rfl⟩ := List.exists_cons_of_ne_nil h
  unfold writeChar
  split
  · rename_i hc
    rcases hc with rfl | rfl
    · exact readCodes_escaped whole (by decide) rfl _
    · exact readCodes_escaped whole (by decide) rfl _
  rename_i hc
  rw [not_or] at hc
  -- The quote and the backslash are done; five more characters have a letter of their own.
  iterate 5
    split
    · subst c
      exact readCodes_escaped whole (by decide) rfl _
  split
  · rename_i hs
    have hn : c.toNat < 32 := hs
    obtain ⟨x, y, z, w, hd, hcode⟩ := hexCode?_hexDigits (n := c.toNat) (by omega)
    rw [hd, readCodes.eq_def]
    simp [hcode]
  · rename_i hs
    exact readCodes_plain whole hc.1 hc.2 hs _

theorem readCodes_written (whole chars rest : List Char) :
    readCodes whole (chars.flatMap writeChar ++ '"' :: rest) =
      .ok (chars.map Char.toNat, rest) := by
  induction chars with
  | nil =>
    rw [List.flatMap_nil, List.nil_append, readCodes.eq_def]
    simp
  | cons c chars ih =>
    rw [List.flatMap_cons, List.append_assoc, readCodes_writeChar whole c (by simp), ih]
    rfl

/-- The code point of a character is no surrogate. -/
theorem toNat_not_surrogate (c : Char) : ¬(0xd800 ≤ c.toNat ∧ c.toNat < 0xe000) := by
  have h : c.toNat < 0xd800 ∨ 0xdfff < c.toNat ∧ c.toNat < 0x110000 := c.valid
  omega

theorem joinSurrogates_toNat (chars : List Char) :
    joinSurrogates (chars.map Char.toNat) = chars.map Char.toNat := by
  induction chars with
  | nil => rfl
  | cons c chars ih =>
    cases chars with
    | nil => rfl
    | cons d chars =>
      have hc := toNat_not_surrogate c
      simp only [List.map_cons] at ih ⊢
      rw [joinSurrogates, if_neg (by omega), ih]

theorem charOfCode_toNat (c : Char) : charOfCode c.toNat = c := by
  rw [charOfCode, if_neg (toNat_not_surrogate c)]
  exact Char.ofNat_toNat c

/-- **A quoted string is read back**, with what follows it. -/
theorem readString_quote (s : String) (whole rest : List Char) :
    readString whole (s.toList.flatMap writeChar ++ '"' :: rest) = .ok (s, rest) := by
  have hc : charOfCode ∘ Char.toNat = id := funext charOfCode_toNat
  rw [readString, readCodes_written]
  simp [Except.map, joinSurrogates_toNat, hc]

/-! ## Integers -/

/-- **The end of a number**: what follows does not go on with it. -/
def EndsNumber (rest : List Char) : Prop :=
  ∀ c ∈ rest.head?, c.isDigit = false ∧ c ≠ '.' ∧ c ≠ 'e' ∧ c ≠ 'E'

theorem takeWhile_digits {digits rest : List Char} (hd : ∀ c ∈ digits, c.isDigit = true)
    (hr : EndsNumber rest) :
    (digits ++ rest).takeWhile Char.isDigit = digits ∧
      (digits ++ rest).dropWhile Char.isDigit = rest := by
  have hrest : rest.takeWhile Char.isDigit = [] ∧ rest.dropWhile Char.isDigit = rest := by
    cases rest with
    | nil => exact ⟨rfl, rfl⟩
    | cons c rest =>
      have hc := (hr c rfl).1
      simp [hc]
  rw [List.takeWhile_append_of_pos hd, List.dropWhile_append_of_pos hd, hrest.1, hrest.2]
  simp

theorem splitWhole_ofNat (n : Nat) {rest : List Char} (hr : EndsNumber rest) :
    splitWhole (Numeral.ofNat n ++ rest) = (Numeral.ofNat n, rest) := by
  -- Zero is written as a zero alone; any other number has no leading zero.
  rcases Nat.eq_zero_or_pos n with rfl | hn
  · rfl
  · obtain ⟨ht, hd⟩ := takeWhile_digits (Numeral.isDigits_iff.mp (Numeral.isDigits_ofNat n)).2 hr
    obtain ⟨d, ds, he, h0⟩ := Numeral.ofNat_eq_cons hn
    rw [he] at ht hd ⊢
    unfold splitWhole
    split
    · rename_i heq
      exact absurd (List.cons.inj heq).1 h0
    · rw [ht, hd]

theorem splitFraction_of_endsNumber {rest : List Char} (hr : EndsNumber rest) :
    splitFraction rest = ([], rest) := by
  unfold splitFraction
  split
  · exact absurd rfl (hr '.' rfl).2.1
  · rfl

theorem signed_ofNat (n : Int) :
    Numeral.signed (decide (n < 0)) (Numeral.ofNat n.natAbs) = n := by
  rw [Numeral.signed, Numeral.value_ofNat]
  split
  · rename_i h
    have := of_decide_eq_true h
    omega
  · rename_i h
    have := of_decide_eq_false (Bool.eq_false_iff.mpr h)
    omega

/-- **A written integer is read back** if it keeps to the limit, and the reader stops at it
otherwise. -/
theorem readNumber_ofInt (limit : Option Nat) {n : Int} {rest : List Char} (hr : EndsNumber rest) :
    readNumber limit (Numeral.ofInt n ++ rest) =
      if limit.any (· < (Numeral.ofNat n.natAbs).length) then .error .tooManyDigits
      else .ok (.int n, rest) := by
  obtain ⟨hne, hd⟩ := Numeral.isDigits_iff.mp (Numeral.isDigits_ofNat n.natAbs)
  unfold readNumber
  split
  rename_i negative unsigned hsign
  -- The sign that was split off is the one that was written.
  have hs : negative = decide (n < 0) ∧ unsigned = Numeral.ofNat n.natAbs ++ rest := by
    by_cases hn : n < 0
    · simpa [Numeral.ofInt, hn, eq_comm] using hsign
    · obtain ⟨d, ds, he⟩ := List.exists_cons_of_ne_nil hne
      have hm : d ≠ '-' := fun h => absurd (hd d (by simp [he])) (by simp [h])
      simpa [Numeral.ofInt, hn, he, hm, eq_comm] using hsign
  obtain ⟨rfl, rfl⟩ := hs
  -- What follows starts neither a fraction nor an exponent, so the number is an integer.
  simp only [splitWhole_ofNat _ hr, splitFraction_of_endsNumber hr, hne, signed_ofNat]
  cases rest with
  | nil => rfl
  | cons c rest =>
    obtain ⟨-, -, he, hE⟩ := hr c rfl
    simp [he, hE]

end Bendable.Json
