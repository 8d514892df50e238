import Mathlib.Data.List.Infix
import Bendable.Text.Numeral

/-!
# Numerals as texts

A numeral is an optional sign and decimal digits, and stands for one integer. The digit limit is
a matter of the runs of digits in a text: where no run is too long, no numeral in it is.

## Main definitions

* `Numeral.Spells text n`: `text` is a numeral and stands for `n`
* `Numeral.KeepsLimit text`: no run of digits in `text` is longer than the limit
* `Numeral.Plain text`: `text` is a numeral with no leading zero, and with no sign but a minus

## Main results

* `Numeral.ofSigned?_eq_some_iff`: the reader accepts exactly the numerals
* `Numeral.KeepsLimit.digits_le`: a numeral in a text that keeps to the limit does so
* `Numeral.Spells.ofInt_eq_iff`: an integer is written as the plain one of its numerals
-/

namespace Bendable.Numeral

/-! ## Spellings -/

/-- **The numerals of an integer**: an optional sign and decimal digits, at least one. -/
inductive Spells : List Char → Int → Prop
  | unsigned {digits : List Char} (hne : digits ≠ []) (hd : ∀ c ∈ digits, c.isDigit = true) :
    Spells digits (value digits)
  | plus {digits : List Char} (hne : digits ≠ []) (hd : ∀ c ∈ digits, c.isDigit = true) :
    Spells ('+' :: digits) (value digits)
  | minus {digits : List Char} (hne : digits ≠ []) (hd : ∀ c ∈ digits, c.isDigit = true) :
    Spells ('-' :: digits) (-value digits)

theorem isDigits_iff {text : List Char} :
    isDigits text = true ↔ text ≠ [] ∧ ∀ c ∈ text, c.isDigit = true := by
  simp [isDigits]

theorem Spells.ofSigned? {text : List Char} {n : Int} (h : Spells text n) :
    ofSigned? text = some n := by
  cases h with
  | unsigned hne hd =>
    have h := isDigits_iff.mpr ⟨hne, hd⟩
    simp [Numeral.ofSigned?, splitSign_of_isDigits h, h, signed]
  | plus hne hd => simp [Numeral.ofSigned?, splitSign, isDigits_iff.mpr ⟨hne, hd⟩, signed]
  | minus hne hd => simp [Numeral.ofSigned?, splitSign, isDigits_iff.mpr ⟨hne, hd⟩, signed]

/-- A text with digits after its sign is a numeral. -/
theorem spells_of_isDigits {text : List Char} (h : isDigits (splitSign text).2 = true) :
    Spells text (signed (splitSign text).1 (splitSign text).2) := by
  unfold splitSign at h ⊢
  split at h
  · obtain ⟨hne, hd⟩ := isDigits_iff.mp h
    exact .minus hne hd
  · obtain ⟨hne, hd⟩ := isDigits_iff.mp h
    exact .plus hne hd
  · obtain ⟨hne, hd⟩ := isDigits_iff.mp h
    exact .unsigned hne hd

/-- **The reader of numerals** accepts exactly the numerals and gives the integers that they
stand for. -/
theorem ofSigned?_eq_some_iff {text : List Char} {n : Int} :
    ofSigned? text = some n ↔ Spells text n := by
  refine ⟨fun h => ?_, Spells.ofSigned?⟩
  simp only [ofSigned?, Option.ite_none_right_eq_some, Option.some.injEq] at h
  obtain ⟨hd, rfl⟩ := h
  exact spells_of_isDigits hd

/-- What the reader refuses is the numeral of no integer. -/
theorem ofSigned?_eq_none_iff {text : List Char} :
    ofSigned? text = none ↔ ∀ n, ¬Spells text n := by
  rw [Option.eq_none_iff_forall_ne_some]
  exact forall_congr' fun n => not_congr ofSigned?_eq_some_iff

/-- A written integer is one of its numerals. -/
theorem spells_ofInt (n : Int) : Spells (ofInt n) n := ofSigned?_eq_some_iff.mp (ofSigned?_ofInt n)

/-- The text of an integer is the usual one. -/
theorem ofList_ofInt (n : Int) : String.ofList (ofInt n) = toString n := by
  cases n with
  | ofNat n => rfl
  | negSucc n =>
    rw [ofInt, if_pos (Int.negSucc_lt_zero n)]
    exact String.ofList_cons

theorem Spells.mem {text : List Char} {n : Int} (h : Spells text n) {c : Char} (hc : c ∈ text) :
    c = '+' ∨ c = '-' ∨ c.isDigit = true := by
  cases h with
  | unsigned _ hd => exact .inr (.inr (hd c hc))
  | plus _ hd =>
    rcases List.mem_cons.mp hc with rfl | hc
    · exact .inl rfl
    · exact .inr (.inr (hd c hc))
  | minus _ hd =>
    rcases List.mem_cons.mp hc with rfl | hc
    · exact .inr (.inl rfl)
    · exact .inr (.inr (hd c hc))

theorem Spells.ne_nil {text : List Char} {n : Int} (h : Spells text n) : text ≠ [] := by
  cases h with
  | unsigned hne _ => exact hne
  | plus _ _ => simp
  | minus _ _ => simp

/-! ## The digit limit -/

/-- **The digit limit of a text**: no run of decimal digits is longer than the limit. -/
def KeepsLimit (text : List Char) : Prop :=
  ∀ run, run <:+: text → (∀ c ∈ run, c.isDigit = true) → run.length ≤ digitLimit

theorem KeepsLimit.of_infix {part text : List Char} (h : KeepsLimit text) (hp : part <:+: text) :
    KeepsLimit part :=
  fun run hr hd => h run (hr.trans hp) hd

/-- A text that is no longer than the limit has no run that is. -/
theorem keepsLimit_of_length_le {text : List Char} (h : text.length ≤ digitLimit) :
    KeepsLimit text :=
  fun _ hr _ => hr.length_le.trans h

/-- What follows the sign ends the text. -/
theorem splitSign_suffix (text : List Char) : (splitSign text).2 <:+ text := by
  unfold splitSign
  split
  · exact List.suffix_cons _ _
  · exact List.suffix_cons _ _
  · exact List.suffix_rfl

theorem Spells.digits {text : List Char} {n : Int} (h : Spells text n) :
    ∀ c ∈ (splitSign text).2, c.isDigit = true := by
  cases h with
  | unsigned hne hd => rwa [splitSign_of_isDigits (isDigits_iff.mpr ⟨hne, hd⟩)]
  | plus _ hd => exact hd
  | minus _ hd => exact hd

/-- A numeral in a text that keeps to the digit limit keeps to it. -/
theorem KeepsLimit.digits_le {text : List Char} {n : Int} (h : KeepsLimit text)
    (hs : Spells text n) : (splitSign text).2.length ≤ digitLimit :=
  h _ (splitSign_suffix text).isInfix hs.digits

/-! ## Written integers -/

theorem length_ofNat_le_iff {n k : Nat} (hk : 0 < k) :
    (ofNat n).length ≤ k ↔ n < Nat.pow 10 k :=
  Nat.length_toDigits_le_iff (by decide) hk

/-- A positive number is written without a leading zero. -/
theorem ofNat_eq_cons {n : Nat} (h : 0 < n) : ∃ d rest, ofNat n = d :: rest ∧ d ≠ '0' := by
  -- Strong induction: the digits of `n` are those of `n / 10` and one more.
  induction n using Nat.strong_induction_on with
  | _ n ih =>
    by_cases hn : n < 10
    · have hall : ∀ n, n < 10 → 0 < n → Nat.digitChar n ≠ '0' := by decide
      exact ⟨_, [], Nat.toDigits_of_lt_base hn, hall n hn h⟩
    · obtain ⟨d, rest, hd, h0⟩ := ih (n / 10) (by omega) (by omega)
      refine ⟨d, rest ++ [Nat.digitChar (n % 10)], ?_, h0⟩
      rw [ofNat, Nat.toDigits_of_base_le (by decide) (by omega)]
      rw [ofNat] at hd
      rw [hd, List.cons_append]

/-- The digits of a written integer are those of its absolute value. -/
theorem splitSign_ofInt (n : Int) : splitSign (ofInt n) = (decide (n < 0), ofNat n.natAbs) := by
  unfold ofInt
  split
  · rename_i h
    simp [splitSign, h]
  · rename_i h
    simp [splitSign_of_isDigits (isDigits_ofNat _), h]

/-- The integers within the limit are those that are written in no more digits. -/
theorem isWritable_iff {n : Int} :
    isWritable n = true ↔ (splitSign (ofInt n)).2.length ≤ digitLimit := by
  rw [splitSign_ofInt, length_ofNat_le_iff (by decide)]
  simp [isWritable]

theorem isWritable_eq_false_iff {n : Int} :
    isWritable n = false ↔ digitLimit < (ofNat n.natAbs).length := by
  rw [← Bool.not_eq_true, isWritable_iff, splitSign_ofInt, Nat.not_le]

theorem pow_ten_le {j k : Nat} (h : j ≤ k) : Nat.pow 10 j ≤ Nat.pow 10 k :=
  Nat.pow_le_pow_right (by decide) h

theorem isWritable_of_natAbs_lt {n : Int} {k : Nat} (hk : k ≤ digitLimit)
    (hn : n.natAbs < Nat.pow 10 k) : isWritable n = true :=
  decide_eq_true (Nat.lt_of_lt_of_le hn (pow_ten_le hk))

/-- A text of digits stands for a number that needs no more digits. -/
theorem value_lt {digits : List Char} (hd : ∀ c ∈ digits, c.isDigit = true) :
    value digits < Nat.pow 10 digits.length := by
  -- Induction from the left: the first digit counts once for each number the rest can stand for.
  induction digits with
  | nil => decide
  | cons d rest ih =>
    have hlt : d.toNat - '0'.toNat + 1 ≤ 10 := by
      have := Char.isDigit_iff_toNat.mp (hd d (by simp))
      have : '0'.toNat = 48 := rfl
      have : '9'.toNat = 57 := rfl
      omega
    have hrest : value rest < Nat.pow 10 rest.length := ih fun c hc => hd c (by simp [hc])
    calc value (d :: rest)
        = Nat.pow 10 rest.length * (d.toNat - '0'.toNat) + value rest := by
          rw [value, Nat.ofDigitChars_cons, Nat.ofDigitChars_eq_ofDigitChars_zero]
          simp [value]
      _ < Nat.pow 10 rest.length * (d.toNat - '0'.toNat + 1) := by
          rw [Nat.mul_add, Nat.mul_one]
          exact Nat.add_lt_add_left hrest _
      _ ≤ Nat.pow 10 rest.length * 10 := Nat.mul_le_mul_left _ hlt

/-- The numerals within the limit stand for integers within the limit. -/
theorem isWritable_signed {digits : List Char} (hd : ∀ c ∈ digits, c.isDigit = true)
    (hl : digits.length ≤ digitLimit) (negative : Bool) :
    isWritable (signed negative digits) = true := by
  have hn : (signed negative digits).natAbs = value digits := by
    cases negative <;> simp [signed]
  refine isWritable_of_natAbs_lt hl ?_
  rw [hn]
  exact value_lt hd

/-- The least number of more than `k` digits: a one and `k` zeros. -/
def leastLonger (k : Nat) : Nat := Nat.pow 10 k

theorem leastLonger_pos (k : Nat) : 0 < leastLonger k := Nat.pow_pos (by decide)

theorem isWritable_leastLonger {k : Nat} (hk : k = digitLimit) :
    isWritable (leastLonger k) = false := by
  rw [isWritable, ← hk, Int.natAbs_natCast]
  exact decide_eq_false (Nat.lt_irrefl (leastLonger k))

/-! ## Plain numerals -/

/-- **The plain numerals**: a zero alone, or digits without a leading zero, with no sign but a minus
sign before them. -/
inductive Plain : List Char → Prop
  | zero : Plain ['0']
  | unsigned {d : Char} {digits : List Char} (h0 : d ≠ '0')
      (hd : ∀ c ∈ d :: digits, c.isDigit = true) : Plain (d :: digits)
  | minus {d : Char} {digits : List Char} (h0 : d ≠ '0')
      (hd : ∀ c ∈ d :: digits, c.isDigit = true) : Plain ('-' :: d :: digits)

/-- Only zero is written with a leading zero. -/
theorem pos_of_ofNat_eq_cons {n : Nat} {d : Char} {rest : List Char} (h : ofNat n = d :: rest)
    (h0 : d ≠ '0') : 0 < n := by
  rcases Nat.eq_zero_or_pos n with rfl | hn
  · exact absurd (List.cons.inj h).1.symm h0
  · exact hn

/-- A digit is the text of its value. -/
theorem ofNat_digit {c : Char} (h : c.isDigit = true) : ofNat (c.toNat - 48) = [c] := by
  have hall : ∀ k, k < 10 → ofNat k = [Char.ofNat (48 + k)] := by decide
  have hc := Char.isDigit_iff_toNat.mp h
  have h0 : '0'.toNat = 48 := rfl
  have h9 : '9'.toNat = 57 := rfl
  have hk : 48 + (c.toNat - 48) = c.toNat := by omega
  rw [hall (c.toNat - 48) (by omega), hk, Char.ofNat_toNat]

/-- **Digits without a leading zero are the text of their value.** -/
theorem ofNat_value {d : Char} {digits : List Char} (h0 : d ≠ '0')
    (hd : ∀ c ∈ d :: digits, c.isDigit = true) : ofNat (value (d :: digits)) = d :: digits := by
  -- Induction from the right: one more digit makes the number ten times as large and adds to it.
  induction digits using List.reverseRecOn with
  | nil =>
    have hv : value [d] = d.toNat - 48 := by simp [value, Nat.ofDigitChars_cons]
    rw [hv]
    exact ofNat_digit (hd d (by simp))
  | append_singleton digits c ih =>
    have hc : c.isDigit = true := hd c (by simp)
    have ih : ofNat (value (d :: digits)) = d :: digits :=
      ih fun x hx => hd x (List.mem_append_left [c] hx)
    have hv : value (d :: (digits ++ [c])) = 10 * value (d :: digits) + (c.toNat - 48) := by
      rw [← List.cons_append, value, Nat.ofDigitChars_append, Nat.ofDigitChars_cons]
      rfl
    have hlt : c.toNat - 48 < 10 := by
      have := Char.isDigit_iff_toNat.mp hc
      have : '9'.toNat = 57 := rfl
      omega
    calc ofNat (value (d :: (digits ++ [c])))
        = ofNat (10 * value (d :: digits) + (c.toNat - 48)) := by rw [hv]
      _ = ofNat (value (d :: digits)) ++ ofNat (c.toNat - 48) :=
          (Nat.toDigits_append_toDigits (by decide) (pos_of_ofNat_eq_cons ih h0) hlt).symm
      _ = d :: (digits ++ [c]) := by rw [ih, ofNat_digit hc, List.cons_append]

/-- An integer is written as a plain numeral. -/
theorem plain_ofInt (n : Int) : Plain (ofInt n) := by
  rcases Nat.eq_zero_or_pos n.natAbs with hn | hn
  · rw [Int.natAbs_eq_zero.mp hn]
    exact .zero
  · obtain ⟨d, digits, he, h0⟩ := ofNat_eq_cons hn
    have hd := (isDigits_iff.mp (isDigits_ofNat n.natAbs)).2
    rw [he] at hd
    rw [ofInt, he]
    split
    · exact .minus h0 hd
    · exact .unsigned h0 hd

/-- **An integer is written as one of its numerals** exactly if that one is plain. -/
theorem Spells.ofInt_eq_iff {text : List Char} {n : Int} (h : Spells text n) :
    ofInt n = text ↔ Plain text := by
  constructor
  · rintro rfl
    exact plain_ofInt n
  · intro hp
    -- The numeral has one value, so the integer is the one that its digits and its sign give.
    have hn := h.ofSigned?
    cases hp with
    | zero =>
      cases hn
      rfl
    | @unsigned d digits h0 hd =>
      have hs : Spells (d :: digits) (value (d :: digits)) := .unsigned (by simp) hd
      rw [hs.ofSigned?] at hn
      cases hn
      rw [ofInt, if_neg (by omega), Int.natAbs_natCast, ofNat_value h0 hd]
    | @minus d digits h0 hd =>
      have hs : Spells ('-' :: d :: digits) (-value (d :: digits)) := .minus (by simp) hd
      rw [hs.ofSigned?] at hn
      cases hn
      -- A minus sign is written before a positive number only.
      have hpos : 0 < value (d :: digits) := pos_of_ofNat_eq_cons (ofNat_value h0 hd) h0
      rw [ofInt, if_pos (by omega), Int.natAbs_neg, Int.natAbs_natCast, ofNat_value h0 hd]

end Bendable.Numeral
