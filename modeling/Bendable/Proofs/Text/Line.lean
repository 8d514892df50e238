import Mathlib.Data.List.Infix
import Bendable.Score.Text
import Bendable.Value.Literal
import Bendable.Proofs.Text.Numeral

/-!
# Texts on one line

Numerals, quoted texts, written values and scores hold no line end, whatever the texts are that they
quote: a line end between quotation marks is written as a letter behind a backslash.

## Main definitions

* `OneLine s`: the text `s` holds no line end

## Main results

* `Quoted.newline_not_mem_encode`: quoted texts stand on one line
* `Value.newline_not_mem_literal`: written values stand on one line
-/

namespace Bendable

/-- **A text on one line**: it holds no line end. -/
def OneLine (s : String) : Prop := '\n' ∉ s.toList

instance (s : String) : Decidable (OneLine s) := inferInstanceAs (Decidable ('\n' ∉ s.toList))

@[simp] theorem oneLine_append {s t : String} : OneLine (s ++ t) ↔ OneLine s ∧ OneLine t := by
  simp [OneLine, not_or]

@[simp] theorem oneLine_ofList {text : List Char} : OneLine (String.ofList text) ↔ '\n' ∉ text := by
  rw [OneLine, String.toList_ofList]

/-! ## Numerals -/

/-- Digits are no line ends. -/
theorem newline_not_mem_of_digits {text : List Char} (h : ∀ c ∈ text, c.isDigit = true) :
    '\n' ∉ text :=
  fun hm => absurd (h '\n' hm) (by decide)

theorem Numeral.newline_not_mem_ofNat (n : Nat) : '\n' ∉ ofNat n :=
  newline_not_mem_of_digits (isDigits_iff.mp (isDigits_ofNat n)).2

theorem Numeral.newline_not_mem_ofInt (n : Int) : '\n' ∉ ofInt n := by
  intro hm
  exact absurd ((spells_ofInt n).mem hm) (by decide)

/-! ## Quoted texts -/

namespace Quoted

theorem newline_not_mem_hexDigits (width n : Nat) : '\n' ∉ hexDigits width n := by
  have hdigit : ∀ d, d < 16 → '\n' ≠ Nat.digitChar d := by decide
  induction width generalizing n with
  | zero => simp [hexDigits]
  | succ width ih => simp [hexDigits, ih, hdigit (n % 16) (Nat.mod_lt n (by decide))]

theorem newline_not_mem_code (c : Char) : '\n' ∉ code c := by
  unfold code
  split
  · simp [newline_not_mem_hexDigits]
  · split <;> simp [newline_not_mem_hexDigits]

/-- Only a character that is no line end stands for itself. -/
theorem newline_not_mem_escape {mark : Char} (hm : mark ≠ '\n') (c : Char) :
    '\n' ∉ escape mark c := by
  unfold escape
  split
  · rename_i h
    rcases h with rfl | rfl
    · simpa using hm.symm
    · simp
  · split
    · simp
    · rename_i hc
      split
      · simp
      · split
        · simp
        · split
          · simpa using Ne.symm hc
          · exact newline_not_mem_code c

theorem mark_ne_newline (text : List Char) : mark text ≠ '\n' := by
  unfold mark
  split <;> decide

/-- **Quoted texts stand on one line**, whatever the text is. -/
theorem newline_not_mem_encode (text : List Char) : '\n' ∉ encode text := by
  have hmark := mark_ne_newline text
  have hescape : ∀ c, '\n' ∉ escape (mark text) c := newline_not_mem_escape hmark
  simp [encode, hmark.symm, hescape]

theorem oneLine_quote (s : String) : OneLine (quote s) :=
  oneLine_ofList.mpr (newline_not_mem_encode s.toList)

end Quoted

/-! ## Numbers -/

namespace Binary64

theorem newline_not_mem_positional {digits : List Char} (h : '\n' ∉ digits) (point : Int) :
    '\n' ∉ positional digits point := by
  unfold positional
  split
  · simp [h]
  · split
    · simp [h]
    · -- the digits before the point, and those behind it
      have hfront : '\n' ∉ digits.take point.toNat := fun hm => h (List.mem_of_mem_take hm)
      have hback : '\n' ∉ digits.drop point.toNat := fun hm => h (List.mem_of_mem_drop hm)
      simp [hfront, hback]

theorem newline_not_mem_scientific {digits : List Char} (h : '\n' ∉ digits) (exponent : Int) :
    '\n' ∉ scientific digits exponent := by
  have hpower := Numeral.newline_not_mem_ofNat exponent.natAbs
  have hsign : '\n' ≠ if exponent < 0 then '-' else '+' := by
    split <;> decide
  unfold scientific
  dsimp only
  split
  · simp only [List.mem_cons, not_or] at h
    simp [h, hpower, hsign]
  · simp [h, hpower, hsign]

theorem newline_not_mem_significantDigits (d : Decimal) : '\n' ∉ significantDigits d := by
  unfold significantDigits
  dsimp only
  split
  · simp
  · intro hm
    have hdrop := List.dropWhile_sublist (· == '0') (l := (Numeral.ofNat d.digits).reverse)
    exact Numeral.newline_not_mem_ofNat d.digits
      (List.mem_reverse.mp (hdrop.subset (List.mem_reverse.mp hm)))

theorem newline_not_mem_magnitudeText (x : Magnitude) : '\n' ∉ magnitudeText x := by
  unfold magnitudeText
  split
  · simp
  · have hdigits := newline_not_mem_significantDigits x.shortest
    dsimp only
    split
    · exact newline_not_mem_positional hdigits _
    · exact newline_not_mem_scientific hdigits _

theorem newline_not_mem_text (x : Binary64) : '\n' ∉ x.text := by
  cases x with
  | nan => decide
  | infinite negative => cases negative <;> decide
  | finite negative x => cases negative <;> simp [text, newline_not_mem_magnitudeText]

end Binary64

/-! ## Values -/

namespace Value

theorem newline_not_mem_commaSeparated {items : List (List Char)} (h : ∀ item ∈ items, '\n' ∉ item) :
    '\n' ∉ commaSeparated items := by
  induction items with
  | nil => simp [commaSeparated]
  | cons item rest ih =>
    have hitem := h item List.mem_cons_self
    have hrest := ih fun i hi => h i (List.mem_cons_of_mem _ hi)
    cases rest with
    | nil => exact hitem
    | cons next rest => simp [commaSeparated, hitem, hrest]

mutual

/-- **Written values stand on one line.** -/
theorem newline_not_mem_literal : (v : Value) → '\n' ∉ v.literal
  | null => by decide
  | bool true => by decide
  | bool false => by decide
  | int n => Numeral.newline_not_mem_ofInt n
  | real x => x.newline_not_mem_text
  | string s => Quoted.newline_not_mem_encode s.toList
  | list items => by
    have hitems := newline_not_mem_commaSeparated (newline_not_mem_literals items)
    simp [literal, hitems]
  | dict members => by
    have hmembers := newline_not_mem_commaSeparated (newline_not_mem_memberLiterals members)
    simp [literal, hmembers]

theorem newline_not_mem_literals : (items : List Value) → ∀ item ∈ literals items, '\n' ∉ item
  | [] => by simp [literals]
  | v :: rest => by
    rw [literals, List.forall_mem_cons]
    exact ⟨newline_not_mem_literal v, newline_not_mem_literals rest⟩

theorem newline_not_mem_memberLiterals :
    (members : List (String × Value)) → ∀ item ∈ memberLiterals members, '\n' ∉ item
  | [] => by simp [memberLiterals]
  | (name, v) :: rest => by
    have hname := Quoted.newline_not_mem_encode name.toList
    have hvalue := newline_not_mem_literal v
    rw [memberLiterals, List.forall_mem_cons]
    exact ⟨by simp [hname, hvalue], newline_not_mem_memberLiterals rest⟩

end

theorem oneLine_typeName (v : Value) : OneLine v.typeName := by
  have hall : ∀ name ∈ ["NoneType", "bool", "int", "float", "str", "list", "dict"],
      OneLine name := by decide
  cases v <;> exact hall _ (by simp [typeName])

end Value

/-! ## Scores -/

namespace Score

theorem newline_not_mem_slashed {items : List (List Char)} (h : ∀ item ∈ items, '\n' ∉ item) :
    '\n' ∉ slashed items := by
  induction items with
  | nil => simp [slashed]
  | cons item rest ih =>
    have hitem := h item List.mem_cons_self
    have hrest := ih fun i hi => h i (List.mem_cons_of_mem _ hi)
    cases rest with
    | nil => exact hitem
    | cons next rest => simp [slashed, hitem, hrest]

theorem newline_not_mem_groupText (group : Group) (levels : List Level) :
    '\n' ∉ groupText group levels := by
  have hlevels : '\n' ∉ slashed (levels.map levelText) := by
    refine newline_not_mem_slashed fun item hi => ?_
    obtain ⟨a, -, rfl⟩ := List.mem_map.mp hi
    exact Numeral.newline_not_mem_ofInt a.val
  cases group <;> simp [groupText, Group.label, hlevels]

/-- **A score is written on one line.** -/
theorem oneLine_toString (s : Score) : OneLine (toString s) := by
  have hinit : '\n' ∉ initText s.init := by
    unfold initText
    split
    · simp
    · simp [initLabel, levelText, Numeral.newline_not_mem_ofInt]
  refine oneLine_ofList.mpr ?_
  simp [canonical, slashed, hinit, newline_not_mem_groupText]

end Score

end Bendable
