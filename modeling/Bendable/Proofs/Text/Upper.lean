import Mathlib.Data.List.Forall2
import Mathlib.Data.List.Infix
import Bendable.Text.Upper

/-!
# What becomes a capital letter

Which texts have an upper-case form that consists of the capital letters of the basic alphabet. Such
a letter is the upper-case form of itself, of its small letter, and in two cases of a letter outside
the alphabet; the letters that become several are told apart by the letters that they become. The
facts about the table are settled entry by entry, and everything else follows from them.

## Main definitions

* `Upper.IsCapital u`: the character `u` is a capital letter of the basic alphabet
* `Upper.IsFormOf c u`: the character `c` is a form of the capital letter `u`
* `Upper.Spells text word`: `text` spells `word`, letter by letter, in any case

## Main results

* `Upper.ofChar_eq_singleton_iff`: what becomes a capital letter
* `Upper.ofText_eq_iff`: the texts whose upper-case form is a given word
* `Upper.ofText_ascii`: upper case in the basic alphabet
-/

namespace Bendable.Upper

/-! ## Capital letters -/

/-- **A capital letter** of the basic alphabet. -/
def IsCapital (u : Char) : Prop := 65 ≤ u.toNat ∧ u.toNat ≤ 90

instance (u : Char) : Decidable (IsCapital u) :=
  inferInstanceAs (Decidable (65 ≤ u.toNat ∧ u.toNat ≤ 90))

/-- **The forms of a capital letter**: itself, its small letter, and with them the small `i` without
a dot and the long `s`. -/
def IsFormOf (c u : Char) : Prop :=
  c = u ∨ c = Char.ofNat (u.toNat + 32) ∨ c = '\u0131' ∧ u = 'I' ∨ c = '\u017f' ∧ u = 'S'

/-- **A text that spells a word** in any case, letter by letter. -/
def Spells (text word : List Char) : Prop := List.Forall₂ IsFormOf text word

/-! ## The table -/

/-- No letter becomes fewer than two by an expansion. -/
theorem two_le_length_of_mem_expansions {entry : Nat × List Nat} (h : entry ∈ expansions) :
    2 ≤ entry.2.length := by
  have hall : ∀ entry ∈ expansions, 2 ≤ entry.2.length := by decide +kernel
  exact hall entry h

/-- Three runs reach the capital letters, and the others pass them by. -/
theorem run_capital {first last step : Nat} {distance : Int}
    (h : (first, last, step, distance) ∈ runs) :
    (last : Int) + distance < 65 ∨ 90 < (first : Int) + distance ∨
      (first, last, step, distance) ∈
        [(0x61, 0x7a, 1, -32), (0x131, 0x131, 1, -232), (0x17f, 0x17f, 1, -300)] := by
  have hall : ∀ run ∈ runs, (run.2.1 : Int) + run.2.2.2 < 65 ∨ 90 < (run.1 : Int) + run.2.2.2 ∨
      run ∈ [((0x61 : Nat), (0x7a : Nat), (1 : Nat), (-32 : Int)), (0x131, 0x131, 1, -232),
        (0x17f, 0x17f, 1, -300)] := by decide +kernel
  exact hall _ h

/-! ## Characters -/

/-- **A character becomes several by an expansion, or a single one** by a run or by itself. -/
inductive Becomes (c : Char) : List Char → Prop
  | several {codes : List Nat} (h : (c.toNat, codes) ∈ expansions) :
    Becomes c (codes.map Char.ofNat)
  | run {first last step : Nat} {distance : Int} (h : (first, last, step, distance) ∈ runs)
      (hf : first ≤ c.toNat) (hl : c.toNat ≤ last) :
      Becomes c [Char.ofNat (c.toNat + distance).toNat]
  | itself : Becomes c [c]

theorem becomes_ofChar (c : Char) : Becomes c (ofChar c) := by
  unfold ofChar
  dsimp only
  split
  · rename_i codes he
    obtain ⟨before, after, he, -⟩ := List.lookup_eq_some_iff.mp he
    exact .several (he ▸ by simp)
  · split
    · rename_i first last step distance hr
      have hin := List.find?_some hr
      simp only [Bool.and_eq_true, decide_eq_true_eq] at hin
      exact .run (List.mem_of_find?_eq_some hr) hin.1.1 hin.1.2
    · exact .itself

theorem toNat_ofNat_capital {n : Nat} {u : Char} (hu : IsCapital u) (h : Char.ofNat n = u) :
    n = u.toNat := by
  by_cases hn : n.isValidChar
  · rw [← h, Char.ofNat, dif_pos hn]
    rfl
  · -- a number that is no code point gives the null character
    rw [Char.ofNat, dif_neg hn] at h
    subst h
    exact absurd hu (by decide)

theorem eq_ofNat_of_toNat {c : Char} {n : Nat} (h : c.toNat = n) : c = Char.ofNat n := by
  rw [← h, Char.ofNat_toNat]

/-- Every form of a capital letter becomes it. -/
theorem ofChar_of_isFormOf {c u : Char} (hu : IsCapital u) (h : IsFormOf c u) :
    ofChar c = [u] := by
  have hall : ∀ n, n < 26 → ofChar (Char.ofNat (65 + n)) = [Char.ofNat (65 + n)] ∧
      ofChar (Char.ofNat (65 + n + 32)) = [Char.ofNat (65 + n)] := by decide +kernel
  have hread := hall (u.toNat - 65) (Nat.sub_lt_right_of_lt_add hu.1 (Nat.lt_succ_of_le hu.2))
  rw [Nat.add_sub_cancel' hu.1, Char.ofNat_toNat] at hread
  rcases h with rfl | rfl | ⟨rfl, rfl⟩ | ⟨rfl, rfl⟩
  · exact hread.1
  · exact hread.2
  · decide +kernel
  · decide +kernel

/-- **What becomes a capital letter** is one of its forms. -/
theorem ofChar_eq_singleton_iff {c u : Char} (hu : IsCapital u) :
    ofChar c = [u] ↔ IsFormOf c u := by
  refine ⟨fun h => ?_, ofChar_of_isFormOf hu⟩
  have hb := becomes_ofChar c
  rw [h] at hb
  generalize hword : [u] = word at hb
  cases hb with
  | several he =>
    have hlen := two_le_length_of_mem_expansions he
    have hone := congrArg List.length hword
    rw [List.length_singleton, List.length_map] at hone
    exact absurd hlen (by simp [← hone])
  | run hr hf hl =>
    have hcode := toNat_ofNat_capital hu (List.cons.inj hword).1.symm
    have hlow := hu.1
    have hhigh := hu.2
    rcases run_capital hr with hlt | hgt | hmem
    · omega
    · omega
    · -- each of the three runs leaves one form
      simp only [List.mem_cons, Prod.mk.injEq, List.not_mem_nil, or_false] at hmem
      rcases hmem with ⟨rfl, rfl, -, rfl⟩ | ⟨rfl, rfl, -, rfl⟩ | ⟨rfl, rfl, -, rfl⟩
      · exact .inr (.inl (eq_ofNat_of_toNat (by omega)))
      · have hc : c.toNat = 0x131 := by omega
        have hi : u.toNat = 73 := by omega
        exact .inr (.inr (.inl ⟨eq_ofNat_of_toNat hc, eq_ofNat_of_toNat hi⟩))
      · have hc : c.toNat = 0x17f := by omega
        have hs : u.toNat = 83 := by omega
        exact .inr (.inr (.inr ⟨eq_ofNat_of_toNat hc, eq_ofNat_of_toNat hs⟩))
  | itself => exact .inl (List.cons.inj hword).1.symm

/-! ## Texts -/

/-- **The texts whose upper-case form is a word** of capital letters are those that spell it, if no
letter becomes a part of it by an expansion. -/
theorem ofText_eq_iff {text word : List Char} (hcap : ∀ u ∈ word, IsCapital u)
    (hexp : ∀ entry ∈ expansions, ¬entry.2.map Char.ofNat <:+: word) :
    ofText text = word ↔ Spells text word := by
  -- Induction on the text: each of its characters becomes one letter of the word.
  induction text generalizing word with
  | nil =>
    rw [Spells, List.forall₂_nil_left_iff]
    exact eq_comm
  | cons c rest ih =>
    have hcons : ofText (c :: rest) = ofChar c ++ ofText rest := List.flatMap_cons
    rw [hcons]
    constructor
    · intro h
      have hsingle : ∃ d, ofChar c = [d] := by
        have hb := becomes_ofChar c
        generalize ofChar c = letters at hb h
        cases hb with
        | several he => exact absurd ⟨[], ofText rest, h⟩ (hexp _ he)
        | run _ _ _ => exact ⟨_, rfl⟩
        | itself => exact ⟨_, rfl⟩
      obtain ⟨d, hd⟩ := hsingle
      rw [hd, List.singleton_append] at h
      subst h
      have hrest := (ih (fun u hu => hcap u (List.mem_cons_of_mem _ hu)) fun entry he hi =>
        hexp entry he (hi.trans (List.suffix_cons d _).isInfix)).mp rfl
      exact .cons ((ofChar_eq_singleton_iff (hcap d List.mem_cons_self)).mp hd) hrest
    · rintro (_ | ⟨hc, hr⟩)
      rename_i u us
      have hrest := (ih (fun u hu => hcap u (List.mem_cons_of_mem _ hu)) fun entry he hi =>
        hexp entry he (hi.trans (List.suffix_cons u us).isInfix)).mpr hr
      rw [(ofChar_eq_singleton_iff (hcap u List.mem_cons_self)).mpr hc, hrest]
      rfl

/-- **In the basic alphabet** only the small letters change, each to its capital letter. -/
theorem ofText_ascii {text : List Char} (h : ∀ c ∈ text, c.toNat < 128) :
    ofText text = text.map Char.toUpper := by
  have hall : ∀ n, n < 128 → ofChar (Char.ofNat n) = [(Char.ofNat n).toUpper] := by decide +kernel
  induction text with
  | nil => rfl
  | cons c rest ih =>
    have hc := hall c.toNat (h c List.mem_cons_self)
    rw [Char.ofNat_toNat] at hc
    have hcons : ofText (c :: rest) = ofChar c ++ ofText rest := List.flatMap_cons
    rw [hcons, hc, ih fun d hd => h d (List.mem_cons_of_mem _ hd)]
    rfl

end Bendable.Upper
