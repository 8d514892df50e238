import Bendable.Proofs.Json.Token
import Bendable.Proofs.Refusal
import Bendable.Proofs.Value.Members

/-!
# JSON texts with blanks

A value can be laid out in many ways: the tokens are those of the writer, with any number of
blanks before and after each of them. The reader gives the value back from every layout that keeps
to its limits. Real numbers are left out; a dictionary is read with the last value of each name.

## Main definitions

* `Json.Limits.Allows limits depth`: a list or dictionary may have so many others around it
* `Json.Layout limits depth text v`: `text` is a layout of `v`, inside as many lists and
  dictionaries as the depth says, that keeps to the limits

## Main results

* `Json.readValue_of_layout`: a layout is read back, with enough fuel
* `Json.read_of_layout`: a whole text that is a layout is read back
* `Json.read_compact_dict`: a written dictionary is one of its layouts, and is read back
-/

namespace Bendable.Json

/-! ## Nesting -/

/-- **Limits that allow a depth**: a list or dictionary may have so many others around it. -/
def Limits.Allows (limits : Limits) (depth : Nat) : Prop := ∀ k ∈ limits.nesting, depth ≤ k

/-- The outermost list or dictionary is always allowed. -/
theorem Limits.allows_zero (limits : Limits) : limits.Allows 0 := fun k _ => Nat.zero_le k

theorem Limits.checkNesting_eq_ok {limits : Limits} {depth : Nat} (h : limits.Allows depth) :
    limits.checkNesting depth = .ok () := by
  rw [checkNesting, if_neg]
  rw [Option.any_eq_true]
  rintro ⟨k, hk, hlt⟩
  exact Nat.not_lt.mpr (h k hk) (by simpa using hlt)

/-- Where the depth is allowed, the check is passed. -/
theorem Limits.checkNesting_bind {α : Type} {limits : Limits} {depth : Nat}
    (h : limits.Allows depth) (f : Unit → Except Stop α) :
    limits.checkNesting depth >>= f = f () := by
  rw [checkNesting_eq_ok h]
  rfl

/-! ## Layouts -/

/-- Any number of blanks. -/
def Blanks (text : List Char) : Prop := ∀ c ∈ text, isBlank c = true

theorem blanks_nil : Blanks [] := nofun

mutual

/-- **The layouts of a value**: the tokens that are written, with blanks between them. -/
inductive Layout (limits : Limits) : Nat → List Char → Value → Prop
  | null {depth : Nat} : Layout limits depth ['n', 'u', 'l', 'l'] .null
  | true {depth : Nat} : Layout limits depth ['t', 'r', 'u', 'e'] (.bool true)
  | false {depth : Nat} : Layout limits depth ['f', 'a', 'l', 's', 'e'] (.bool false)
  | int {depth : Nat} {n : Int} (h : ∀ k ∈ limits.digits, (Numeral.ofNat n.natAbs).length ≤ k) :
    Layout limits depth (Numeral.ofInt n) (.int n)
  | string {depth : Nat} (s : String) : Layout limits depth (quote s) (.string s)
  | emptyList {depth : Nat} {gap : List Char} (hd : limits.Allows depth) (hg : Blanks gap) :
    Layout limits depth ('[' :: (gap ++ [']'])) (.list [])
  | list {depth : Nat} {gap text : List Char} {items : List Value} (hd : limits.Allows depth)
      (hg : Blanks gap) (hi : ItemsLayout limits (depth + 1) text items) :
    Layout limits depth ('[' :: (gap ++ text)) (.list items)
  | emptyDict {depth : Nat} {gap : List Char} (hd : limits.Allows depth) (hg : Blanks gap) :
    Layout limits depth ('\x7b' :: (gap ++ ['\x7d'])) (.dict [])
  | dict {depth : Nat} {gap text : List Char} {members : List (String × Value)}
      (hd : limits.Allows depth) (hg : Blanks gap)
      (hm : MembersLayout limits (depth + 1) text members) :
    Layout limits depth ('\x7b' :: (gap ++ text)) (.dict (Value.collect members))

/-- The layouts of the items of a list and its closing bracket. -/
inductive ItemsLayout (limits : Limits) : Nat → List Char → List Value → Prop
  | last {depth : Nat} {text gap : List Char} {v : Value} (hv : Layout limits depth text v)
      (hg : Blanks gap) :
    ItemsLayout limits depth (text ++ (gap ++ [']'])) [v]
  | cons {depth : Nat} {text before after rest : List Char} {v : Value} {items : List Value}
      (hv : Layout limits depth text v) (hb : Blanks before) (ha : Blanks after)
      (hr : ItemsLayout limits depth rest items) :
    ItemsLayout limits depth (text ++ (before ++ ',' :: (after ++ rest))) (v :: items)

/-- The layouts of the members of a dictionary and its closing brace. -/
inductive MembersLayout (limits : Limits) : Nat → List Char → List (String × Value) → Prop
  | last {depth : Nat} {name : String} {g₁ g₂ text gap : List Char} {v : Value} (h₁ : Blanks g₁)
      (h₂ : Blanks g₂) (hv : Layout limits depth text v) (hg : Blanks gap) :
    MembersLayout limits depth (quote name ++ (g₁ ++ ':' :: (g₂ ++ (text ++ (gap ++ ['\x7d'])))))
      [(name, v)]
  | cons {depth : Nat} {name : String} {g₁ g₂ text before after rest : List Char} {v : Value}
      {members : List (String × Value)} (h₁ : Blanks g₁) (h₂ : Blanks g₂)
      (hv : Layout limits depth text v) (hb : Blanks before) (ha : Blanks after)
      (hr : MembersLayout limits depth rest members) :
    MembersLayout limits depth
      (quote name ++ (g₁ ++ ':' :: (g₂ ++ (text ++ (before ++ ',' :: (after ++ rest))))))
      ((name, v) :: members)

end

/-! ## Blanks -/

theorem skipBlanks_append {gap : List Char} (h : Blanks gap) (text : List Char) :
    skipBlanks (gap ++ text) = skipBlanks text :=
  List.dropWhile_append_of_pos h

theorem skipBlanks_cons {c : Char} (h : isBlank c = false) (text : List Char) :
    skipBlanks (c :: text) = c :: text := by
  rw [skipBlanks, List.dropWhile_cons_of_neg (by simp [h])]

/-- Blanks before a token are skipped. -/
theorem skipBlanks_gap {gap : List Char} (hg : Blanks gap) {c : Char} (h : isBlank c = false)
    (text : List Char) : skipBlanks (gap ++ c :: text) = c :: text := by
  rw [skipBlanks_append hg, skipBlanks_cons h]

/-- What follows a value: nothing, a blank, a comma or a closing mark. -/
def Delimits (rest : List Char) : Prop :=
  ∀ c ∈ rest.head?, isBlank c = true ∨ c = ',' ∨ c = ']' ∨ c = '\x7d'

theorem Blanks.delimits {gap : List Char} (h : Blanks gap) : Delimits gap :=
  fun c hc => .inl (h c (List.mem_of_mem_head? hc))

theorem delimits_gap {gap : List Char} (hg : Blanks gap) {rest : List Char} (h : Delimits rest) :
    Delimits (gap ++ rest) := by
  cases gap with
  | nil => exact h
  | cons c gap =>
    intro d hd
    cases hd
    exact .inl (hg c (by simp))

theorem delimits_closing {gap : List Char} (hg : Blanks gap) (c : Char) (rest : List Char)
    (hc : c = ',' ∨ c = ']' ∨ c = '\x7d') : Delimits (gap ++ c :: rest) := by
  refine delimits_gap hg ?_
  intro d hd
  cases hd
  exact .inr hc

theorem Delimits.endsNumber {rest : List Char} (h : Delimits rest) : EndsNumber rest := by
  intro c hc
  rcases h c hc with hb | rfl | rfl | rfl
  · simp only [isBlank, Bool.or_eq_true, beq_iff_eq] at hb
    rcases hb with ((rfl | rfl) | rfl) | rfl <;> decide
  all_goals decide

/-! ## Leaves -/

/-- A written integer starts with a digit, after a minus sign if it is negative. -/
theorem ofInt_eq_cons (n : Int) : ∃ d ds, d.isDigit = true ∧
    (Numeral.ofInt n = d :: ds ∨ Numeral.ofInt n = '-' :: d :: ds) := by
  obtain ⟨hne, hd⟩ := Numeral.isDigits_iff.mp (Numeral.isDigits_ofNat n.natAbs)
  obtain ⟨d, ds, he⟩ := List.exists_cons_of_ne_nil hne
  refine ⟨d, ds, hd d (by simp [he]), ?_⟩
  rw [Numeral.ofInt, he]
  split
  · exact .inr rfl
  · exact .inl rfl

/-- No word starts like an integer. -/
theorem find?_words_ofInt (n : Int) (rest : List Char) :
    (words.find? fun (word, _) => word.isPrefixOf (Numeral.ofInt n ++ rest)) = none := by
  obtain ⟨d, ds, hd, he⟩ := ofInt_eq_cons n
  have hne : ∀ c : Char, c.isDigit = false → (c == d) = false := by
    intro c hc
    rw [beq_eq_false_iff_ne]
    rintro rfl
    rw [hd] at hc
    cases hc
  have hm : ('-' == d) = false := hne _ rfl
  rcases he with he | he <;>
    simp [he, words, List.find?, List.isPrefixOf, hm, hne 'n' rfl, hne 't' rfl, hne 'f' rfl,
      hne 'N' rfl, hne 'I' rfl]

theorem readPlain_ofInt (limit : Option Nat) (n : Int) (rest : List Char) :
    readPlain limit (Numeral.ofInt n ++ rest) = readNumber limit (Numeral.ofInt n ++ rest) := by
  rw [readPlain, find?_words_ofInt]

/-- What opens no string, list or dictionary is a word or a number. -/
theorem readValue_plain (limits : Limits) (fuel depth : Nat) {c : Char} (text : List Char)
    (hq : c ≠ '"') (hl : c ≠ '[') (hd : c ≠ '\x7b') :
    readValue limits (fuel + 1) depth (c :: text) = readPlain limits.digits (c :: text) := by
  rw [readValue]
  · intro rest h
    exact hq (List.cons.inj h).1
  · intro rest h
    exact hl (List.cons.inj h).1
  · intro rest h
    exact hd (List.cons.inj h).1

theorem readValue_ofInt (limits : Limits) (fuel depth : Nat) {n : Int} {rest : List Char}
    (hr : EndsNumber rest) :
    readValue limits (fuel + 1) depth (Numeral.ofInt n ++ rest) =
      if limits.digits.any (· < (Numeral.ofNat n.natAbs).length) then .error .tooManyDigits
      else .ok (.int n, rest) := by
  rw [← readNumber_ofInt limits.digits hr, ← readPlain_ofInt]
  obtain ⟨d, ds, hd, he | he⟩ := ofInt_eq_cons n
  · rw [he, List.cons_append]
    refine readValue_plain limits fuel depth _ ?_ ?_ ?_ <;> rintro rfl <;> cases hd
  · rw [he, List.cons_append]
    exact readValue_plain limits fuel depth _ (by decide) (by decide) (by decide)

theorem readValue_quote (limits : Limits) (fuel depth : Nat) (s : String) (rest : List Char) :
    readValue limits (fuel + 1) depth (quote s ++ rest) = .ok (.string s, rest) := by
  rw [quote, List.cons_append, List.append_assoc, readValue, List.singleton_append,
    readString_quote]
  rfl

/-! ## What a value starts with -/

/-- **The start of a value** or of a name: no blank, no closing mark and no byte order mark. -/
def OpensValue (text : List Char) : Prop :=
  ∃ c tail, text = c :: tail ∧ isBlank c = false ∧ c ≠ ']' ∧ c ≠ '\x7d' ∧ c ≠ '\ufeff'

theorem OpensValue.append {text : List Char} (h : OpensValue text) (rest : List Char) :
    OpensValue (text ++ rest) := by
  obtain ⟨c, tail, rfl, hc⟩ := h
  exact ⟨c, tail ++ rest, rfl, hc⟩

theorem OpensValue.skipBlanks_gap {gap text : List Char} (h : OpensValue text) (hg : Blanks gap) :
    skipBlanks (gap ++ text) = text := by
  obtain ⟨c, tail, rfl, hc, -⟩ := h
  exact Json.skipBlanks_gap hg hc tail

/-- A text that starts with a value has no byte order mark. -/
theorem OpensValue.head?_ne_mark {gap text : List Char} (h : OpensValue text) (hg : Blanks gap) :
    (gap ++ text).head? ≠ some '\ufeff' := by
  obtain ⟨c, tail, rfl, -, -, -, hm⟩ := h
  cases gap with
  | nil => simpa using hm
  | cons d gap =>
    have hd : isBlank d = true := hg d (by simp)
    rw [List.cons_append, List.head?_cons, ne_eq, Option.some.injEq]
    rintro rfl
    cases hd

theorem opensValue_ofInt (n : Int) : OpensValue (Numeral.ofInt n) := by
  obtain ⟨d, ds, hd, he | he⟩ := ofInt_eq_cons n
  · have hne : ∀ c : Char, c.isDigit = false → d ≠ c := by
      rintro c hc rfl
      rw [hd] at hc
      cases hc
    refine ⟨d, ds, he, ?_, hne _ rfl, hne _ rfl, hne _ rfl⟩
    simp only [isBlank, Bool.or_eq_false_iff, beq_eq_false_iff_ne]
    exact ⟨⟨⟨hne _ rfl, hne _ rfl⟩, hne _ rfl⟩, hne _ rfl⟩
  · exact ⟨'-', d :: ds, he, by decide, by decide, by decide, by decide⟩

variable {limits : Limits} {depth : Nat} {text : List Char}

theorem opensValue_quote (s : String) : OpensValue (quote s) :=
  ⟨_, _, rfl, by decide, by decide, by decide, by decide⟩

theorem Layout.opensValue {v : Value} (h : Layout limits depth text v) : OpensValue text := by
  cases h with
  | int _ => exact opensValue_ofInt _
  | string s => exact opensValue_quote s
  | _ => exact ⟨_, _, rfl, by decide, by decide, by decide, by decide⟩

theorem ItemsLayout.opensValue {items : List Value} (h : ItemsLayout limits depth text items) :
    OpensValue text := by
  cases h with
  | last hv _ => exact hv.opensValue.append _
  | cons hv _ _ _ => exact hv.opensValue.append _

theorem MembersLayout.opensValue {members : List (String × Value)}
    (h : MembersLayout limits depth text members) : OpensValue text := by
  cases h with
  | last _ _ _ _ => exact (opensValue_quote _).append _
  | cons _ _ _ _ _ _ => exact (opensValue_quote _).append _

/-! ## One step of the readers -/

theorem readItems_last {fuel : Nat} {v : Value} {gap rest : List Char}
    (hv : readValue limits fuel depth text = .ok (v, gap ++ ']' :: rest)) (hg : Blanks gap) :
    readItems limits (fuel + 1) depth text = .ok ([v], rest) := by
  rw [readItems, hv]
  simp only [bind, Except.bind]
  rw [skipBlanks_gap hg (by decide)]
  rfl

theorem readItems_cons {fuel : Nat} {v : Value} {items : List Value} {gap more rest : List Char}
    (hv : readValue limits fuel depth text = .ok (v, gap ++ ',' :: more)) (hg : Blanks gap)
    (hr : readItems limits fuel depth (skipBlanks more) = .ok (items, rest)) :
    readItems limits (fuel + 1) depth text = .ok (v :: items, rest) := by
  rw [readItems, hv]
  simp only [bind, Except.bind]
  rw [skipBlanks_gap hg (by decide)]
  simp only [hr]

theorem readMembers_last {fuel : Nat} (name : String) {v : Value} {g₁ g₂ gap rest : List Char}
    (h₁ : Blanks g₁) (h₂ : Blanks g₂) (ho : OpensValue text)
    (hv : readValue limits fuel depth text = .ok (v, gap ++ '\x7d' :: rest)) (hg : Blanks gap) :
    readMembers limits (fuel + 1) depth (quote name ++ (g₁ ++ ':' :: (g₂ ++ text))) =
      .ok ([(name, v)], rest) := by
  rw [quote, List.cons_append, List.append_assoc, readMembers, List.singleton_append,
    readString_quote]
  simp only [bind, Except.bind]
  rw [skipBlanks_gap h₁ (by decide)]
  simp only [ho.skipBlanks_gap h₂, hv]
  rw [skipBlanks_gap hg (by decide)]
  rfl

theorem readMembers_cons {fuel : Nat} (name : String) {v : Value}
    {members : List (String × Value)} {g₁ g₂ gap more rest : List Char}
    (h₁ : Blanks g₁) (h₂ : Blanks g₂) (ho : OpensValue text)
    (hv : readValue limits fuel depth text = .ok (v, gap ++ ',' :: more)) (hg : Blanks gap)
    (hr : readMembers limits fuel depth (skipBlanks more) = .ok (members, rest)) :
    readMembers limits (fuel + 1) depth (quote name ++ (g₁ ++ ':' :: (g₂ ++ text))) =
      .ok ((name, v) :: members, rest) := by
  rw [quote, List.cons_append, List.append_assoc, readMembers, List.singleton_append,
    readString_quote]
  simp only [bind, Except.bind]
  rw [skipBlanks_gap h₁ (by decide)]
  simp only [ho.skipBlanks_gap h₂, hv]
  rw [skipBlanks_gap hg (by decide)]
  simp only [hr]

/-- A list with items is read by the reader of items. -/
theorem readValue_items (fuel : Nat) {gap : List Char} (hd : limits.Allows depth) (hg : Blanks gap)
    (ho : OpensValue text) :
    readValue limits (fuel + 1) depth ('[' :: (gap ++ text)) =
      (readItems limits fuel (depth + 1) text).map fun (items, rest) => (.list items, rest) := by
  obtain ⟨c, tail, rfl, hb, hc, -⟩ := ho
  rw [readValue, Limits.checkNesting_bind hd, skipBlanks_gap hg hb]
  split
  · rename_i heq
    exact absurd (List.cons.inj heq).1 hc
  · rfl

/-- A dictionary with members is read by the reader of members. -/
theorem readValue_members (fuel : Nat) {gap : List Char} (hd : limits.Allows depth)
    (hg : Blanks gap) (ho : OpensValue text) :
    readValue limits (fuel + 1) depth ('\x7b' :: (gap ++ text)) =
      (readMembers limits fuel (depth + 1) text).map fun (members, rest) =>
        (.dict (Value.collect members), rest) := by
  obtain ⟨c, tail, rfl, hb, -, hc, -⟩ := ho
  rw [readValue, Limits.checkNesting_bind hd, skipBlanks_gap hg hb]
  split
  · rename_i heq
    exact absurd (List.cons.inj heq).1 hc
  · rfl

/-! ## Layouts are read back -/

mutual

/-- **A layout of a value is read back**, with two steps of fuel for each character. -/
theorem readValue_of_layout {depth : Nat} {text : List Char} {v : Value}
    (h : Layout limits depth text v) {fuel : Nat} {rest : List Char}
    (hf : 2 * text.length ≤ fuel + 1) (hr : Delimits rest) :
    readValue limits (fuel + 1) depth (text ++ rest) = .ok (v, rest) := by
  -- Induction on the layout: each constructor is one step of a reader, and the parts follow.
  cases h with
  | null => exact readValue_plain limits fuel depth _ (by decide) (by decide) (by decide)
  | true => exact readValue_plain limits fuel depth _ (by decide) (by decide) (by decide)
  | false => exact readValue_plain limits fuel depth _ (by decide) (by decide) (by decide)
  | int hl =>
    rw [readValue_ofInt limits fuel depth hr.endsNumber, if_neg]
    rw [Option.any_eq_true]
    rintro ⟨k, hk, hlt⟩
    exact Nat.not_lt.mpr (hl k hk) (by simpa using hlt)
  | string s => exact readValue_quote limits fuel depth s rest
  | emptyList hd hg =>
    rw [List.cons_append, List.append_assoc, readValue, Limits.checkNesting_bind hd,
      List.singleton_append, skipBlanks_gap hg (by decide)]
    rfl
  | list hd hg hi =>
    -- the bracket pays for the step here
    simp only [List.length_cons, List.length_append] at hf
    rw [List.cons_append, List.append_assoc,
      readValue_items fuel hd hg (hi.opensValue.append rest), readItems_of_layout hi (by omega)]
    rfl
  | emptyDict hd hg =>
    rw [List.cons_append, List.append_assoc, readValue, Limits.checkNesting_bind hd,
      List.singleton_append, skipBlanks_gap hg (by decide)]
    rfl
  | dict hd hg hm =>
    -- the members as they stand are collected by the reader
    simp only [List.length_cons, List.length_append] at hf
    rw [List.cons_append, List.append_assoc,
      readValue_members fuel hd hg (hm.opensValue.append rest), readMembers_of_layout hm (by omega)]
    rfl

theorem readItems_of_layout {depth : Nat} {text : List Char} {items : List Value}
    (h : ItemsLayout limits depth text items) {fuel : Nat} {rest : List Char}
    (hf : 2 * text.length ≤ fuel) :
    readItems limits fuel depth (text ++ rest) = .ok (items, rest) := by
  cases h with
  | last hv hg =>
    -- the closing bracket alone pays for a step here and one for the item
    simp only [List.length_cons, List.length_append] at hf
    obtain ⟨fuel, rfl⟩ : ∃ n, fuel = n + 2 := ⟨fuel - 2, by omega⟩
    rw [List.append_assoc, List.append_assoc]
    exact readItems_last (readValue_of_layout hv (by omega)
      (delimits_closing hg ']' rest (by simp))) hg
  | cons hv hb ha hr =>
    simp only [List.length_cons, List.length_append] at hf
    obtain ⟨fuel, rfl⟩ : ∃ n, fuel = n + 2 := ⟨fuel - 2, by omega⟩
    simp only [List.append_assoc, List.cons_append]
    refine readItems_cons (readValue_of_layout hv (by omega)
      (delimits_closing hb ',' _ (by simp))) hb ?_
    rw [(hr.opensValue.append rest).skipBlanks_gap ha]
    exact readItems_of_layout hr (by omega)

theorem readMembers_of_layout {depth : Nat} {text : List Char} {members : List (String × Value)}
    (h : MembersLayout limits depth text members) {fuel : Nat} {rest : List Char}
    (hf : 2 * text.length ≤ fuel) :
    readMembers limits fuel depth (text ++ rest) = .ok (members, rest) := by
  cases h with
  | last h₁ h₂ hv hg =>
    simp only [List.length_cons, List.length_append] at hf
    obtain ⟨fuel, rfl⟩ : ∃ n, fuel = n + 2 := ⟨fuel - 2, by omega⟩
    simp only [List.append_assoc, List.cons_append]
    exact readMembers_last _ h₁ h₂ (hv.opensValue.append _) (readValue_of_layout hv (by omega)
      (delimits_closing hg '\x7d' rest (by simp))) hg
  | cons h₁ h₂ hv hb ha hr =>
    simp only [List.length_cons, List.length_append] at hf
    obtain ⟨fuel, rfl⟩ : ∃ n, fuel = n + 2 := ⟨fuel - 2, by omega⟩
    simp only [List.append_assoc, List.cons_append]
    refine readMembers_cons _ h₁ h₂ (hv.opensValue.append _) (readValue_of_layout hv (by omega)
      (delimits_closing hb ',' _ (by simp))) hb ?_
    rw [(hr.opensValue.append rest).skipBlanks_gap ha]
    exact readMembers_of_layout hr (by omega)

end

/-! ## Whole texts -/

/-- **A whole text is read** if it is a layout with blanks around it. -/
theorem read_of_layout {v : Value} (h : Layout limits 0 text v) {before after : List Char}
    (hb : Blanks before) (ha : Blanks after) :
    read limits (before ++ (text ++ after)) = .ok v := by
  have ho : OpensValue (text ++ after) := h.opensValue.append after
  have hm : (before ++ (text ++ after)).head? ≠ some '\ufeff' := ho.head?_ne_mark hb
  -- The blanks around the value give more fuel than it needs.
  have hread : readValue limits (2 * (before ++ (text ++ after)).length + 2) 0 (text ++ after) =
      .ok (v, after) :=
    readValue_of_layout h (by simp only [List.length_append]; omega) ha.delimits
  have hs : skipBlanks after = [] := by
    rw [← List.append_nil after, skipBlanks_append ha]
    rfl
  rw [read, mapError_eq_ok_iff, readDocument, if_neg hm, ho.skipBlanks_gap hb, hread]
  simp only [bind, Except.bind]
  rw [hs]

/-! ## Written dictionaries -/

/-- A written integer is a layout if it keeps to the digit limit. -/
theorem layout_compact_int {nesting : Option Nat} {n : Int} (h : Numeral.isWritable n = true) :
    Layout (.standard nesting) depth (compact (.int n)) (.int n) := by
  refine .int fun k hk => ?_
  cases hk
  rw [Numeral.isWritable_iff, Numeral.splitSign_ofInt] at h
  exact h

/-- Without a digit limit every written integer is a layout. -/
theorem layout_compact_int_unlimited (n : Int) : Layout {} depth (compact (.int n)) (.int n) := by
  refine .int fun k hk => ?_
  cases hk

/-- Written members are a layout if their values are. -/
theorem membersLayout_compact {members : List (String × Value)} (hne : members ≠ [])
    (hv : ∀ member ∈ members, Layout limits depth (compact member.2) member.2) :
    MembersLayout limits depth (compactMembers members) members := by
  induction members with
  | nil => exact absurd rfl hne
  | cons member rest ih =>
    have hl := hv member (by simp)
    cases rest with
    | nil => exact .last blanks_nil blanks_nil hl blanks_nil
    | cons next rest =>
      exact .cons blanks_nil blanks_nil hl blanks_nil blanks_nil
        (ih (by simp) fun m hm => hv m (by simp [hm]))

/-- **A written dictionary is read back** with the last value of each name, if its values are
layouts. -/
theorem read_compact_collect {members : List (String × Value)} (hne : members ≠ [])
    (hv : ∀ member ∈ members, Layout limits 1 (compact member.2) member.2) :
    read limits (compact (.dict members)) = .ok (.dict (Value.collect members)) := by
  have hl : Layout limits 0 (compact (.dict members)) (.dict (Value.collect members)) :=
    .dict limits.allows_zero blanks_nil (membersLayout_compact hne hv)
  simpa using read_of_layout hl blanks_nil blanks_nil

/-- **A written dictionary is read back** as it is, if no name is repeated. -/
theorem read_compact_dict {members : List (String × Value)} (hne : members ≠ [])
    (hn : (Value.names members).Nodup)
    (hv : ∀ member ∈ members, Layout limits 1 (compact member.2) member.2) :
    read limits (compact (.dict members)) = .ok (.dict members) := by
  rw [read_compact_collect hne hv, Value.collect_eq_self hn]

end Bendable.Json
