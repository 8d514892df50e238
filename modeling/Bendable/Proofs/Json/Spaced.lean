import Bendable.Proofs.Json.Layout

/-!
# Blanks between the tokens of a dictionary

A written dictionary is the sequence of its tokens. Blanks may stand before each of them and after
the last one; whatever they are, the text is a layout of the dictionary, and the reader gives the
same members.

## Main definitions

* `Json.dictTokens members`: the tokens of a dictionary
* `Json.Spaced tokens text`: `text` is made of `tokens`, with blanks before and after each of them

## Main results

* `Json.flatten_dictTokens`: without blanks the tokens are the written dictionary
* `Json.read_of_spaced`: with any blanks they are read as the same dictionary
-/

namespace Bendable.Json

/-! ## Tokens -/

/-- The tokens of the members of a dictionary and its closing brace. A value counts as one token,
as a value without items and members is. -/
def memberTokens : List (String × Value) → List (List Char)
  | [] => [['\x7d']]
  | [(name, v)] => [quote name, [':'], compact v, ['\x7d']]
  | (name, v) :: rest => quote name :: [':'] :: compact v :: [','] :: memberTokens rest

/-- **The tokens of a dictionary**, from brace to brace. -/
def dictTokens (members : List (String × Value)) : List (List Char) :=
  ['\x7b'] :: memberTokens members

theorem flatten_memberTokens (members : List (String × Value)) :
    (memberTokens members).flatten = compactMembers members := by
  induction members with
  | nil => rfl
  | cons member rest ih =>
    cases rest with
    | nil => simp [memberTokens, compactMembers]
    | cons next rest => simp [memberTokens, compactMembers, ih]

/-- **Without blanks the tokens are the written dictionary.** -/
theorem flatten_dictTokens (members : List (String × Value)) :
    (dictTokens members).flatten = compact (.dict members) := by
  rw [dictTokens, List.flatten_cons, flatten_memberTokens, compact]
  rfl

/-! ## Blanks -/

/-- **Tokens with blanks**: any number of them before each token and after the last one. -/
inductive Spaced : List (List Char) → List Char → Prop
  | done {gap : List Char} (hg : Blanks gap) : Spaced [] gap
  | token {gap token text : List Char} {tokens : List (List Char)} (hg : Blanks gap)
      (h : Spaced tokens text) : Spaced (token :: tokens) (gap ++ (token ++ text))

/-- The same blanks may stand before every token. -/
theorem spaced_flatMap {gap last : List Char} (hg : Blanks gap) (hl : Blanks last)
    (tokens : List (List Char)) : Spaced tokens (tokens.flatMap (gap ++ ·) ++ last) := by
  induction tokens with
  | nil => exact .done hl
  | cons token tokens ih =>
    rw [List.flatMap_cons, List.append_assoc, List.append_assoc]
    exact .token hg ih

variable {text : List Char} {tokens : List (List Char)}

theorem spaced_nil_iff : Spaced [] text ↔ Blanks text :=
  ⟨fun | .done hg => hg, .done⟩

theorem spaced_cons_iff {token : List Char} :
    Spaced (token :: tokens) text ↔
      ∃ gap rest, Blanks gap ∧ text = gap ++ (token ++ rest) ∧ Spaced tokens rest := by
  constructor
  · rintro (_ | ⟨hg, h⟩)
    exact ⟨_, _, hg, rfl, h⟩
  · rintro ⟨gap, rest, hg, rfl, h⟩
    exact .token hg h

/-- The tokens of a member, with the blanks around its name and before its value. -/
theorem Spaced.member {name v : List Char} (h : Spaced (name :: [':'] :: v :: tokens) text) :
    ∃ gap g₁ g₂ rest, Blanks gap ∧ Blanks g₁ ∧ Blanks g₂ ∧ Spaced tokens rest ∧
      text = gap ++ (name ++ (g₁ ++ ':' :: (g₂ ++ (v ++ rest)))) := by
  obtain ⟨gap, _, hgap, rfl, hcolon⟩ := spaced_cons_iff.mp h
  obtain ⟨g₁, _, h₁, rfl, hvalue⟩ := spaced_cons_iff.mp hcolon
  obtain ⟨g₂, rest, h₂, rfl, hrest⟩ := spaced_cons_iff.mp hvalue
  exact ⟨gap, g₁, g₂, rest, hgap, h₁, h₂, hrest, rfl⟩

/-! ## Layouts -/

section Reading

variable {limits : Limits} {depth : Nat} {members : List (String × Value)}

/-- Between the blanks around them, the tokens of members with blanks are a layout. -/
theorem membersLayout_of_spaced (hne : members ≠ [])
    (hv : ∀ member ∈ members, Layout limits depth (compact member.2) member.2)
    (h : Spaced (memberTokens members) text) :
    ∃ before body after, Blanks before ∧ Blanks after ∧ text = before ++ (body ++ after) ∧
      MembersLayout limits depth body members := by
  -- Induction on the members: each is one constructor of the layout, with the blanks after it.
  induction members generalizing text with
  | nil => exact absurd rfl hne
  | cons member rest ih =>
    have hl := hv member (by simp)
    cases rest with
    | nil =>
      obtain ⟨before, g₁, g₂, _, hb, h₁, h₂, hbrace, rfl⟩ := Spaced.member h
      obtain ⟨g₃, after, h₃, rfl, hafter⟩ := spaced_cons_iff.mp hbrace
      refine ⟨before, _, after, hb, spaced_nil_iff.mp hafter, ?_, .last h₁ h₂ hl h₃⟩
      simp
    | cons next rest =>
      obtain ⟨before, g₁, g₂, _, hb, h₁, h₂, hcomma, rfl⟩ := Spaced.member h
      obtain ⟨g₃, _, h₃, rfl, hnext⟩ := spaced_cons_iff.mp hcomma
      -- the blanks before the next member are those after the comma
      obtain ⟨g₄, body, after, h₄, ha, rfl, hm⟩ :=
        ih (by simp) (fun m hm => hv m (by simp [hm])) hnext
      refine ⟨before, _, after, hb, ha, ?_, .cons h₁ h₂ hl h₃ h₄ hm⟩
      simp

/-- **A dictionary is read back with any blanks between its tokens**, if no name is repeated and
its values are layouts. -/
theorem read_of_spaced (hne : members ≠ []) (hn : (Value.names members).Nodup)
    (hv : ∀ member ∈ members, Layout limits 1 (compact member.2) member.2)
    (h : Spaced (dictTokens members) text) : read limits text = .ok (.dict members) := by
  obtain ⟨before, _, hb, rfl, hmembers⟩ := spaced_cons_iff.mp h
  obtain ⟨gap, body, after, hg, ha, rfl, hm⟩ := membersLayout_of_spaced hne hv hmembers
  have hread := read_of_layout (.dict limits.allows_zero hg hm) hb ha
  rw [Value.collect_eq_self hn] at hread
  simpa using hread

end Reading

end Bendable.Json
