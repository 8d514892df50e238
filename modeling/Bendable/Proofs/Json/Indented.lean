import Mathlib.Data.List.ModifyLast
import Bendable.Proofs.Json.Layout
import Bendable.Proofs.Text.Line

/-!
# Indented JSON

A list or a dictionary that is written over several lines has its brackets on lines of their own,
and the lines of its items or members between them, two blanks further to the right. The writer
keeps count of the depth instead; joined by line ends, the lines are what it writes. The line ends
and the blanks stand between tokens only, so the text is read back as the value.

## Main definitions

* `Json.lines v`: the lines of a value

## Main results

* `Json.indented_eq_lines`: the lines, joined, are the written value
* `Json.unbroken_lines`: a line holds no line end
* `Json.read_indented_dict`: a dictionary that is written over several lines is read back
-/

namespace Bendable.Json

/-! ## Lines -/

/-- A line two blanks further to the right. -/
def shiftLine (line : List Char) : List Char := ' ' :: ' ' :: line

/-- Lines with a comma behind the last one. -/
def withComma (block : List (List Char)) : List (List Char) := block.modifyLast (· ++ [','])

/-- The lines of a member: the name stands in front of the first line of its value. -/
def withName (name : String) (block : List (List Char)) : List (List Char) :=
  block.modifyHead (quote name ++ ':' :: ' ' :: ·)

mutual

/-- **The lines of a value.** An empty list or dictionary stands on one line, like a scalar. -/
def lines : Value → List (List Char)
  | .list [] => [['[', ']']]
  | .list items => ['['] :: ((itemLines items).map shiftLine ++ [[']']])
  | .dict [] => [['\x7b', '\x7d']]
  | .dict members => ['\x7b'] :: ((memberLines members).map shiftLine ++ [['\x7d']])
  | v => [writeScalar v]

/-- The lines of the items of a list. -/
def itemLines : List Value → List (List Char)
  | [] => []
  | [v] => lines v
  | v :: rest => withComma (lines v) ++ itemLines rest

/-- The lines of the members of a dictionary. -/
def memberLines : List (String × Value) → List (List Char)
  | [] => []
  | [(name, v)] => withName name (lines v)
  | (name, v) :: rest => withComma (withName name (lines v)) ++ memberLines rest

end

/-! ## Joined lines -/

/-- Lines that are joined: each one after the first has the separator in front of it. -/
theorem intercalate_cons (sep line : List Char) (block : List (List Char)) :
    sep.intercalate (line :: block) = line ++ block.flatMap (sep ++ ·) := by
  induction block generalizing line with
  | nil => simp
  | cons next block ih =>
    rw [List.intercalate_cons_cons, ih, List.flatMap_cons, List.append_assoc, List.append_assoc]

theorem append_intercalate (sep : List Char) {block : List (List Char)} (h : block ≠ []) :
    sep ++ sep.intercalate block = block.flatMap (sep ++ ·) := by
  obtain ⟨line, block, rfl⟩ := List.exists_cons_of_ne_nil h
  rw [intercalate_cons, List.flatMap_cons, List.append_assoc]

theorem newLine_succ (depth : Nat) : newLine (depth + 1) = newLine depth ++ [' ', ' '] := by
  rw [newLine, newLine, Nat.mul_succ, List.replicate_add]
  rfl

/-- Lines that are shifted at one depth are lines at the next one. -/
theorem flatMap_shiftLine (depth : Nat) (block : List (List Char)) :
    (block.map shiftLine).flatMap (newLine depth ++ ·) =
      block.flatMap (newLine (depth + 1) ++ ·) := by
  rw [List.flatMap_map, newLine_succ]
  simp [shiftLine]

theorem flatMap_withComma (sep : List Char) {block : List (List Char)} (h : block ≠ []) :
    (withComma block).flatMap (sep ++ ·) = block.flatMap (sep ++ ·) ++ [','] := by
  -- only the last line changes, so the block is split there
  obtain ⟨init, last, rfl⟩ := (List.eq_nil_or_concat' block).resolve_left h
  rw [withComma, List.modifyLast_concat]
  simp

theorem flatMap_withName (sep : List Char) (name : String) {block : List (List Char)}
    (h : block ≠ []) : (withName name block).flatMap (sep ++ ·) =
      sep ++ (quote name ++ ':' :: ' ' :: sep.intercalate block) := by
  obtain ⟨line, block, rfl⟩ := List.exists_cons_of_ne_nil h
  rw [withName, List.modifyHead_cons, List.flatMap_cons, intercalate_cons]
  simp

/-! ## Written values -/

theorem lines_ne_nil (v : Value) : lines v ≠ [] := by
  unfold lines
  split <;> exact List.cons_ne_nil _ _

theorem withName_ne_nil (name : String) {block : List (List Char)} (h : block ≠ []) :
    withName name block ≠ [] := by
  obtain ⟨line, block, rfl⟩ := List.exists_cons_of_ne_nil h
  exact List.cons_ne_nil _ _

mutual

/-- **The lines, joined at a depth, are the value as it is written there.** -/
theorem indented_eq_lines (depth : Nat) (v : Value) :
    indented depth v = (newLine depth).intercalate (lines v) := by
  -- Induction on the value, for every depth: items and members stand one deeper than their
  -- brackets, and the lines of a block that is shifted at one depth are its lines at the next.
  match v with
  | .null | .bool _ | .int _ | .real _ | .string _ => simp [indented, lines]
  | .list [] => simp [indented, lines]
  | .list (first :: rest) =>
    have hi := newLine_indentedItems depth (List.cons_ne_nil first rest)
    simp only [indented, lines, intercalate_cons, List.flatMap_append, flatMap_shiftLine, hi]
    simp
  | .dict [] => simp [indented, lines]
  | .dict (first :: rest) =>
    have hm := newLine_indentedMembers depth (List.cons_ne_nil first rest)
    simp only [indented, lines, intercalate_cons, List.flatMap_append, flatMap_shiftLine, hm]
    simp

theorem newLine_indentedItems (depth : Nat) {items : List Value} (h : items ≠ []) :
    newLine (depth + 1) ++ indentedItems depth items =
      (itemLines items).flatMap (newLine (depth + 1) ++ ·) ++ (newLine depth ++ [']']) := by
  match items with
  | [v] =>
    rw [indentedItems, itemLines, indented_eq_lines (depth + 1) v,
      ← append_intercalate _ (lines_ne_nil v)]
    simp
  | v :: next :: rest =>
    -- the comma ends the last line of the item, and the next item starts a line
    have hi := newLine_indentedItems depth (List.cons_ne_nil next rest)
    simp only [indentedItems, itemLines, indented_eq_lines (depth + 1) v, List.flatMap_append,
      flatMap_withComma _ (lines_ne_nil v), ← append_intercalate _ (lines_ne_nil v), hi]
    simp

theorem newLine_indentedMembers (depth : Nat) {members : List (String × Value)}
    (h : members ≠ []) : newLine (depth + 1) ++ indentedMembers depth members =
      (memberLines members).flatMap (newLine (depth + 1) ++ ·) ++ (newLine depth ++ ['\x7d']) := by
  match members with
  | [(name, v)] =>
    rw [indentedMembers, memberLines, indented_eq_lines (depth + 1) v,
      flatMap_withName _ name (lines_ne_nil v)]
    simp
  | (name, v) :: next :: rest =>
    have hm := newLine_indentedMembers depth (List.cons_ne_nil next rest)
    simp only [indentedMembers, memberLines, indented_eq_lines (depth + 1) v, List.flatMap_append,
      flatMap_withComma _ (withName_ne_nil name (lines_ne_nil v)),
      flatMap_withName _ name (lines_ne_nil v), hm]
    simp

end

/-! ## Line ends -/

theorem newline_not_mem_quote (s : String) : '\n' ∉ quote s := by
  have hchar : ∀ c, '\n' ∉ writeChar c := by
    intro c
    -- a line end is written as a letter behind a backslash: what stands for itself is none
    fun_cases writeChar c with
    | case1 h => rcases h with rfl | rfl <;> decide
    | case7 => simp [Quoted.newline_not_mem_hexDigits]
    | case8 _ hne => simpa using Ne.symm hne
    | case2 | case3 | case4 | case5 | case6 => decide
  simp [quote, hchar]

theorem newline_not_mem_writeScalar (v : Value) : '\n' ∉ writeScalar v := by
  fun_cases writeScalar v with
  | case3 n => exact Numeral.newline_not_mem_ofInt n
  | case4 x =>
    fun_cases writeReal x with
    | case4 => exact Binary64.newline_not_mem_text x
    | case1 | case2 | case3 => decide
  | case5 s => exact newline_not_mem_quote s
  | case1 | case2 | case6 => decide

/-- Lines that hold no line end. -/
def Unbroken (block : List (List Char)) : Prop := ∀ line ∈ block, '\n' ∉ line

namespace Unbroken

variable {block : List (List Char)}

theorem single {line : List Char} (h : '\n' ∉ line) : Unbroken [line] :=
  List.forall_mem_singleton.mpr h

theorem append {other : List (List Char)} (h : Unbroken block) (ho : Unbroken other) :
    Unbroken (block ++ other) := List.forall_mem_append.mpr ⟨h, ho⟩

/-- Lines between two marks, shifted to the right. -/
theorem between (h : Unbroken block) {opening closing : List Char} (ho : '\n' ∉ opening)
    (hc : '\n' ∉ closing) : Unbroken (opening :: (block.map shiftLine ++ [closing])) := by
  have hs : Unbroken (block.map shiftLine) := by
    refine List.forall_mem_map.mpr fun line hl => ?_
    simpa [shiftLine] using h line hl
  exact (single ho).append (hs.append (single hc))

theorem withComma (h : Unbroken block) : Unbroken (withComma block) := by
  rcases List.eq_nil_or_concat' block with rfl | ⟨init, last, rfl⟩
  · exact h
  · rw [Json.withComma, List.modifyLast_concat]
    obtain ⟨hinit, hlast⟩ := List.forall_mem_append.mp h
    refine append hinit (single ?_)
    simpa using hlast

theorem withName (h : Unbroken block) (name : String) : Unbroken (withName name block) := by
  cases block with
  | nil => exact h
  | cons line rest =>
    obtain ⟨hl, hr⟩ := List.forall_mem_cons.mp h
    refine (single ?_).append hr
    simp [newline_not_mem_quote, hl]

end Unbroken

mutual

/-- **A line holds no line end.** -/
theorem unbroken_lines (v : Value) : Unbroken (lines v) := by
  match v with
  | .null | .bool _ | .int _ | .real _ | .string _ =>
    simp only [lines]
    exact .single (newline_not_mem_writeScalar _)
  | .list [] => exact .single (by decide)
  | .list (first :: rest) =>
    simp only [lines]
    exact (unbroken_itemLines (first :: rest)).between (by decide) (by decide)
  | .dict [] => exact .single (by decide)
  | .dict (first :: rest) =>
    simp only [lines]
    exact (unbroken_memberLines (first :: rest)).between (by decide) (by decide)

theorem unbroken_itemLines (items : List Value) : Unbroken (itemLines items) := by
  match items with
  | [] => simp [itemLines, Unbroken]
  | [v] => exact unbroken_lines v
  | v :: next :: rest =>
    simp only [itemLines]
    exact (unbroken_lines v).withComma.append (unbroken_itemLines (next :: rest))

theorem unbroken_memberLines (members : List (String × Value)) :
    Unbroken (memberLines members) := by
  match members with
  | [] => simp [memberLines, Unbroken]
  | [(name, v)] => exact (unbroken_lines v).withName name
  | (name, v) :: next :: rest =>
    simp only [memberLines]
    exact ((unbroken_lines v).withName name).withComma.append (unbroken_memberLines (next :: rest))

end

/-! ## Reading back -/

section Reading

variable {limits : Limits} {depth : Nat}

theorem blanks_newLine (depth : Nat) : Blanks (newLine depth) := by
  refine List.forall_mem_cons.mpr ⟨by decide, fun c hc => ?_⟩
  rw [List.eq_of_mem_replicate hc]
  rfl

/-- Written items are a layout if each of them is. -/
theorem itemsLayout_indented {items : List Value} (hne : items ≠ [])
    (hv : ∀ v ∈ items, Layout limits (depth + 1) (indented (depth + 1) v) v) :
    ItemsLayout limits (depth + 1) (indentedItems depth items) items := by
  induction items with
  | nil => exact absurd rfl hne
  | cons v rest ih =>
    obtain ⟨hl, hrest⟩ := List.forall_mem_cons.mp hv
    cases rest with
    | nil =>
      simp only [indentedItems, List.append_assoc]
      exact .last hl (blanks_newLine depth)
    | cons next rest =>
      simp only [indentedItems]
      exact .cons hl blanks_nil (blanks_newLine (depth + 1)) (ih (List.cons_ne_nil _ _) hrest)

/-- Written members are a layout if their values are. -/
theorem membersLayout_indented {members : List (String × Value)} (hne : members ≠ [])
    (hv : ∀ member ∈ members,
      Layout limits (depth + 1) (indented (depth + 1) member.2) member.2) :
    MembersLayout limits (depth + 1) (indentedMembers depth members) members := by
  have hspace : Blanks [' '] := by simp [Blanks, isBlank]
  induction members with
  | nil => exact absurd rfl hne
  | cons member rest ih =>
    obtain ⟨hl, hrest⟩ := List.forall_mem_cons.mp hv
    cases rest with
    | nil =>
      simp only [indentedMembers, List.append_assoc]
      exact .last blanks_nil hspace hl (blanks_newLine depth)
    | cons next rest =>
      simp only [indentedMembers]
      exact .cons blanks_nil hspace hl blanks_nil (blanks_newLine (depth + 1))
        (ih (List.cons_ne_nil _ _) hrest)

/-- A written list is a layout if its items are. -/
theorem layout_indented_list {items : List Value} (hd : limits.Allows depth)
    (hv : ∀ v ∈ items, Layout limits (depth + 1) (indented (depth + 1) v) v) :
    Layout limits depth (indented depth (.list items)) (.list items) := by
  cases items with
  | nil => exact .emptyList hd blanks_nil
  | cons first rest =>
    simp only [indented]
    exact .list hd (blanks_newLine (depth + 1)) (itemsLayout_indented (List.cons_ne_nil _ _) hv)

/-- **A dictionary that is written over several lines is read back**, if its values are layouts and
no name is repeated. -/
theorem read_indented_dict {members : List (String × Value)} (hn : (Value.names members).Nodup)
    (hv : ∀ member ∈ members, Layout limits 1 (indented 1 member.2) member.2) :
    read limits (indented 0 (.dict members)) = .ok (.dict members) := by
  have hl : Layout limits 0 (indented 0 (.dict members)) (.dict members) := by
    cases members with
    | nil => exact .emptyDict limits.allows_zero blanks_nil
    | cons first rest =>
      have hm : MembersLayout limits 1 (indentedMembers 0 (first :: rest)) (first :: rest) :=
        membersLayout_indented (List.cons_ne_nil _ _) hv
      simp only [indented]
      have hd := Layout.dict limits.allows_zero (blanks_newLine 1) hm
      rwa [Value.collect_eq_self hn] at hd
  simpa using read_of_layout hl blanks_nil blanks_nil

end Reading

end Bendable.Json
