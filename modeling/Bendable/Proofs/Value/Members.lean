import Mathlib.Data.List.Nodup
import Bendable.Value.Literal

/-!
# Members of a dictionary

Setting a member changes nothing else, so collecting members keeps every member whose name is
not repeated and makes up none. What holds of every integer in a value is a matter of its items
and members.

## Main results

* `Value.collect_eq_self`: members without repeated names are kept as they are
* `Value.mem_of_mem_collect`: every collected member is one of the members
* `Value.lookup_eq_of_perm`: the order of members does not matter if no name is repeated
* `Value.membersWritable_collect`: collecting keeps to the digit limit
-/

namespace Bendable.Value

variable {members : List (String × Value)}

/-! ## Setting a member -/

theorem put_of_not_mem {name : String} (h : name ∉ names members) (v : Value) :
    put name v members = members ++ [(name, v)] := by
  induction members with
  | nil => rfl
  | cons member rest ih =>
    simp only [names, List.map_cons, List.mem_cons, not_or] at h
    rw [put, if_neg (Ne.symm h.1), ih h.2, List.cons_append]

theorem mem_of_mem_put {name : String} {v : Value} {member : String × Value}
    (h : member ∈ put name v members) : member = (name, v) ∨ member ∈ members := by
  induction members with
  | nil => exact .inl (List.mem_singleton.mp h)
  | cons first rest ih =>
    rw [put] at h
    split at h
    · rcases List.mem_cons.mp h with h | h
      · exact .inl h
      · exact .inr (List.mem_cons_of_mem _ h)
    · rcases List.mem_cons.mp h with rfl | h
      · exact .inr List.mem_cons_self
      · exact (ih h).imp_right (List.mem_cons_of_mem _)

/-! ## Collecting members -/

/-- Members without repeated names are appended one by one. -/
theorem foldl_put_of_nodup (acc : List (String × Value))
    (h : (names (acc ++ members)).Nodup) :
    members.foldl (fun acc member => put member.1 member.2 acc) acc = acc ++ members := by
  -- Induction on the members: the next name is new to those that were set.
  induction members generalizing acc with
  | nil => simp
  | cons member rest ih =>
    have hn : member.1 ∉ names acc := by
      rw [names, List.map_append, List.map_cons] at h
      intro hm
      exact List.disjoint_of_nodup_append h hm List.mem_cons_self
    rw [List.foldl_cons, put_of_not_mem hn, ih]
    · simp
    · simpa using h

/-- **Members without repeated names are kept as they are.** -/
theorem collect_eq_self (h : (names members).Nodup) : collect members = members :=
  foldl_put_of_nodup [] h

theorem mem_of_mem_foldl_put {member : String × Value} {acc : List (String × Value)}
    (h : member ∈ members.foldl (fun acc m => put m.1 m.2 acc) acc) :
    member ∈ acc ∨ member ∈ members := by
  induction members generalizing acc with
  | nil => exact .inl h
  | cons first rest ih =>
    rcases ih h with h | h
    · rcases mem_of_mem_put h with rfl | h
      · exact .inr List.mem_cons_self
      · exact .inl h
    · exact .inr (List.mem_cons_of_mem _ h)

/-- Collecting makes up no member. -/
theorem mem_of_mem_collect {member : String × Value} (h : member ∈ collect members) :
    member ∈ members :=
  (mem_of_mem_foldl_put h).resolve_left List.not_mem_nil

/-! ## The order of members -/

/-- **The order of members does not matter** if no name is repeated. -/
theorem lookup_eq_of_perm {other : List (String × Value)} (h : members.Perm other)
    (hn : (names members).Nodup) (name : String) : members.lookup name = other.lookup name := by
  -- Induction on the permutation: only neighbours change places, and their names differ.
  induction h with
  | nil => rfl
  | cons member _ ih => rw [List.lookup_cons, List.lookup_cons, ih hn.of_cons]
  | swap first second rest =>
    have hne : second.1 ≠ first.1 := fun he => (List.nodup_cons.mp hn).1 (by simp [he])
    rw [List.lookup_cons, List.lookup_cons, List.lookup_cons, List.lookup_cons]
    by_cases hs : name = second.1
    · rw [beq_false_of_ne (hs ▸ hne : name ≠ first.1)]
    · rw [beq_false_of_ne hs]
  | trans h _ ih ih' => rw [ih hn, ih' ((h.map Prod.fst).nodup_iff.mp hn)]

/-! ## The digit limit -/

theorem membersWritable_iff :
    membersWritable members = true ↔ ∀ member ∈ members, member.2.isWritable = true := by
  induction members with
  | nil => simp [membersWritable]
  | cons member rest ih => simp [membersWritable, ih]

/-- **Collecting keeps to the digit limit.** -/
theorem membersWritable_collect (h : membersWritable members = true) :
    membersWritable (collect members) = true :=
  membersWritable_iff.mpr fun member hm => membersWritable_iff.mp h member (mem_of_mem_collect hm)

end Bendable.Value
