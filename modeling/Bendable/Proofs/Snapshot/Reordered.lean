import Bendable.Proofs.Json.Spaced
import Bendable.Proofs.Snapshot.RoundTrip

/-!
# Snapshots in other orders and layouts

The snapshot of a score is written with its fields in ascending order and without blanks. Decoding
needs neither: the fields may stand in any order, because each is looked up by its name, and there
may be blanks between the tokens, because the reader skips them.

## Main results

* `Snapshot.Describes.of_perm`: members in another order describe the same score
* `Snapshot.decode_of_spaced_perm`: decoding ignores the order of the fields and the blanks
-/

namespace Bendable.Snapshot

variable {members order : List (String × Value)} {s : Score}

/-- **Members in another order describe the same score**, if no name is repeated. -/
theorem Describes.of_perm (h : Describes members s) (hp : order.Perm members)
    (hn : (Value.names members).Nodup) : Describes order s := by
  have hl : ∀ name, order.lookup name = members.lookup name := fun name =>
    (Value.lookup_eq_of_perm hp.symm hn name).symm
  exact
    { names := fun name => (hp.map Prod.fst).mem_iff.trans (h.names name)
      kind := (hl _).trans h.kind
      hard := (hl _).trans h.hard
      soft := (hl _).trans h.soft
      score := h.score.imp fun _ ht => ⟨(hl _).trans ht.1, ht.2⟩ }

/-- **Decoding ignores the order of the fields and the blanks.** The snapshot of a score is made of
the tokens of its members; with the members in any order and any blanks before and after each
token, it is decoded as the score, however deep texts may nest. -/
theorem decode_of_spaced_perm (s : Score) (h : s.IsStorable) :
    encode s = (Json.dictTokens (Snapshot.members s)).flatten ∧
      ∀ order : List (String × Value), order.Perm (Snapshot.members s) → ∀ text : List Char,
        Json.Spaced (Json.dictTokens order) text →
          ∀ nesting, decode nesting (.string (String.ofList text)) = .ok s := by
  refine ⟨(Json.flatten_dictTokens _).symm, ?_⟩
  intro order hp text hs nesting
  have hn : (Value.names (Snapshot.members s)).Nodup := names_members_nodup s
  have hlayout : ∀ member ∈ order,
      Json.Layout (.standard nesting) 1 (Json.compact member.2) member.2 := fun member hm =>
    layout_member (Json.layout_compact_int h.1) (Json.layout_compact_int h.2) (hp.mem_iff.mp hm)
  have hne : order ≠ [] := by
    rintro rfl
    cases hp.nil_eq
  have hread : Json.read (.standard nesting) (String.ofList text).toList =
      .ok (.dict order) := by
    rw [String.toList_ofList]
    exact Json.read_of_spaced hne ((hp.map Prod.fst).nodup_iff.mpr hn) hlayout hs
  -- the fields are checked one by one, each by its name
  rw [decode_of_read hread]
  exact ofMembers_eq_ok_iff.mpr ((describes_members s).of_perm hp hn)

/-- The fields in descending order, with a blank and a tab before each token and a line break at
the end. -/
theorem decode_of_spaced_perm_reverse :
    let s : Score := ⟨Level.wrap (-7), [Level.wrap 7, Level.least], []⟩
    let order := (Snapshot.members s).reverse
    let text := (Json.dictTokens order).flatMap ([' ', '\t'] ++ ·) ++ ['\r', '\n']
    s.IsStorable ∧ order.Perm (Snapshot.members s) ∧ Json.Spaced (Json.dictTokens order) text ∧
      ∀ nesting, decode nesting (.string (String.ofList text)) = .ok s := by
  intro s order text
  have h : s.IsStorable := Score.isStorable_of_length_le (by decide) (by decide)
  have hp : order.Perm (Snapshot.members s) := List.reverse_perm _
  have hs : Json.Spaced (Json.dictTokens order) text :=
    Json.spaced_flatMap (by simp [Json.Blanks, Json.isBlank]) (by simp [Json.Blanks, Json.isBlank]) _
  exact ⟨h, hp, hs, (decode_of_spaced_perm s h).2 order hp text hs⟩

end Bendable.Snapshot
