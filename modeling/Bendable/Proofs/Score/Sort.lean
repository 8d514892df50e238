import Mathlib.Data.List.Chain
import Bendable.Proofs.Score.Order

/-!
# Sorting scores

Scores of one shape are totally ordered, and two of them that are equal in order are the same. So a
list of them has one ascending arrangement only, and every way to sort gives it, however the list
was arranged before. Scores of several shapes are not ordered among each other; the order is
therefore replaced by that of their numbers, which is transitive and total on all of them.

## Main definitions

* `Score.precedes s t`: the numbers of `s` come before those of `t`, or are the same
* `Score.WeaklyOrdered scores`: `<` is a strict weak order on `scores`
* `Score.SortedOf scores r`: `r` is what sorting should make of `scores`

## Main results

* `Score.precedes_antisymm`: scores of one shape that precede each other are the same
* `Score.eq_mergeSort_of_perm`: a list has one ascending arrangement
* `Score.sort_eq_of_perm`: sorting does not depend on the order of the list
-/

namespace Bendable.Score

/-! ## An order on scores of all shapes -/

/-- Whether the numbers of a score come before those of another one, or are the same. -/
def precedes (s t : Score) : Bool := (List.compareLex Ord.compare s.numbers t.numbers).isLE

theorem precedes_trans (s t u : Score) (h : precedes s t = true) (h' : precedes t u = true) :
    precedes s u = true :=
  Std.TransCmp.isLE_trans h h'

/-- The other way round the order is the opposite one. -/
theorem precedes_swap (s t : Score) :
    precedes t s = (List.compareLex Ord.compare s.numbers t.numbers).isGE := by
  rw [precedes, @Std.OrientedCmp.eq_swap _ (List.compareLex Ord.compare) _ t.numbers s.numbers]
  cases List.compareLex Ord.compare s.numbers t.numbers <;> rfl

theorem precedes_total (s t : Score) : (precedes s t || precedes t s) = true := by
  rw [precedes_swap s t, precedes]
  cases List.compareLex Ord.compare s.numbers t.numbers <;> rfl

theorem precedes_refl (s : Score) : precedes s s = true := by
  simpa using precedes_total s s

instance : Trans (fun s t : Score => precedes s t = true) (fun s t => precedes s t = true)
    (fun s t => precedes s t = true) where
  trans := precedes_trans _ _ _

/-! ## Scores of one shape -/

section OneShape

variable {s t : Score}

theorem le_eq_precedes (h : s.shape = t.shape) : le s t = precedes s t := by
  rw [le, order_eq h, precedes]
  cases List.compareLex Ord.compare s.numbers t.numbers <;> rfl

theorem ge_decides_iff_precedes (h : s.shape = t.shape) :
    Operator.ge.Decides s t true ↔ precedes t s = true := by
  rw [(ordered_of_shape_eq h).ge.iff, precedes_swap s t]

theorem lt_decides_iff_precedes (h : s.shape = t.shape) (b : Bool) :
    Operator.lt.Decides s t b ↔ precedes t s = !b := by
  rw [(ordered_of_shape_eq h).lt.iff, precedes_swap s t]
  cases List.compareLex Ord.compare s.numbers t.numbers <;> cases b <;> decide

/-- **Scores of one shape that precede each other are the same.** -/
theorem precedes_antisymm (h : s.shape = t.shape) (hst : precedes s t = true)
    (hts : precedes t s = true) : s = t := by
  rw [precedes_swap s t] at hts
  have heq : List.compareLex Ord.compare s.numbers t.numbers = .eq :=
    Ordering.eq_eq_of_isLE_of_isGE hst hts
  exact (numbers_inj h).mp (Std.LawfulEqCmp.eq_of_compare heq)

end OneShape

/-! ## Lists of one shape -/

section OneShapeList

variable {scores : List Score}

/-- Scores of one shape may be sorted. -/
theorem validateAll_eq_ok (h : ∀ s ∈ scores, ∀ t ∈ scores, s.shape = t.shape) :
    validateAll scores = .ok () := by
  induction scores with
  | nil => rfl
  | cons s scores ih =>
    cases scores with
    | nil => rfl
    | cons t rest =>
      have hts : t.shape = s.shape := h t (by simp) s (by simp)
      rw [validateAll, validate_bind, if_pos hts]
      exact ih fun u hu v hv => h u (List.mem_cons_of_mem s hu) v (List.mem_cons_of_mem s hv)

/-- Scores of one shape are sorted by their numbers. -/
theorem mergeSort_le_eq (h : ∀ s ∈ scores, ∀ t ∈ scores, s.shape = t.shape) :
    scores.mergeSort le = scores.mergeSort precedes := by
  -- `le` is no order on scores of several shapes; on those of the list it is `precedes`.
  have hmap := @List.map_mergeSort _ _ le precedes id scores fun s hs t ht =>
    le_eq_precedes (h s hs t ht)
  simpa using hmap

theorem mergeSort_le_pairwise (h : ∀ s ∈ scores, ∀ t ∈ scores, s.shape = t.shape) :
    (scores.mergeSort le).Pairwise fun s t => precedes s t = true := by
  rw [mergeSort_le_eq h]
  exact List.pairwise_mergeSort precedes_trans precedes_total scores

/-- **There is one ascending arrangement.** -/
theorem eq_mergeSort_of_perm {other : List Score}
    (h : ∀ s ∈ scores, ∀ t ∈ scores, s.shape = t.shape) (hp : other.Perm scores)
    (ho : other.Pairwise fun s t => precedes s t = true) : other = scores.mergeSort le := by
  -- Two ascending arrangements differ in ties only, and a tie is between a score and itself.
  have hperm : other.Perm (scores.mergeSort le) := hp.trans (List.mergeSort_perm _ _).symm
  refine hperm.eq_of_pairwise ?_ ho (mergeSort_le_pairwise h)
  intro s t hs ht hst hts
  exact precedes_antisymm (h s (hp.mem_iff.mp hs) t (List.mem_mergeSort.mp ht)) hst hts

/-- Scores of one shape, at least one, are sorted, and the ends are those of the arrangement. -/
theorem sort_eq_ok (hne : scores ≠ []) (h : ∀ s ∈ scores, ∀ t ∈ scores, s.shape = t.shape) :
    ∃ least greatest, (scores.mergeSort le).head? = some least ∧
      (scores.mergeSort le).getLast? = some greatest ∧
      sort scores = .ok ⟨scores.mergeSort le, least, greatest⟩ := by
  have hsorted : scores.mergeSort le ≠ [] := by
    intro hnil
    exact hne ((hnil ▸ List.mergeSort_perm scores le).nil_eq).symm
  have hhead := List.head?_eq_some_head hsorted
  have hlast := List.getLast?_eq_some_getLast hsorted
  refine ⟨_, _, hhead, hlast, ?_⟩
  rw [sort, validateAll_eq_ok h]
  simp only [bind, Except.bind, hhead, hlast]

end OneShapeList

/-! ## What sorting makes of a list -/

/-- **`<` is a strict weak order** on the scores of a list, so that they can be sorted with it: it
decides between any two of them, puts none before itself, and is transitive where it is true and
where it is false. -/
structure WeaklyOrdered (scores : List Score) : Prop where
  decides : ∀ s ∈ scores, ∀ t ∈ scores, ∃ b, Operator.lt.Decides s t b
  irrefl : ∀ s ∈ scores, Operator.lt.Decides s s false
  trans : ∀ s ∈ scores, ∀ t ∈ scores, ∀ u ∈ scores, Operator.lt.Decides s t true →
    Operator.lt.Decides t u true → Operator.lt.Decides s u true
  negTrans : ∀ s ∈ scores, ∀ t ∈ scores, ∀ u ∈ scores, Operator.lt.Decides s t false →
    Operator.lt.Decides t u false → Operator.lt.Decides s u false

theorem weaklyOrdered {scores : List Score}
    (h : ∀ s ∈ scores, ∀ t ∈ scores, s.shape = t.shape) : WeaklyOrdered scores where
  decides s hs t ht := ⟨_, (ordered_of_shape_eq (h s hs t ht)).lt⟩
  irrefl s _ := (lt_decides_iff_precedes rfl false).mpr (precedes_refl s)
  trans s hs t ht u hu hst htu := by
    rw [lt_decides_iff_precedes (h s hs t ht)] at hst
    rw [lt_decides_iff_precedes (h t ht u hu)] at htu
    rw [lt_decides_iff_precedes (h s hs u hu)]
    -- If `u` preceded `s`, then with `s` before `t` it would precede `t`.
    have hts : precedes s t = true := by simpa [hst] using precedes_total s t
    refine Bool.eq_false_iff.mpr fun hus => ?_
    exact Bool.eq_false_iff.mp htu (precedes_trans u s t hus hts)
  negTrans s hs t ht u hu hst htu := by
    rw [lt_decides_iff_precedes (h s hs t ht)] at hst
    rw [lt_decides_iff_precedes (h t ht u hu)] at htu
    rw [lt_decides_iff_precedes (h s hs u hu)]
    exact precedes_trans u t s htu hst

/-- **What sorting makes of `scores`**: the same texts, adjacent scores ascending, between the
only score that is at most all of them and the only one that is at least all of them. Nothing
else can come out of a sort with `<`: it is a strict weak order, and an arrangement of `scores` in
which no score is less than the one before it is this one. -/
structure SortedOf (scores : List Score) (r : Sorted) : Prop where
  texts : (r.scores.map toString).Perm (scores.map toString)
  ascending : r.scores.IsChain fun s t => Operator.le.Decides s t true
  head : r.scores.head? = some r.least
  last : r.scores.getLast? = some r.greatest
  least : ∀ s, s = r.least ↔ s ∈ scores ∧ ∀ t ∈ scores, Operator.le.Decides s t true
  greatest : ∀ s, s = r.greatest ↔ s ∈ scores ∧ ∀ t ∈ scores, Operator.ge.Decides s t true
  ordered : WeaklyOrdered scores
  unique : ∀ other : List Score, other.Perm scores →
    (other.IsChain fun s t => Operator.lt.Decides t s false) → other = r.scores

section Ends

variable {scores : List Score} {s u : Score}

/-- An end of a list is the only one if no two scores are ends of each other. -/
theorem eq_end_iff {R : Score → Score → Prop} (hmem : u ∈ scores) (hall : ∀ t ∈ scores, R u t)
    (hanti : ∀ t ∈ scores, R t u → R u t → t = u) :
    s = u ↔ s ∈ scores ∧ ∀ t ∈ scores, R s t := by
  constructor
  · rintro rfl
    exact ⟨hmem, hall⟩
  · rintro ⟨hs, h⟩
    exact hanti s hs (h u hmem) (hall s hs)

/-- The first of the sorted scores is the one that is at most all of them. -/
theorem eq_head_mergeSort_iff (h : ∀ s ∈ scores, ∀ t ∈ scores, s.shape = t.shape)
    (hu : (scores.mergeSort le).head? = some u) :
    s = u ↔ s ∈ scores ∧ ∀ t ∈ scores, Operator.le.Decides s t true := by
  obtain ⟨rest, hrest⟩ := List.head?_eq_some_iff.mp hu
  have hpair := mergeSort_le_pairwise h
  have hmem : ∀ t, t ∈ scores ↔ t ∈ u :: rest := fun t => by rw [← hrest, List.mem_mergeSort]
  have hu : u ∈ scores := (hmem u).mpr List.mem_cons_self
  have hfirst : ∀ t ∈ scores, precedes u t = true := by
    intro t ht
    rw [hrest] at hpair
    rcases List.mem_cons.mp ((hmem t).mp ht) with rfl | ht
    · exact precedes_refl t
    · exact List.rel_of_pairwise_cons hpair ht
  refine eq_end_iff (R := fun s t => Operator.le.Decides s t true) hu
    (fun t ht => (le_decides_iff (h u hu t ht)).mpr (hfirst t ht)) ?_
  intro t ht htu _
  exact precedes_antisymm (h t ht u hu) ((le_decides_iff (h t ht u hu)).mp htu) (hfirst t ht)

/-- The last of the sorted scores is the one that is at least all of them. -/
theorem eq_getLast_mergeSort_iff (h : ∀ s ∈ scores, ∀ t ∈ scores, s.shape = t.shape)
    (hu : (scores.mergeSort le).getLast? = some u) :
    s = u ↔ s ∈ scores ∧ ∀ t ∈ scores, Operator.ge.Decides s t true := by
  obtain ⟨rest, hrest⟩ := List.getLast?_eq_some_iff.mp hu
  have hpair := mergeSort_le_pairwise h
  have hmem : ∀ t, t ∈ scores ↔ t ∈ rest ++ [u] := fun t => by rw [← hrest, List.mem_mergeSort]
  have hu : u ∈ scores := (hmem u).mpr List.mem_concat_self
  have hlast : ∀ t ∈ scores, precedes t u = true := by
    intro t ht
    rw [hrest] at hpair
    rcases List.mem_append.mp ((hmem t).mp ht) with ht | ht
    · exact (List.pairwise_append.mp hpair).2.2 t ht u (List.mem_singleton_self u)
    · rw [List.mem_singleton.mp ht]
      exact precedes_refl u
  refine eq_end_iff (R := fun s t => Operator.ge.Decides s t true) hu
    (fun t ht => (ge_decides_iff_precedes (h u hu t ht)).mpr (hlast t ht)) ?_
  intro t ht htu _
  have hut := (ge_decides_iff_precedes (h t ht u hu)).mp htu
  exact precedes_antisymm (h t ht u hu) (hlast t ht) hut

end Ends

/-- What comes out of sorting is what should come out. -/
theorem sortedOf_mergeSort {scores : List Score} {least greatest : Score}
    (h : ∀ s ∈ scores, ∀ t ∈ scores, s.shape = t.shape)
    (hhead : (scores.mergeSort le).head? = some least)
    (hlast : (scores.mergeSort le).getLast? = some greatest) :
    SortedOf scores ⟨scores.mergeSort le, least, greatest⟩ where
  texts := (List.mergeSort_perm scores le).map toString
  ascending := by
    refine List.Pairwise.isChain ((mergeSort_le_pairwise h).imp_of_mem fun {s t} hs ht hst => ?_)
    rw [List.mem_mergeSort] at hs ht
    exact (le_decides_iff (h s hs t ht)).mpr hst
  head := hhead
  last := hlast
  least _ := eq_head_mergeSort_iff h hhead
  greatest _ := eq_getLast_mergeSort_iff h hlast
  ordered := weaklyOrdered h
  unique other hp hchain := by
    -- Neighbours that are not descending precede each other, and preceding is transitive.
    refine eq_mergeSort_of_perm h hp (List.isChain_iff_pairwise.mp ?_)
    refine List.IsChain.imp_of_mem_imp (fun s t hs ht hlt => ?_) hchain
    rw [hp.mem_iff] at hs ht
    exact (lt_decides_iff_precedes (h t ht s hs) false).mp hlt

/-- **Sorting does not depend on the order of the list.** All arrangements of a list of scores of
one shape, at least one, are sorted to one list of scores with its ends. -/
theorem sort_eq_of_perm {scores : List Score} (hne : scores ≠ [])
    (h : ∀ s ∈ scores, ∀ t ∈ scores, s.shape = t.shape) :
    ∃ r : Sorted, (∀ arranged : List Score, arranged.Perm scores → sort arranged = .ok r) ∧
      SortedOf scores r := by
  obtain ⟨least, greatest, hhead, hlast, -⟩ := sort_eq_ok hne h
  have hr := sortedOf_mergeSort h hhead hlast
  refine ⟨_, fun arranged hp => ?_, hr⟩
  have hne' : arranged ≠ [] := fun hnil => hne (hnil ▸ hp).nil_eq.symm
  have h' : ∀ s ∈ arranged, ∀ t ∈ arranged, s.shape = t.shape := fun s hs t ht =>
    h s (hp.mem_iff.mp hs) t (hp.mem_iff.mp ht)
  -- sorted, the arrangement is an ascending arrangement of the scores, of which there is one
  have hsame : arranged.mergeSort le = scores.mergeSort le :=
    eq_mergeSort_of_perm h ((List.mergeSort_perm arranged le).trans hp) (mergeSort_le_pairwise h')
  obtain ⟨least', greatest', hhead', hlast', hsort⟩ := sort_eq_ok hne' h'
  rw [hsame, hhead] at hhead'
  rw [hsame, hlast] at hlast'
  rw [hsort, hsame, Option.some.inj hhead', Option.some.inj hlast']

/-- Four scores, two of them the same: from last to first they are sorted as from first to
last. -/
theorem sort_eq_of_perm_reverse :
    let a : Score := ⟨Level.wrap (-1), [Level.greatest], [0]⟩
    let b : Score := ⟨0, [Level.wrap 1], [Level.wrap 9]⟩
    let c : Score := ⟨0, [Level.wrap 2], [Level.wrap (-7)]⟩
    let scores := [c, b, a, b]
    scores ≠ [] ∧ (∀ s ∈ scores, ∀ t ∈ scores, s.shape = t.shape) ∧
      ∃ r : Sorted, sort scores = .ok r ∧ sort scores.reverse = .ok r ∧ SortedOf scores r ∧
        r.scores = [a, b, b, c] := by
  intro a b c scores
  have hne : scores ≠ [] := List.cons_ne_nil _ _
  have h : ∀ s ∈ scores, ∀ t ∈ scores, s.shape = t.shape := by decide
  obtain ⟨r, hsort, hr⟩ := sort_eq_of_perm hne h
  refine ⟨hne, h, r, hsort _ (List.Perm.refl scores), hsort _ scores.reverse_perm, hr, ?_⟩
  have hperm : [a, b, b, c].Perm scores := by decide
  refine (hr.unique [a, b, b, c] hperm ?_).symm
  exact .cons_cons rfl (.cons_cons rfl (.cons_cons rfl (.singleton c)))

end Bendable.Score
