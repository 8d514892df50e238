import Mathlib.Algebra.Group.Basic
import Mathlib.Data.Nat.Find
import Bendable.Proofs.Level.Narrow
import Bendable.Proofs.Level.Wrap
import Bendable.Proofs.Score.Order

/-!
# The order of sums and of opposites

Adding one score to two others should keep their order, and negating them should reverse it. The
first place where the two differ decides their order, and it stays the first place where they
differ, because adding a level and negating a level are injective. There wrapping around may turn
the order over: two sums are ordered as their summands unless exactly one of them leaves the range,
and two opposites are ordered the other way round unless one of the levels is its own opposite.

## Main definitions

* `Score.at? s p`: the level of `s` at the place `p` in order of priority
* `Score.FirstDifference s t p a b`: `s` and `t` differ first at `p`, with the levels `a` and `b`

## Main results

* `Level.compare_wrap_add`, `Level.compare_negate`: how wrapping around changes the order of levels
* `Score.FirstDifference.compare_eq`: the first difference decides the order
* `Score.compare_shifted`: the order of sums, differences and opposites
-/

namespace Bendable

/-! ## Single levels -/

namespace Level

/-- A function that keeps the order of some pairs of levels and turns over that of the others. It
is enough to know what it does to a level and a greater one. -/
theorem compare_eq_ite_swap (f : Level → Level) (keeps : Level → Level → Prop)
    [∀ a b, Decidable (keeps a b)] (hsymm : ∀ a b, keeps a b → keeps b a)
    (hkeep : ∀ a b, a.val < b.val → keeps a b → (f a).val < (f b).val)
    (hturn : ∀ a b, a.val < b.val → ¬keeps a b → (f b).val < (f a).val) (a b : Level) :
    compare (f a).val (f b).val =
      if keeps a b then compare a.val b.val else (compare a.val b.val).swap := by
  rcases Int.lt_trichotomy a.val b.val with hab | hab | hab
  · rw [Int.compare_eq_lt.mpr hab]
    split
    · rename_i h
      exact Int.compare_eq_lt.mpr (hkeep a b hab h)
    · rename_i h
      exact Int.compare_eq_gt.mpr (hturn a b hab h)
  · obtain rfl := Level.ext hab
    rw [Int.compare_eq_eq.mpr rfl, Int.compare_eq_eq.mpr rfl]
    split <;> rfl
  · rw [Int.compare_eq_gt.mpr hab]
    split
    · rename_i h
      exact Int.compare_eq_gt.mpr (hkeep b a hab (hsymm a b h))
    · rename_i h
      exact Int.compare_eq_lt.mpr (hturn b a hab fun h' => h (hsymm b a h'))

/-- **The order of two sums with one summand in common** is that of the other summands, unless
exactly one of the sums leaves the range. -/
theorem compare_wrap_add {k : Int} (hl : -2147483648 ≤ k) (hu : k ≤ 2147483648) (a b : Level) :
    compare (wrap (a.val + k)).val (wrap (b.val + k)).val =
      if InRange (a.val + k) ↔ InRange (b.val + k) then compare a.val b.val
      else (compare a.val b.val).swap := by
  refine compare_eq_ite_swap (fun a => wrap (a.val + k))
    (fun a b => InRange (a.val + k) ↔ InRange (b.val + k)) (fun _ _ => Iff.symm) ?_ ?_ a b
  · -- Both sums stay in the range, or both leave it on the same side.
    intro a b hab h
    have := a.inRange
    have := b.inRange
    simp only [val_wrap_eq, InRange, wrapped] at *
    omega
  · -- The sum that leaves the range comes back at its other end.
    intro a b hab h
    have := a.inRange
    have := b.inRange
    simp only [val_wrap_eq, InRange, wrapped] at *
    omega

/-- **The order of two opposites** is that of the levels turned over, unless one of the levels is
the least one, which is its own opposite. -/
theorem compare_negate (a b : Level) :
    compare (negate a).val (negate b).val =
      if a = least ∨ b = least then compare a.val b.val else (compare a.val b.val).swap := by
  have hleast : ∀ a : Level, a = least ↔ a.val = -2147483648 := fun a => Level.ext_iff
  refine compare_eq_ite_swap negate (fun a b => a = least ∨ b = least) (fun _ _ => Or.symm)
    ?_ ?_ a b
  · intro a b hab h
    have := a.inRange
    have := b.inRange
    simp only [negate, val_wrap_eq, hleast, InRange, wrapped] at *
    omega
  · intro a b hab h
    have := a.inRange
    have := b.inRange
    simp only [negate, val_wrap_eq, hleast, InRange, wrapped] at *
    omega

end Level

namespace Score

/-! ## The first difference -/

/-- **The level at a place** in order of priority: the init score, the hard and the soft levels. -/
def at? (s : Score) (p : Nat) : Option Level := (s.init :: s.levels)[p]?

/-- **The first difference** of two scores: the place where they differ first, with the level that
each of them has there. -/
structure FirstDifference (s t : Score) (p : Nat) (a b : Level) : Prop where
  before : ∀ q < p, s.at? q = t.at? q
  left : s.at? p = some a
  right : t.at? p = some b
  ne : a ≠ b

variable {s t u : Score} {p : Nat} {a b : Level}

theorem exists_at?_eq_some (h : s.shape = t.shape) (ha : s.at? p = some a) :
    ∃ b, t.at? p = some b := by
  obtain ⟨hh, hs⟩ := Prod.mk.inj h
  obtain ⟨hp, -⟩ := List.getElem?_eq_some_iff.mp ha
  have hp' : p < (t.init :: t.levels).length := by
    simp only [List.length_cons, levels, List.length_append] at hp ⊢
    omega
  exact ⟨_, List.getElem?_eq_getElem hp'⟩

/-- Scores of one shape that are not the same differ at a first place. -/
theorem exists_firstDifference (h : s.shape = t.shape) (hne : s ≠ t) :
    ∃ p a b, FirstDifference s t p a b := by
  have hex : ∃ p, s.at? p ≠ t.at? p := by
    by_contra hall
    simp only [ne_eq, not_exists, not_not] at hall
    have hl : s.init :: s.levels = t.init :: t.levels := List.ext_getElem? hall
    exact hne ((numbers_inj h).mp (congrArg (List.map Level.val) hl))
  have hbefore : ∀ q < Nat.find hex, s.at? q = t.at? q := fun q hq =>
    not_not.mp (Nat.find_min hex hq)
  -- Past the end of one score the other has no level either.
  cases ha : s.at? (Nat.find hex) with
  | some a =>
    obtain ⟨b, hb⟩ := exists_at?_eq_some h ha
    refine ⟨_, a, b, hbefore, ha, hb, fun hab => Nat.find_spec hex ?_⟩
    rw [ha, hb, hab]
  | none =>
    cases hb : t.at? (Nat.find hex) with
    | some b =>
      obtain ⟨a, ha'⟩ := exists_at?_eq_some h.symm hb
      rw [ha] at ha'
      cases ha'
    | none => exact absurd (ha.trans hb.symm) (Nat.find_spec hex)

/-- The first difference of two lists of integers decides their lexicographic order. -/
theorem compareLex_of_first {l l' : List Int} {p : Nat} {m n : Int}
    (hbefore : ∀ q < p, l[q]? = l'[q]?) (hm : l[p]? = some m) (hn : l'[p]? = some n)
    (hne : m ≠ n) : List.compareLex Ord.compare l l' = Ord.compare m n := by
  -- Induction on the place: as long as it is not reached, the heads are equal and drop out.
  induction p generalizing l l' with
  | zero =>
    obtain ⟨l, rfl⟩ := List.head?_eq_some_iff.mp (List.head?_eq_getElem?.trans hm)
    obtain ⟨l', rfl⟩ := List.head?_eq_some_iff.mp (List.head?_eq_getElem?.trans hn)
    rw [List.compareLex_cons_cons]
    cases hc : Ord.compare m n with
    | eq => exact absurd (Int.compare_eq_eq.mp hc) hne
    | lt => rfl
    | gt => rfl
  | succ p ih =>
    cases l with
    | nil => cases hm
    | cons x l =>
      cases l' with
      | nil => cases hn
      | cons y l' =>
        have hxy : x = y := Option.some.inj (hbefore 0 (Nat.succ_pos p))
        rw [List.compareLex_cons_cons, hxy, Int.compare_eq_eq.mpr rfl]
        exact ih (fun q hq => hbefore (q + 1) (Nat.succ_lt_succ hq)) hm hn

theorem getElem?_numbers (s : Score) (p : Nat) : s.numbers[p]? = (s.at? p).map Level.val :=
  List.getElem?_map

/-- **The first difference decides the order.** -/
theorem FirstDifference.compare_eq (h : FirstDifference s t p a b) (hst : s.shape = t.shape) :
    s.compare t = .ok (Ord.compare a.val b.val) := by
  rw [compare_of_shape_eq hst]
  refine congrArg Except.ok (compareLex_of_first (p := p) ?_ ?_ ?_ fun hv => h.ne (Level.ext hv))
  · intro q hq
    rw [getElem?_numbers, getElem?_numbers, h.before q hq]
  · rw [getElem?_numbers, h.left]
    rfl
  · rw [getElem?_numbers, h.right]
    rfl

/-! ## Injective operations -/

theorem at?_map (f : Level → Level) (s : Score) (p : Nat) :
    (s.map f).at? p = (s.at? p).map f := by
  rw [at?, at?, ← List.getElem?_map]
  simp [map, levels]

theorem at?_zipWith (f : Level → Level → Level) (h : s.shape = t.shape)
    (ha : s.at? p = some a) (hb : t.at? p = some b) : (zipWith f s t).at? p = some (f a b) := by
  obtain ⟨hh, -⟩ := Prod.mk.inj h
  have hl : (zipWith f s t).init :: (zipWith f s t).levels =
      List.zipWith f (s.init :: s.levels) (t.init :: t.levels) := by
    simp [zipWith, levels, List.zipWith_append hh]
  rw [at?] at ha hb
  rw [at?, hl, List.getElem?_zipWith, ha, hb]

/-- An injective operation on levels leaves the first difference where it is. -/
theorem FirstDifference.map {f : Level → Level} (hf : Function.Injective f)
    (h : FirstDifference s t p a b) : FirstDifference (s.map f) (t.map f) p (f a) (f b) where
  before := fun q hq => by rw [at?_map, at?_map, h.before q hq]
  left := by rw [at?_map, h.left, Option.map_some]
  right := by rw [at?_map, h.right, Option.map_some]
  ne := hf.ne h.ne

/-- Combining two scores with a third one leaves the first difference where it is, if the operation
is injective in its first operand. -/
theorem FirstDifference.zipWith {f : Level → Level → Level} {c : Level}
    (hf : Function.Injective fun a => f a c) (hst : s.shape = t.shape) (htu : t.shape = u.shape)
    (h : FirstDifference s t p a b) (hc : u.at? p = some c) :
    FirstDifference (Score.zipWith f s u) (Score.zipWith f t u) p (f a c) (f b c) where
  before := by
    intro q hq
    -- Up to the first difference there is a level in all three scores.
    have hlt : q < (s.init :: s.levels).length :=
      Nat.lt_trans hq (List.getElem?_eq_some_iff.mp h.left).1
    have hs : s.at? q = some (s.init :: s.levels)[q] := List.getElem?_eq_getElem hlt
    obtain ⟨d, hd⟩ := exists_at?_eq_some (hst.trans htu) hs
    rw [at?_zipWith f (hst.trans htu) hs hd, at?_zipWith f htu ((h.before q hq).symm.trans hs) hd]
  left := at?_zipWith f (hst.trans htu) h.left hc
  right := at?_zipWith f htu h.right hc
  ne := hf.ne h.ne

/-! ## Sums, differences and opposites -/

theorem compare_zipWith {f : Level → Level → Level} {c : Level}
    (hf : Function.Injective fun a => f a c) (hst : s.shape = t.shape) (htu : t.shape = u.shape)
    (h : FirstDifference s t p a b) (hc : u.at? p = some c) :
    (zipWith f s u).compare (zipWith f t u) = .ok (Ord.compare (f a c).val (f b c).val) := by
  have hshape : (Score.zipWith f s u).shape = (Score.zipWith f t u).shape := by
    rw [shape_zipWith f (hst.trans htu), shape_zipWith f htu, hst]
  exact (h.zipWith hf hst htu hc).compare_eq hshape

/-- **The order of sums, differences and opposites**: with `p` the first place where two scores of
one shape differ, adding a third score to both, or subtracting it from both, keeps their order if
both or neither of the exact results at `p` leave the range, and turns it over if exactly one does.
Negating both turns their order over, unless one of the levels at `p` is the least one. -/
theorem compare_shifted (hst : s.shape = t.shape) (htu : t.shape = u.shape) (hne : s ≠ t) :
    (∃ p a b, FirstDifference s t p a b) ∧
      ∀ p a b, FirstDifference s t p a b → ∃ c o, u.at? p = some c ∧ s.compare t = .ok o ∧
        (s.add u >>= fun x => t.add u >>= fun y => x.compare y) =
          .ok (if Level.InRange (a.val + c.val) ↔ Level.InRange (b.val + c.val) then o
            else o.swap) ∧
        (s.subtract u >>= fun x => t.subtract u >>= fun y => x.compare y) =
          .ok (if Level.InRange (a.val - c.val) ↔ Level.InRange (b.val - c.val) then o
            else o.swap) ∧
        s.negate.compare t.negate =
          .ok (if a.val = -2147483648 ∨ b.val = -2147483648 then o else o.swap) := by
  refine ⟨exists_firstDifference hst hne, fun p a b h => ?_⟩
  obtain ⟨c, hc⟩ := exists_at?_eq_some (hst.trans htu) h.left
  have hcl := c.min_le
  have hcu := c.le_max
  refine ⟨c, Ord.compare a.val b.val, hc, h.compare_eq hst, ?_, ?_, ?_⟩
  · rw [add_eq, if_pos (hst.trans htu), add_eq, if_pos htu]
    have hf : Function.Injective fun a => Level.add a c := add_left_injective c
    refine (compare_zipWith hf hst htu h hc).trans (congrArg Except.ok ?_)
    exact Level.compare_wrap_add hcl (by omega) a b
  · rw [subtract_eq, if_pos (hst.trans htu), subtract_eq, if_pos htu]
    have hf : Function.Injective fun a => Level.subtract a c := sub_left_injective
    refine (compare_zipWith hf hst htu h hc).trans (congrArg Except.ok ?_)
    -- A difference is the sum with the exact opposite, which may be one past the range.
    exact Level.compare_wrap_add (k := -c.val) (by omega) (by omega) a b
  · have hf : Function.Injective Level.negate := neg_injective
    have hshape : s.negate.shape = t.negate.shape := by
      rw [negate, shape_map, negate, shape_map, hst]
    refine ((h.map hf).compare_eq hshape).trans (congrArg Except.ok ?_)
    have hleast : ∀ a : Level, a = Level.least ↔ a.val = -2147483648 := fun a => Level.ext_iff
    rw [Level.compare_negate]
    simp only [hleast]

/-- One of two sums leaves the range at the second hard level and turns the order over. The
differences stay in the range, and no opposite is its own. -/
theorem compare_shifted_past_range :
    let s : Score := ⟨0, [Level.wrap 5, Level.greatest], [Level.wrap 1]⟩
    let t : Score := ⟨0, [Level.wrap 5, 0], [Level.wrap 9]⟩
    let u : Score := ⟨Level.wrap 7, [Level.wrap (-3), Level.wrap 1], [Level.wrap 2]⟩
    s.shape = t.shape ∧ t.shape = u.shape ∧ s ≠ t ∧ FirstDifference s t 2 Level.greatest 0 ∧
      s.compare t = .ok .gt ∧ (s.add u >>= fun x => t.add u >>= fun y => x.compare y) = .ok .lt ∧
      (s.subtract u >>= fun x => t.subtract u >>= fun y => x.compare y) = .ok .gt ∧
      s.negate.compare t.negate = .ok .lt := by
  intro s t u
  have hne : s ≠ t := by decide
  have hd : FirstDifference s t 2 Level.greatest 0 :=
    { before := by decide
      left := rfl
      right := rfl
      ne := by decide }
  obtain ⟨c, o, hc, ho, hadd, hsub, hneg⟩ := (@compare_shifted s t u rfl rfl hne).2 2 _ _ hd
  obtain rfl : Level.wrap 1 = c := Option.some.inj hc
  have hgt : s.compare t = .ok .gt := hd.compare_eq rfl
  obtain rfl : .gt = o := Except.ok.inj (hgt.symm.trans ho)
  exact ⟨rfl, rfl, hne, hd, hgt, hadd, hsub, hneg⟩

end Score

end Bendable
