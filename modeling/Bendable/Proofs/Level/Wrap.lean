import Mathlib.Algebra.Group.MinimalAxioms
import Bendable.Score.Order
import Bendable.Proofs.Level.Residue

/-!
# The group of levels

A sum is the same level whether its summands were wrapped before or not, and so is a difference or
an integer of opposite sign. Wrapping is therefore a congruence, and since every level is what its
value wraps to, the laws of the integers hold of the levels: with wrapped sums they are an abelian
group, the integers modulo `4294967296`.

## Main results

* `Level.wrap_add`, `Level.wrap_sub`, `Level.wrap_neg`: wrapping is a congruence
* `AddCommGroup Level`: wrapped sums make the levels an abelian group
-/

namespace Bendable.Level

instance : Add Level := ⟨add⟩

instance : Neg Level := ⟨negate⟩

instance : Sub Level := ⟨subtract⟩

/-! ## Wrapping is a congruence -/

theorem add_eq_wrap (a b : Level) : a + b = wrap (a.val + b.val) := rfl

/-- Summands may be wrapped before they are added. -/
theorem wrap_add (m n : Int) : wrap m + wrap n = wrap (m + n) := by
  rw [add_eq_wrap, wrap_val_add_val]

theorem wrap_sub (m n : Int) : wrap m - wrap n = wrap (m - n) := by
  change wrap ((wrap m).val - (wrap n).val) = _
  rw [wrap_val_sub_val]

theorem wrap_neg (n : Int) : -wrap n = wrap (-n) := by
  change wrap (-(wrap n).val) = _
  rw [wrap_neg_val]

/-! ## The group -/

protected theorem add_assoc (a b c : Level) : a + b + c = a + (b + c) := by
  rw [← wrap_val a, ← wrap_val b, ← wrap_val c]
  simp only [wrap_add, Int.add_assoc]

protected theorem zero_add (a : Level) : 0 + a = a := by
  rw [add_eq_wrap, val_zero, Int.zero_add, wrap_val]

protected theorem neg_add_cancel (a : Level) : -a + a = 0 := by
  rw [← wrap_val a]
  simp only [wrap_neg, wrap_add, Int.add_left_neg]
  exact wrap_val 0

protected theorem add_comm (a b : Level) : a + b = b + a := by
  rw [add_eq_wrap, add_eq_wrap, Int.add_comm]

protected theorem sub_eq_add_neg (a b : Level) : a - b = a + -b := by
  rw [← wrap_val a, ← wrap_val b]
  simp only [wrap_neg, wrap_add, wrap_sub, Int.sub_eq_add_neg]

/-- **The group of levels.** -/
instance : AddCommGroup Level :=
  { AddGroup.ofLeftAxioms Level.add_assoc Level.zero_add Level.neg_add_cancel with
    sub := subtract
    sub_eq_add_neg := Level.sub_eq_add_neg
    add_comm := Level.add_comm }

/-- The least level is its own negative. -/
example : -least = least := by
  decide

end Bendable.Level
