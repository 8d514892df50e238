/-!
# Levels

One level of a score is a signed 32-bit word. Sums and differences leave the range by wrapping
around; real results leave it by stopping at its ends. The range is written out: `-2147483648` is
minus the 31st power of two, and `4294967296` is the 32nd.

## Main definitions

* `Level`: an integer with the proof that it lies in the range
* `Level.wrap`: the residue modulo `4294967296`
* `Level.saturate`: the nearest level

## Main results

* `Level.wrap_val`, `Level.saturate_val`: both leave a level as it is
-/

namespace Bendable

/-- A signed 32-bit word. -/
structure Level where
  val : Int
  min_le : -2147483648 ≤ val
  le_max : val ≤ 2147483647

namespace Level

/-- Levels with the same value are the same level. -/
@[ext] theorem ext {a b : Level} (h : a.val = b.val) : a = b := by
  cases a; cases b; cases h; rfl

instance : DecidableEq Level := fun a b =>
  if h : a.val = b.val then isTrue (ext h) else isFalse fun e => h (e ▸ rfl)

/-- The integers that are levels. -/
def InRange (n : Int) : Prop := -2147483648 ≤ n ∧ n ≤ 2147483647

instance (n : Int) : Decidable (InRange n) := inferInstanceAs (Decidable (_ ∧ _))

theorem inRange (a : Level) : InRange a.val := ⟨a.min_le, a.le_max⟩

/-- The least level. -/
def least : Level := ⟨-2147483648, by decide, by decide⟩

/-- The greatest level. -/
def greatest : Level := ⟨2147483647, by decide, by decide⟩

/-- The level `n`, if `n` is one. -/
def ofInt? (n : Int) : Option Level :=
  if h : InRange n then some ⟨n, h.1, h.2⟩ else none

/-- The level congruent to `n` modulo `4294967296`. -/
def wrap (n : Int) : Level :=
  ⟨n.bmod 4294967296, Int.le_bmod (x := n) (m := 4294967296) (by decide),
    Int.le_sub_one_of_lt (Int.bmod_lt (x := n) (m := 4294967296) (by decide))⟩

/-- The level nearest to `n`. -/
def saturate (n : Int) : Level :=
  ⟨max (-2147483648) (min n 2147483647), by omega, by omega⟩

instance : Zero Level := ⟨⟨0, by decide, by decide⟩⟩

@[simp] theorem val_zero : (0 : Level).val = 0 := rfl

@[simp] theorem val_wrap (n : Int) : (wrap n).val = n.bmod 4294967296 := rfl

@[simp] theorem val_saturate (n : Int) :
    (saturate n).val = max (-2147483648) (min n 2147483647) := rfl

/-- Wrapping leaves a level as it is. -/
theorem wrap_val (a : Level) : wrap a.val = a := by
  have := a.min_le; have := a.le_max
  ext
  exact Int.bmod_eq_of_le (by omega) (by omega)

/-- Saturating leaves a level as it is. -/
theorem saturate_val (a : Level) : saturate a.val = a := by
  have := a.min_le; have := a.le_max
  ext
  simp only [val_saturate]
  omega

/-- Exactly the integers in the range are levels. -/
theorem ofInt?_eq_some_iff {n : Int} {a : Level} : ofInt? n = some a ↔ a.val = n := by
  unfold ofInt?
  split
  · rename_i h
    constructor
    · rintro ⟨⟩; rfl
    · rintro rfl; rfl
  · rename_i h
    constructor
    · rintro ⟨⟩
    · rintro rfl; exact absurd a.inRange h

end Level

end Bendable
