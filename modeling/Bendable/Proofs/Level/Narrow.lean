import Bendable.Binary64.Basic

/-!
# Narrowing to the level range

Both rules that bring a result into the range compute an integer that is not known to be a level:
wrapping takes a remainder between two offsets, and narrowing a real number tests the two bounds
before it floors. Each of these integers lies in the range, for every exact sum and for every
number, and is the level that `Level.wrap` and `Binary64.floorLevel` give.

## Main definitions

* `Level.wrapped n`: the integer that wrapping computes
* `Binary64.narrowed x`: the integer that narrowing a number computes

## Main results

* `Level.val_wrap_eq`, `Level.inRange_wrapped`: wrapping
* `Binary64.le_floor_iff`: the floor of a finite number is the greatest integer not above it
* `Binary64.val_floorLevel_eq`, `Binary64.inRange_narrowed`: narrowing
-/

namespace Bendable

/-! ## Wrapping -/

/-- **The wrapped integer**: the remainder of the distance to the least level. -/
def Level.wrapped (n : Int) : Int := (n - -2147483648) % 4294967296 + -2147483648

theorem Level.val_wrap_eq (n : Int) : (wrap n).val = wrapped n := by
  rw [val_wrap, wrapped, Int.bmod_def]
  omega

theorem Level.inRange_wrapped (n : Int) : InRange (wrapped n) := by
  rw [InRange, wrapped]
  omega

/-! ## Narrowing -/

namespace Binary64

/-- **The narrowed number**: the bounds are tested on the number itself, and only a number between
them is floored. -/
def narrowed : Binary64 → Int
  | nan => 0
  | infinite true => -2147483648
  | infinite false => 2147483647
  | finite negative x =>
    if 2147483647 * Magnitude.perOne ≤ signedUnits negative x then 2147483647
    else if signedUnits negative x ≤ -2147483648 * Magnitude.perOne then -2147483648
    else (finite negative x).floor

theorem perOne_pos : 0 < (Magnitude.perOne : Int) := by
  rw [Magnitude.perOne, Nat.shiftLeft_eq, Nat.one_mul]
  exact Int.natCast_pos.mpr (Nat.two_pow_pos Magnitude.places)

/-- **The floor of a finite number** is the greatest integer not above it. -/
theorem le_floor_iff {k : Int} {negative : Bool} {x : Magnitude} :
    k ≤ (finite negative x).floor ↔ k * Magnitude.perOne ≤ signedUnits negative x := by
  rw [floor, Int.fdiv_eq_ediv_of_nonneg _ (Int.le_of_lt perOne_pos),
    Int.le_ediv_iff_mul_le perOne_pos]

/-- Between the bounds the floor is a level. -/
theorem inRange_narrowed (x : Binary64) : Level.InRange (narrowed x) := by
  cases x with
  | nan => decide
  | infinite negative => cases negative <;> decide
  | finite negative x =>
    rw [narrowed]
    split
    · decide
    · rename_i hu
      split
      · decide
      · rename_i hl
        rw [← le_floor_iff] at hu
        have hl' := (@le_floor_iff (-2147483648) negative x).mpr (by omega)
        exact ⟨hl', by omega⟩

/-- Testing the bounds before flooring gives what flooring and then stopping at the bounds gives. -/
theorem val_floorLevel_eq (x : Binary64) : x.floorLevel.val = narrowed x := by
  cases x with
  | nan => rfl
  | infinite negative => cases negative <;> rfl
  | finite negative x =>
    rw [floorLevel, Level.val_saturate, narrowed]
    have hp := perOne_pos
    split
    · rename_i hu
      rw [← le_floor_iff] at hu
      omega
    · rename_i hu
      rw [← le_floor_iff] at hu
      split
      · -- A number at or below the least level is below the next integer.
        rename_i hl
        have hl' : ¬-2147483647 ≤ (finite negative x).floor := by
          rw [le_floor_iff]
          omega
        omega
      · rename_i hl
        have hl' := (@le_floor_iff (-2147483648) negative x).mpr (by omega)
        omega

end Binary64

end Bendable
