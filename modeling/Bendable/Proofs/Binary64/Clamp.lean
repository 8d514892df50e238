import Bendable.Proofs.Binary64.Exact
import Bendable.Proofs.Binary64.Monotone
import Bendable.Proofs.Score.Steps

/-!
# Floor, then clamp

Narrowing compares a number with both ends of the range first, and floors it only in between. That
is the same as flooring its exact value and stopping at the ends then, also for the fractions just
inside of the ends and just outside, for a zero of either sign and for the numbers that are all but
zero. A NaN is zero and the infinities are the ends. Flooring and stopping keep the order, so
narrowing does, and a whole number in the range stays. An integer is stopped at the ends as it is,
and it makes no difference if the number that it is rounded to is narrowed in its place.

## Main definitions

* `Binary64.FloorsAndClamps f`: what `f` makes of every number

## Main results

* `Binary64.floorsAndClamps_floorLevel`: the level of a number is its floor, stopped at the ends
* `Value.floorLevel_of_integer`: the level of an integer
* `Value.floorLevel_floors_and_clamps`: numbers and integers, by the steps of narrowing
-/

namespace Bendable

namespace Binary64

/-! ## Numbers -/

/-- **Floor, then clamp**: the exact value of a finite number is floored and stopped at the ends of
the range. So the order is kept wherever there is one, and whole numbers in the range are kept. -/
structure FloorsAndClamps (f : Binary64 → Int) : Prop where
  notNumber : f nan = 0
  above : f (infinite false) = 2147483647
  below : f (infinite true) = -2147483648
  floored : ∀ negative x,
    f (finite negative x) = max (-2147483648) (min ⌊exactValue negative x⌋ 2147483647)
  mono : ∀ {x y p q}, x.extended? = some p → y.extended? = some q → p ≤ q → f x ≤ f y
  whole : ∀ {negative x} {n : Int}, exactValue negative x = n → Level.InRange n →
    f (finite negative x) = n

theorem floorLevel_finite (negative : Bool) (x : Magnitude) :
    (finite negative x).floorLevel = Level.saturate ⌊exactValue negative x⌋ := by
  rw [floor_exactValue]
  rfl

/-- **Narrowing keeps the order** of the extended rationals. -/
theorem floorLevel_mono {x y : Binary64} {p q : WithBot (WithTop ℚ)} (hx : x.extended? = some p)
    (hy : y.extended? = some q) (h : p ≤ q) : x.floorLevel.val ≤ y.floorLevel.val := by
  rcases cases_of_le hx hy h with rfl | rfl | ⟨s, m, t, n, rfl, rfl, hle⟩
  · exact y.floorLevel.min_le
  · exact x.floorLevel.le_max
  · rw [floorLevel_finite, floorLevel_finite]
    exact Level.saturate_mono (Int.floor_mono hle)

/-- **A whole number in the range** is floored to itself. -/
theorem floorLevel_of_exactValue {negative : Bool} {x : Magnitude} {n : Int}
    (h : exactValue negative x = n) (hn : Level.InRange n) :
    (finite negative x).floorLevel.val = n := by
  obtain ⟨hmin, hmax⟩ := hn
  rw [floorLevel_finite, h, Int.floor_intCast, Level.val_saturate]
  omega

theorem floorsAndClamps_floorLevel : FloorsAndClamps fun x => x.floorLevel.val where
  notNumber := rfl
  above := rfl
  below := rfl
  floored negative x := by rw [floorLevel_finite, Level.val_saturate]
  mono := floorLevel_mono
  whole := floorLevel_of_exactValue

/-! ## Integers -/

/-- **An integer that is rounded to a number** has the same level as that number. -/
theorem floorLevel_ofInt? {n : Int} {y : Binary64} (h : ofInt? n = some y) :
    y.floorLevel = Level.saturate n := by
  obtain ⟨rfl, -⟩ := finite?_eq_some_iff.mp h
  rw [floorLevel_whole, signed_natAbs]

end Binary64

namespace Value

open Binary64 (FloorsAndClamps exactValue exactValue_ofBits exponentField floorLevel_one
  floorLevel_zero fractionField)

/-- **The level of an integer** that is converted is the integer, stopped at the ends, and the
number that it is rounded to has the same level. A boolean is one of two integers. -/
theorem floorLevel_of_integer {v : Value} {n : Int} {y : Binary64} (hn : v.integer? = some n)
    (hy : v.toReal = .ok y) :
    v.floorLevel = .ok (Level.saturate n) ∧ y.floorLevel = Level.saturate n := by
  cases v with
  | bool b =>
    obtain rfl : (if b then 1 else 0) = n := Option.some.inj hn
    obtain rfl : (if b then Binary64.one else Binary64.zero false) = y := Except.ok.inj hy
    have hlevel : (if b then Binary64.one else Binary64.zero false).floorLevel =
        Level.saturate (if b then 1 else 0) := by
      cases b with
      | false => exact (floorLevel_zero false).trans (Level.saturate_val 0).symm
      | true =>
        rw [if_pos rfl, if_pos rfl, floorLevel_one]
        exact (Level.saturate_val Level.one).symm
    exact ⟨congrArg Except.ok hlevel, hlevel⟩
  | int k =>
    obtain rfl : k = n := Option.some.inj hn
    obtain ⟨z, hz⟩ := exists_ofInt?_of_isOk (k := k) (by rw [hy]; rfl)
    obtain rfl : z = y := Except.ok.inj ((toReal_int_eq_ok hz).symm.trans hy)
    refine ⟨?_, Binary64.floorLevel_ofInt? hz⟩
    rw [floorLevel, realOfInt, hy]
    rfl
  | _ => cases hn

/-- **Narrowing is floor, then clamp**, on every number and on every integer that is converted. The
steps of narrowing, which compare before they floor, give a NaN as zero, the infinities as the ends,
and a finite number as the floor of its exact value, stopped at the ends. They keep the order of all
but the NaN, and the whole numbers in the range. An integer is stopped at the ends, and so is the
number that it is rounded to. -/
theorem floorLevel_floors_and_clamps :
    FloorsAndClamps (fun x => x.floorLevel.val) ∧
      (∀ x, (Value.real x).floorLevel = .ok x.floorLevel ∧
        x.narrowStep = .ok x.floorLevel.val) ∧
      ∀ (v : Value) (n : Int) (y : Binary64), v.integer? = some n → v.toReal = .ok y →
        ∃ a, v.floorLevel = .ok a ∧ a.val = max (-2147483648) (min n 2147483647) ∧
          y.floorLevel = a := by
  refine ⟨Binary64.floorsAndClamps_floorLevel, ?_, ?_⟩
  · exact fun x => ⟨rfl, x.narrowStep_eq⟩
  · intro v n y hn hy
    obtain ⟨hv, hlevel⟩ := floorLevel_of_integer hn hy
    exact ⟨_, hv, Level.val_saturate n, hlevel⟩

/-- A half above the least level a number is floored to it, a zero with a sign is a whole number,
and an integer that is no number is stopped like the number next to it. -/
theorem floorLevel_floors_and_clamps_half :
    let x := Binary64.ofBits 0xC1DFFFFFFFE00000
    let z := Binary64.ofBits 0x8000000000000000
    x.extended? = some ((-4294967295 / 2 : ℚ) : WithTop ℚ) ∧ x.floorLevel = Level.least ∧
      z.extended? = some ((0 : ℚ) : WithTop ℚ) ∧ z.floorLevel = 0 ∧
        x.floorLevel.val ≤ z.floorLevel.val ∧ (Value.int (-9007199254740993)).toReal.isOk = true ∧
          ∃ a, (Value.int (-9007199254740993)).floorLevel = .ok a ∧ a.val = -2147483648 := by
  intro x z
  obtain ⟨hnum, -, hint⟩ := floorLevel_floors_and_clamps
  have hxs : Nat.testBit 0xC1DFFFFFFFE00000 63 = true := by decide
  have hxe : exponentField 0xC1DFFFFFFFE00000 = 1053 := by decide
  have hxf : fractionField 0xC1DFFFFFFFE00000 = 4503599625273344 := by decide
  obtain ⟨m, hx, hxv⟩ := exactValue_ofBits hxs hxe hxf (by decide)
  have hxv' : exactValue true m = -4294967295 / 2 := hxv.trans (by norm_num)
  have hxp : x.extended? = some ((-4294967295 / 2 : ℚ) : WithTop ℚ) := by
    rw [← hxv']
    exact congrArg Binary64.extended? hx
  have hzs : Nat.testBit 0x8000000000000000 63 = true := by decide
  have hze : exponentField 0x8000000000000000 = 0 := by decide
  have hzf : fractionField 0x8000000000000000 = 0 := by decide
  obtain ⟨n, hz, hzv⟩ := exactValue_ofBits hzs hze hzf (by decide)
  have hzv' : exactValue true n = 0 := hzv.trans (by norm_num)
  have hzp : z.extended? = some ((0 : ℚ) : WithTop ℚ) := by
    rw [← hzv']
    exact congrArg Binary64.extended? hz
  have hfloor : ⌊(-4294967295 / 2 : ℚ)⌋ = -2147483648 := by norm_num
  have hle : (-4294967295 / 2 : ℚ) ≤ 0 := by norm_num
  have hk : (Value.int (-9007199254740993)).toReal.isOk = true := by decide +kernel
  obtain ⟨y, hy⟩ := exists_ofInt?_of_isOk hk
  obtain ⟨a, ha, hav, -⟩ := hint (.int (-9007199254740993)) _ y rfl (toReal_int_eq_ok hy)
  refine ⟨hxp, Level.ext ?_, hzp, Level.ext ?_,
    hnum.mono hxp hzp (WithBot.coe_le_coe.mpr (WithTop.coe_le_coe.mpr hle)), hk, a, ha, hav⟩
  · change (Binary64.ofBits 0xC1DFFFFFFFE00000).floorLevel.val = _
    rw [hx]
    refine (hnum.floored true m).trans ?_
    rw [hxv', hfloor]
    decide
  · change (Binary64.ofBits 0x8000000000000000).floorLevel.val = _
    rw [hz]
    exact hnum.whole (hzv'.trans Int.cast_zero.symm) (by decide)

end Value

end Bendable
