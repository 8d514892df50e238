import Bendable.Proofs.Score.Run
import Bendable.Proofs.Score.Scale

/-!
# Scaling step by step

The operand of a scaling may be any value, and real arithmetic may refuse at many places. A product
converts its operand once. A quotient and a power convert it again for every level, and there is
always one, since the init score is scaled too. Behind the conversion a zero divisor is told apart
before it divides, a power that is refused is rescued, and a number is floored only after a NaN and
the numbers past the range are told apart. So nothing behind the conversion refuses: the scaling
refuses exactly if the conversion does, and for its reason. A rescue is for the very reasons that the
conversion has, but the conversion stands outside of it.

## Main definitions

* `Binary64.narrowStep`, `Level.quotientStep`, `Level.powerStep`: the steps, each of which may refuse
* `Scaling`, `Scaling.apply`: the three scalings
* `Scaling.steps op s v`: the integers that the scaling computes level by level

## Main results

* `Binary64.narrowStep_eq`: narrowing never refuses
* `Scaling.steps_of_ok`, `Scaling.steps_of_error`: the steps refuse if the conversion does
* `Scaling.refuses_exactly_with_operand`: so do the scalings, which are these steps
-/

namespace Bendable

open Magnitude (perOne)

/-! ## Numbers -/

namespace Binary64

def isNaN : Binary64 → Bool
  | nan => true
  | _ => false

/-- Whether a number is at least an integer. A NaN is not. -/
def atLeast (n : Int) : Binary64 → Bool
  | nan => false
  | infinite negative => !negative
  | finite negative x => n * perOne ≤ signedUnits negative x

/-- Whether a number is at most an integer. A NaN is not. -/
def atMost (n : Int) : Binary64 → Bool
  | nan => false
  | infinite negative => negative
  | finite negative x => signedUnits negative x ≤ n * perOne

/-- A number with another sign. -/
def withSign (negative : Bool) : Binary64 → Binary64
  | nan => nan
  | infinite _ => infinite negative
  | finite _ x => finite negative x

/-- **The floor as a step**: a NaN has none, and that of an infinity is past every integer. -/
def floorStep : Binary64 → Except Fault Int
  | nan => .error .notNumber
  | infinite _ => .error .overflow
  | finite negative x => .ok (finite negative x).floor

/-- **Narrowing as a step.** What is no NaN is compared with both ends of the range, and only what
lies between them is floored. -/
def narrowStep (x : Binary64) : Except Fault Int :=
  if x.isNaN then .ok 0
  else if x.atLeast 2147483647 then .ok 2147483647
  else if x.atMost (-2147483648) then .ok (-2147483648)
  else x.floorStep

/-- **Narrowing never refuses**: no NaN and no infinity is left to be floored. -/
theorem narrowStep_eq (x : Binary64) : x.narrowStep = .ok x.floorLevel.val := by
  rw [val_floorLevel_eq]
  cases x with
  | nan => rfl
  | infinite negative => cases negative <;> rfl
  | finite negative x =>
    simp only [narrowStep, narrowed, isNaN, atLeast, atMost, floorStep, decide_eq_true_eq,
      Bool.false_eq_true, if_false]
    split
    · rfl
    · split <;> rfl

/-! ## Powers -/

/-- **The exit of a power as a run**: it is refused where there is no power, and where the power is
past the format. -/
def PowerExit.run : PowerExit → Except Fault Binary64
  | value x => .ok x
  | undefined => .error .notNumber
  | overflow => .error .overflow

/-- **The rescue of a refused power.** It is for two reasons to refuse, whoever gives them, and lets
every other pass. -/
def rescuePower (n : Int) (y : Binary64) : Fault → Except Fault Binary64
  | .notNumber => .ok (PowerExit.undefined.recover n y)
  | .overflow => .ok (PowerExit.overflow.recover n y)
  | f => .error f

/-- A rescued power is the power. -/
theorem tryCatch_powerExit (n : Int) (y : Binary64) :
    tryCatch (powerExit n y).run (rescuePower n y) = .ok (power n y) := by
  rw [← recover_powerExit]
  cases powerExit n y <;> rfl

end Binary64

/-! ## Levels -/

/-- **A level as a number**, converted like any integer, is not refused. -/
theorem realOfInt_val (a : Level) : realOfInt a.val = .ok (Binary64.ofLevel a) := by
  obtain ⟨x, hx, -⟩ := Binary64.ofLevel_eq a
  have h : Binary64.ofInt? a.val = some (Binary64.ofLevel a) := by
    show (Binary64.ofLevel a).finite? = some (Binary64.ofLevel a)
    rw [hx]
    rfl
  exact Value.toReal_int_eq_ok h

theorem Binary64.floor_ofLevel (a : Level) : (ofLevel a).floor = a.val := by
  obtain ⟨x, hx, hxu⟩ := ofLevel_eq a
  rw [hx, floor, signedUnits_eq, hxu, signed_mul, signed_natAbs,
    Int.mul_fdiv_cancel _ perOne_pos.ne']

namespace Level

/-- **A product as a step**, with a number. -/
def productStep (y : Binary64) (a : Level) : Except Fault Binary64 := do
  let x ← realOfInt a.val
  .ok (x.mul y)

/-- **A quotient as a step**, by a value. A zero divisor is not divided by: the result is a NaN for
the level zero and else an infinity with the sign of the level, times a one with the sign of the
divisor. -/
def quotientStep (v : Value) (a : Level) : Except Fault Binary64 := do
  let y ← v.toReal
  if y.isZero then
    if a.val = 0 then .ok .nan
    else .ok (((Binary64.infinite false).withSign (a.val < 0)).mul
      (Binary64.one.withSign y.isNegative))
  else do
    let x ← realOfInt a.val
    .ok (x.div y)

/-- **A power as a step**, with a value for the exponent. The rescue is for the power alone, and not
for the two conversions. -/
def powerStep (v : Value) (a : Level) : Except Fault Binary64 := do
  let x ← realOfInt a.val
  let y ← v.toReal
  tryCatch (Binary64.powerExit x.floor y).run (Binary64.rescuePower x.floor y)

section Operand

variable {v : Value} {y : Binary64} {f : Fault} (a : Level)

theorem productStep_eq (y : Binary64) : a.productStep y = .ok ((Binary64.ofLevel a).mul y) := by
  rw [productStep, realOfInt_val]
  rfl

/-- The infinity of two signs is the product of an infinity and a one. -/
theorem mul_withSign (s t : Bool) :
    ((Binary64.infinite false).withSign s).mul (Binary64.one.withSign t) =
      .infinite (s != t) := by
  have hp : perOne ≠ 0 := Magnitude.perOne_pos.ne'
  obtain ⟨x, hx, hxu⟩ := Binary64.roundQuotient_whole
    (Magnitude.representable_mul_perOne (m := 1) (by decide))
    (Magnitude.mul_perOne_lt_limit (by decide)) false
  have hx0 : x.significand ≠ 0 := by
    intro h
    rw [x.units_eq_zero_iff.mpr h, Nat.one_mul] at hxu
    exact hp hxu.symm
  rw [Binary64.one, hx]
  exact if_neg hx0

/-- **A zero divisor** gives what division by it gives. -/
theorem div_zero_eq {d : Magnitude} (hd : d.significand = 0) (t : Bool) :
    (if a.val = 0 then Binary64.nan
      else ((Binary64.infinite false).withSign (a.val < 0)).mul (Binary64.one.withSign t)) =
      (Binary64.ofLevel a).div (.finite t d) := by
  obtain ⟨x, hx, hxu⟩ := Binary64.ofLevel_eq a
  rw [hx, Binary64.div, if_pos hd, mul_withSign]
  simp only [Binary64.significand_eq_zero_iff a hxu]

/-- **The quotient by a value that is converted** is the quotient by the number, also by a zero. -/
theorem quotientStep_of_ok (hv : v.toReal = .ok y) :
    a.quotientStep v = .ok ((Binary64.ofLevel a).div y) := by
  rw [quotientStep, hv, realOfInt_val]
  change (if y.isZero then _ else _) = _
  by_cases hy : y.isZero
  · rw [if_pos hy]
    cases y with
    | nan => cases hy
    | infinite => cases hy
    | finite t d =>
      rw [← div_zero_eq a (beq_iff_eq.mp hy) t]
      split <;> rfl
  · rw [if_neg hy]
    rfl

theorem powerStep_of_ok (hv : v.toReal = .ok y) :
    a.powerStep v = .ok (Binary64.power a.val y) := by
  rw [powerStep, hv, realOfInt_val]
  change tryCatch (Binary64.powerExit (Binary64.ofLevel a).floor y).run
    (Binary64.rescuePower (Binary64.ofLevel a).floor y) = _
  rw [Binary64.floor_ofLevel, Binary64.tryCatch_powerExit]

/-- **A value that is not converted** is refused by every level. -/
theorem quotientStep_of_error (hv : v.toReal = .error f) : a.quotientStep v = .error f := by
  rw [quotientStep, hv]
  rfl

theorem powerStep_of_error (hv : v.toReal = .error f) : a.powerStep v = .error f := by
  rw [powerStep, hv, realOfInt_val]
  rfl

/-- The steps are the quotient and the power of any integer, taken at a level. -/
theorem quotientStep_eq (v : Value) : a.quotientStep v = realQuotient a.val v := by
  rw [realQuotient, realOfInt_val]
  cases hv : v.toReal with
  | error f => exact a.quotientStep_of_error hv
  | ok y => exact a.quotientStep_of_ok hv

theorem powerStep_eq (v : Value) : a.powerStep v = realPower a.val v := by
  rw [realPower, realOfInt_val]
  cases hv : v.toReal with
  | error f => exact a.powerStep_of_error hv
  | ok y =>
    rw [a.powerStep_of_ok hv]
    change _ = Except.ok (Binary64.power (Binary64.ofLevel a).floor y)
    rw [Binary64.floor_ofLevel]

end Operand

end Level

/-! ## Scores -/

/-- The integers that a step computes of the init score and of every level, in order. -/
def Score.draftM (f : Level → Except Fault Int) (s : Score) : Except Fault Draft := do
  let init ← f s.init
  let hard ← s.hard.mapM f
  let soft ← s.soft.mapM f
  .ok ⟨.int init, hard.map .int, soft.map .int⟩

namespace Score

variable {f : Level → Except Fault Int} {s : Score}

theorem draftM_of_ok {g : Level → Int} (h : ∀ a, f a = .ok (g a)) :
    s.draftM f = .ok (Draft.map g s) := by
  have hl : ∀ as : List Level, as.mapM f = .ok (as.map g) := by
    intro as
    rw [funext h]
    exact List.mapM_pure
  rw [draftM, h, hl, hl]
  simp [bind, Except.bind, Draft.map]

/-- The init score is the first to be refused, whatever the levels are. -/
theorem draftM_of_error {e : Fault} (h : f s.init = .error e) : s.draftM f = .error e := by
  rw [draftM, h]
  rfl

end Score

/-- **The scalings of a score** by a value. -/
inductive Scaling where
  | multiply
  | divide
  | power

namespace Scaling

/-- What a scaling gives. -/
def apply : Scaling → Score → Value → Except Fault Score
  | multiply => Score.multiply
  | divide => Score.divide
  | power => Score.power

/-- **The steps of a scaling**: the integers that it computes. A product converts its operand before
the steps, the other two in each of them. -/
def steps : Scaling → Score → Value → Except Fault Draft
  | multiply, s, v => do
    let y ← v.toReal
    s.draftM fun a => a.productStep y >>= Binary64.narrowStep
  | divide, s, v => s.draftM fun a => a.quotientStep v >>= Binary64.narrowStep
  | power, s, v => s.draftM fun a => a.powerStep v >>= Binary64.narrowStep

/-- The number that a level becomes before it is narrowed. -/
def number : Scaling → Level → Binary64 → Binary64
  | multiply, a, y => (Binary64.ofLevel a).mul y
  | divide, a, y => (Binary64.ofLevel a).div y
  | power, a, y => Binary64.power a.val y

variable (op : Scaling) (s : Score) {v : Value}

theorem apply_eq (v : Value) : op.apply s v =
    v.toReal >>= fun y => .ok (s.map fun a => (op.number a y).floorLevel) := by
  cases op <;> rfl

/-- **A value that is converted** scales every level, and no step refuses. -/
theorem steps_of_ok {y : Binary64} (hv : v.toReal = .ok y) :
    op.steps s v = .ok (Draft.map (fun a => (op.number a y).floorLevel.val) s) := by
  -- Each step is a number, and every number is narrowed.
  have hn : ∀ {x : Except Fault Binary64} {z : Binary64}, x = .ok z →
      x >>= Binary64.narrowStep = .ok z.floorLevel.val := fun {_ z} hx =>
    bind_eq_ok_iff.mpr ⟨z, hx, z.narrowStep_eq⟩
  cases op with
  | multiply =>
    rw [steps]
    exact bind_eq_ok_iff.mpr ⟨y, hv, Score.draftM_of_ok fun a => hn (a.productStep_eq y)⟩
  | divide =>
    rw [steps]
    exact Score.draftM_of_ok fun a => hn (a.quotientStep_of_ok hv)
  | power =>
    rw [steps]
    exact Score.draftM_of_ok fun a => hn (a.powerStep_of_ok hv)

/-- **A value that is not converted** is refused at the first step, which is there even in a score
without levels. -/
theorem steps_of_error {f : Fault} (hv : v.toReal = .error f) : op.steps s v = .error f := by
  cases op with
  | multiply =>
    rw [steps]
    exact bind_eq_error_iff.mpr (.inl hv)
  | divide =>
    rw [steps]
    apply Score.draftM_of_error
    exact bind_eq_error_iff.mpr (.inl (Level.quotientStep_of_error _ hv))
  | power =>
    rw [steps]
    apply Score.draftM_of_error
    exact bind_eq_error_iff.mpr (.inl (Level.powerStep_of_error _ hv))

/-- **A scaling is its steps, checked.** -/
theorem apply_eq_steps (v : Value) : op.apply s v = op.steps s v >>= Draft.check := by
  rw [apply_eq]
  cases hv : v.toReal with
  | error f =>
    rw [steps_of_error op s hv]
    rfl
  | ok y =>
    rw [steps_of_ok op s hv]
    exact (Draft.check_map fun a => rfl).symm

/-- **A scaling refuses exactly with its operand.** It is the steps of the level by level
computation, each of which may refuse, and yet it refuses if and only if the conversion of the
operand does, and for the same reason: the operand is of a type that is no number, a text that is
none, or an integer past the format. Otherwise it gives a score of the same shape. -/
theorem refuses_exactly_with_operand (op : Scaling) (s : Score) (v : Value) :
    op.apply s v = op.steps s v >>= Draft.check ∧
      (∀ f, op.apply s v = .error f ↔ v.toReal = .error f) ∧
        (∀ f, v.toReal = .error f → f = .wrongType ∨ f = .notNumber ∨ f = .overflow) ∧
          (v.toReal.isOk → ∃ t, op.apply s v = .ok t ∧ t.shape = s.shape) := by
  refine ⟨apply_eq_steps op s v, ?_, v.refusesWith_toReal_kinds, ?_⟩
  · intro f
    rw [apply_eq, bind_eq_error_iff]
    exact or_iff_left fun ⟨_, _, h⟩ => by cases h
  · intro hv
    rw [apply_eq]
    cases hy : v.toReal with
    | error f =>
      rw [hy] at hv
      cases hv
    | ok y => exact ⟨_, rfl, s.shape_map _⟩

/-- An exponent past the format is refused by a score without levels too, but a power past the
format is rescued. -/
theorem power_past_format :
    power.apply (Score.zero 0 0) (.int (Nat.pow 10 309)) = .error .overflow ∧
      (Value.int 1023).toReal.isOk = true ∧
        ∃ t, power.apply ⟨0, [Level.least], []⟩ (.int 1023) = .ok t ∧ t.shape = (1, 0) := by
  have hn : Binary64.ofInt? (Nat.pow 10 309) = none :=
    Option.isNone_iff_eq_none.mp (by decide +kernel)
  have hv : (Value.int (Nat.pow 10 309)).toReal = .error .overflow := by
    rw [Value.toReal, hn]
    rfl
  have hk : (Value.int 1023).toReal.isOk = true := by decide +kernel
  refine ⟨?_, hk, ?_⟩
  · exact ((refuses_exactly_with_operand power (Score.zero 0 0) _).2.1 _).mpr hv
  · exact (refuses_exactly_with_operand power ⟨0, [Level.least], []⟩ _).2.2.2 hk

end Scaling

end Bendable
