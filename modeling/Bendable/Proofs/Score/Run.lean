import Bendable.Proofs.Level.Narrow
import Bendable.Proofs.Score.Draft
import Bendable.Proofs.Score.Shape
import Bendable.Score.Access
import Bendable.Score.Scale
import Bendable.Snapshot

/-!
# Runs of calls on scores

A run takes a score from its source, and then makes every score of the one before it by a call:
a sum, a difference, a scaling, a change of the init score. No operand is assumed to be anything:
it may be a value that is no score, a NaN, an infinity or a huge integer.

What a call computes is a draft of unbounded integers, and its result is the score that passes the
check of drafts. The two narrowing rules bring every computed integer into the range, so no call
is refused for a level out of the range, but for the one that is handed an init score. A call
keeps the shape, so a whole run does.

## Main definitions

* `Call`, `Score.call s c`: the calls, and what a call on a score gives
* `Score.draftOf s c`: the integers that the call computes before they are checked
* `Start`, `Start.run`: the sources of scores, and the runs that start at one
* `Score.Sound s c`: what is promised of a call

## Main results

* `Score.call_eq`: the result of a call is its draft, checked
* `Score.yields_draftOf`: what a call computes keeps to the range
* `Score.call_sound`: what one call preserves
* `Start.run_sound`: what holds of every score that a run reaches
-/

namespace Bendable

/-! ## Calls -/

/-- **A call** that makes a score of a score. -/
inductive Call where
  | add (b : Operand)
  | subtract (b : Operand)
  | negate
  | multiply (v : Value)
  | divide (v : Value)
  | power (v : Value)
  | toInitialized
  | withInit (v : Value)

/-- The call is handed an init score. Every other call computes its levels. -/
def Call.SetsInit (c : Call) : Prop := ∃ v, c = .withInit v

namespace Score

/-- **What a call on a score gives.** -/
def call (s : Score) : Call → Except Fault Score
  | .add b => do
    let (s, t) ← (Operand.score s).matching b
    s.add t
  | .subtract b => do
    let (s, t) ← (Operand.score s).matching b
    s.subtract t
  | .negate => .ok s.negate
  | .multiply v => s.multiply v
  | .divide v => s.divide v
  | .power v => s.power v
  | .toInitialized => .ok s.toInitialized
  | .withInit v => s.withInit v

/-- The integers that a real function makes of the levels and a number. -/
def draftScaled (f : Level → Binary64 → Binary64) (s : Score) (v : Value) : Except Fault Draft := do
  let y ← v.toReal
  .ok (Draft.map (fun a => (f a y).narrowed) s)

/-- The integers that a combination of two scores makes of their levels. -/
def draftWrapped (f : Int → Int → Int) (s : Score) (b : Operand) : Except Fault Draft := do
  let (s, t) ← (Operand.score s).matching b
  .ok (Draft.zipWith (fun a b => Level.wrapped (f a.val b.val)) s t)

/-- **The draft of a call**: what it computes, before anything is checked. -/
def draftOf (s : Score) : Call → Except Fault Draft
  | .add b => draftWrapped (· + ·) s b
  | .subtract b => draftWrapped (· - ·) s b
  | .negate => .ok (Draft.map (fun a => Level.wrapped (-a.val)) s)
  | .multiply v => draftScaled (fun a y => (Binary64.ofLevel a).mul y) s v
  | .divide v => draftScaled (fun a y => (Binary64.ofLevel a).div y) s v
  | .power v => draftScaled (fun a y => Binary64.power a.val y) s v
  | .toInitialized => .ok { s.draft with init := .int 0 }
  | .withInit v =>
    if s.init ≠ 0 then Fault.raise (.initState s) else .ok { s.draft with init := v }

end Score

/-! ## Operands -/

/-- **A range error**: a level or an init score is no integer of the range. -/
def Fault.IsRangeError (f : Fault) : Prop := ∃ e, f = .score (.range e)

/-- An error of another kind is none, also where its message is too long to be written. -/
theorem Fault.not_isRangeError_ofError {e : ScoreError} (h : ∀ r, e ≠ .range r) :
    ¬(ofError e).IsRangeError := by
  rintro ⟨r, hr⟩
  -- The fault is the error itself, or digits beyond the limit.
  rw [ofError] at hr
  split at hr
  · exact h r (Fault.score.inj hr)
  · cases hr

namespace Operand

variable {b : Operand} {s t t' : Score}

/-- A score matches exactly the scores of its shape. -/
theorem matching_eq_ok_iff :
    (score s).matching b = .ok (t, t') ↔ t = s ∧ b = .score t' ∧ s.shape = t'.shape := by
  cases b with
  | value v => simp [matching, Fault.raise]
  | score u =>
    change (s.validate u >>= fun _ => .ok (s, u)) = _ ↔ _
    rw [Score.validate_bind]
    split <;> grind

/-- A match is refused for its shape, and never for a range. -/
theorem refusesWith_matching : RefusesWith (¬·.IsRangeError) ((score s).matching b) := by
  cases b with
  | value v => exact .error (Fault.not_isRangeError_ofError fun r h => by cases h)
  | score t =>
    change RefusesWith _ (s.validate t >>= fun _ => .ok (s, t))
    rw [Score.validate_bind]
    split
    · exact .ok _
    · exact .error fun ⟨_, h⟩ => by cases h

end Operand

/-- The reasons for which a value is no number. -/
theorem Value.refusesWith_toReal_kinds (v : Value) :
    RefusesWith (fun f => f = .wrongType ∨ f = .notNumber ∨ f = .overflow) v.toReal := by
  cases v with
  | bool b => exact .ok _
  | real x => exact .ok x
  | int n =>
    rw [toReal]
    exact .elim (.inr (.inr rfl)) _
  | string s =>
    rw [toReal]
    exact .elim (.inr (.inl rfl)) _
  | null | list | dict => exact .error (.inl rfl)

/-- A value that is no number is not refused for a range either. -/
theorem Value.refusesWith_toReal (v : Value) : RefusesWith (¬·.IsRangeError) v.toReal := by
  refine v.refusesWith_toReal_kinds.mono ?_
  rintro f hf ⟨e, rfl⟩
  rcases hf with h | h | h <;> cases h

namespace Score

/-! ## The draft of a call -/

section Families

variable {s : Score}

/-- Levels that are narrowed one by one are the checked narrowed integers. -/
theorem scaled_eq (f : Level → Binary64 → Binary64) (v : Value) :
    (v.toReal >>= fun y => .ok (s.map fun a => (f a y).floorLevel)) =
      draftScaled f s v >>= Draft.check := by
  rw [draftScaled, bind_assoc]
  refine bind_congr fun y => ?_
  exact (Draft.check_map fun a => Binary64.val_floorLevel_eq (f a y)).symm

theorem yields_draftScaled (f : Level → Binary64 → Binary64) (v : Value) :
    Yields (fun d => d.shape = s.shape ∧ d.WellFormed) (draftScaled f s v) := by
  refine .bind (P := fun _ => True) (fun _ _ => trivial) fun y _ => .ok ⟨Draft.shape_map _, ?_⟩
  exact Draft.wellFormed_map fun a => Binary64.inRange_narrowed (f a y)

theorem refusesWith_draftScaled (f : Level → Binary64 → Binary64) (v : Value) :
    RefusesWith (¬·.IsRangeError) (draftScaled f s v) :=
  .bind v.refusesWith_toReal fun _ _ => .ok _

/-- Levels that are wrapped one by one are the checked wrapped integers. -/
theorem wrapped_eq {f : Int → Int → Int} {g : Level → Level → Level}
    (h : ∀ a b, g a b = Level.wrap (f a.val b.val)) {run : Score → Score → Except Fault Score}
    (hr : ∀ s t, s.shape = t.shape → run s t = .ok (zipWith g s t)) (b : Operand) :
    ((Operand.score s).matching b >>= fun (s, t) => run s t) =
      draftWrapped f s b >>= Draft.check := by
  rw [draftWrapped, bind_assoc]
  -- Both sides refuse alike; past the match there are two scores of one shape.
  cases hm : (Operand.score s).matching b with
  | error e => rfl
  | ok st =>
    obtain ⟨t, t'⟩ := st
    obtain ⟨rfl, -, hs⟩ := Operand.matching_eq_ok_iff.mp hm
    change run t t' = (Draft.zipWith _ t t').check
    have hv : ∀ a b : Level, (g a b).val = Level.wrapped (f a.val b.val) := by
      intro a b
      rw [h, Level.val_wrap_eq]
    rw [hr t t' hs, Draft.check_zipWith hv]

theorem yields_draftWrapped (f : Int → Int → Int) (b : Operand) :
    Yields (fun d => d.shape = s.shape ∧ d.WellFormed) (draftWrapped f s b) := by
  intro d h
  obtain ⟨⟨t, t'⟩, hm, hd⟩ := bind_eq_ok_iff.mp h
  obtain ⟨rfl, -, hs⟩ := Operand.matching_eq_ok_iff.mp hm
  cases hd
  exact ⟨Draft.shape_zipWith _ hs, Draft.wellFormed_zipWith fun a b => Level.inRange_wrapped _⟩

theorem refusesWith_draftWrapped (f : Int → Int → Int) (b : Operand) :
    RefusesWith (¬·.IsRangeError) (draftWrapped f s b) :=
  .bind Operand.refusesWith_matching fun _ _ => .ok _

end Families

/-! ## One call -/

/-- **The result of a call is its draft, checked.** -/
theorem call_eq (s : Score) (c : Call) : s.call c = s.draftOf c >>= Draft.check := by
  cases c with
  | add b =>
    exact wrapped_eq (g := Level.add) (fun _ _ => rfl)
      (fun s t hs => (add_eq s t).trans (if_pos hs)) b
  | subtract b =>
    exact wrapped_eq (g := Level.subtract) (fun _ _ => rfl)
      (fun s t hs => (subtract_eq s t).trans (if_pos hs)) b
  | negate =>
    exact (Draft.check_map fun a => Level.val_wrap_eq (-a.val)).symm
  | multiply v => exact scaled_eq (fun a y => (Binary64.ofLevel a).mul y) v
  | divide v => exact scaled_eq (fun a y => (Binary64.ofLevel a).div y) v
  | power v => exact scaled_eq (fun a y => Binary64.power a.val y) v
  | toInitialized => exact (Draft.check_draft s.toInitialized).symm
  | withInit v =>
    rw [call, draftOf, withInit]
    split
    · rfl
    · exact (Draft.check_withInit s v).symm

/-- **What a call computes** from the levels of a score is as many integers of the range. -/
theorem yields_draftOf {c : Call} (hc : ¬c.SetsInit) (s : Score) :
    Yields (fun d => d.shape = s.shape ∧ d.WellFormed) (s.draftOf c) := by
  cases c with
  | add b => exact yields_draftWrapped _ b
  | subtract b => exact yields_draftWrapped _ b
  | negate => exact .ok ⟨Draft.shape_map _, Draft.wellFormed_map fun a => Level.inRange_wrapped _⟩
  | multiply v => exact yields_draftScaled _ v
  | divide v => exact yields_draftScaled _ v
  | power v => exact yields_draftScaled _ v
  | toInitialized => exact .ok ⟨Draft.shape_map _, s.toInitialized.wellFormed_draft⟩
  | withInit v => exact absurd ⟨v, rfl⟩ hc

/-- An init score that is handed in may be anything, but it does not change the shape. -/
theorem yields_shape_draftOf (s : Score) (c : Call) :
    Yields (fun d => d.shape = s.shape) (s.draftOf c) := by
  by_cases hc : c.SetsInit
  · obtain ⟨v, rfl⟩ := hc
    rw [draftOf]
    split
    · exact .error _
    · exact .ok (Draft.shape_map _)
  · exact (yields_draftOf hc s).mono fun _ h => h.1

/-- What a call computes is not refused for its range. -/
theorem refusesWith_draftOf (s : Score) (c : Call) :
    RefusesWith (¬·.IsRangeError) (s.draftOf c) := by
  cases c with
  | add b => exact refusesWith_draftWrapped _ b
  | subtract b => exact refusesWith_draftWrapped _ b
  | negate => exact .ok _
  | multiply v => exact refusesWith_draftScaled _ v
  | divide v => exact refusesWith_draftScaled _ v
  | power v => exact refusesWith_draftScaled _ v
  | toInitialized => exact .ok _
  | withInit v =>
    rw [draftOf]
    split
    · exact .error (Fault.not_isRangeError_ofError fun r h => by cases h)
    · exact .ok _

/-- **What is promised of a call**: its result is the checked draft, the draft keeps to the range
unless it holds an init score that was handed in, the result is well formed and has the shape of
the score, and only an init score that is handed in is refused for its range. -/
structure Sound (s : Score) (c : Call) : Prop where
  checked : s.call c = s.draftOf c >>= Draft.check
  narrowed : ¬c.SetsInit → Yields Draft.WellFormed (s.draftOf c)
  preserved : Yields (fun t => t.draft.WellFormed ∧ t.shape = s.shape) (s.call c)
  not_range : ¬c.SetsInit → RefusesWith (¬·.IsRangeError) (s.call c)

theorem call_sound (s : Score) (c : Call) : s.Sound c where
  checked := call_eq s c
  narrowed := fun hc => (yields_draftOf hc s).mono fun _ h => h.2
  preserved := by
    intro t ht
    rw [call_eq] at ht
    obtain ⟨d, hd, ht⟩ := bind_eq_ok_iff.mp ht
    exact ⟨t.wellFormed_draft, (Draft.shape_of_check ht).trans (yields_shape_draftOf s c d hd)⟩
  not_range := by
    intro hc
    rw [call_eq]
    -- A draft in the range passes, so only what computes it can refuse.
    refine .bind (refusesWith_draftOf s c) fun d hd => ?_
    obtain ⟨t, ht⟩ := Draft.exists_check_iff.mpr (yields_draftOf hc s d hd).2
    rw [ht]
    exact .ok t

end Score

/-! ## Runs -/

/-- **The sources of scores.** -/
inductive Start where
  | zero (hard soft : Value)
  | of (hard soft : Value)
  | ofUninitialized (init hard soft : Value)
  | parse (text : Value) (hard soft : Option Value)
  | decode (nesting : Option Nat) (text : Value)

namespace Start

/-- The score of a source. -/
def score : Start → Except Fault Score
  | zero hard soft => Score.zeroOf hard soft
  | of hard soft => Score.ofSequences (.int 0) hard soft
  | ofUninitialized init hard soft => Score.ofSequences init hard soft
  | parse text hard soft => Score.parse text hard soft
  | decode nesting text => Snapshot.decode nesting text

/-- **The score that a run reaches**, if no call of it is refused. -/
def run (start : Start) (calls : List Call) : Except Fault Score := do
  let s ← start.score
  calls.foldlM Score.call s

end Start

/-- What every call preserves, a sequence of calls preserves. -/
theorem Score.yields_shape_calls (calls : List Call) (s : Score) :
    Yields (fun t => t.shape = s.shape) (calls.foldlM Score.call s) := by
  refine .foldlM (fun t c ht => ?_) calls rfl
  exact (t.call_sound c).preserved.mono fun u hu => hu.2.trans ht

/-- **Every score that a run reaches is well formed**: it has as many levels as the score that the
run starts from, all of them in the range, and so has whatever the next call makes of it. -/
theorem Start.run_sound (start : Start) (calls : List Call) {t : Score}
    (h : start.run calls = .ok t) :
    t.draft.WellFormed ∧ (∃ s, start.score = .ok s ∧ t.shape = s.shape) ∧ ∀ c, t.Sound c := by
  obtain ⟨s, hs, ht⟩ := bind_eq_ok_iff.mp h
  exact ⟨t.wellFormed_draft, ⟨s, hs, Score.yields_shape_calls calls s t ht⟩, t.call_sound⟩

/-- A run that meets both ends of the range: the least level is its own opposite, and an infinite
power stops at the greatest level. -/
theorem Start.run_sound_at_bounds :
    let start : Start := .of (.list [.int (-2147483648), .int 2147483647]) (.list [.int 5])
    let calls : List Call := [.withInit (.int (-3)), .negate, .power (.real (.infinite false))]
    let t : Score := ⟨Level.greatest, [Level.greatest, Level.greatest], [Level.greatest]⟩
    start.run calls = .ok t ∧ t.draft.WellFormed ∧
      (∃ s, start.score = .ok s ∧ t.shape = s.shape) ∧ ∀ c, t.Sound c := by
  intro start calls t
  have h : start.run calls = .ok t := rfl
  exact ⟨h, start.run_sound calls h⟩

end Bendable
