import Bendable.Level

/-!
# Scores

The quality of a solution: an init score, zero or negative while something is unassigned, and any
number of hard and of soft levels. A level of higher priority comes first, and higher is better on
each.

## Main definitions

* `Score`: an init score with its two groups of levels
* `Score.shape`: the numbers of hard and soft levels
* `Score.levels`: all levels in order of priority
* `Score.map`, `Score.zipWith`: level by level
* `Score.isFeasible`, `Score.isInitialized`
-/

namespace Bendable

/-- A group of levels. -/
inductive Group where
  | hard
  | soft
  deriving DecidableEq

/-- A score. -/
structure Score where
  init : Level
  hard : List Level
  soft : List Level
  deriving DecidableEq

namespace Score

/-- The levels of a group. -/
def group (s : Score) : Group → List Level
  | .hard => s.hard
  | .soft => s.soft

/-- The number of levels in each group. -/
def shape (s : Score) : Nat × Nat := (s.hard.length, s.soft.length)

/-- All levels in order of priority, the hard ones first. -/
def levels (s : Score) : List Level := s.hard ++ s.soft

/-- The score of zeros with the given numbers of levels. -/
def zero (hard soft : Nat) : Score := ⟨0, List.replicate hard 0, List.replicate soft 0⟩

/-! ## Level by level -/

/-- Applies a function to the init score and to every level. -/
def map (f : Level → Level) (s : Score) : Score := ⟨f s.init, s.hard.map f, s.soft.map f⟩

/-- Combines the init scores and the levels that stand in the same place. -/
def zipWith (f : Level → Level → Level) (s t : Score) : Score :=
  ⟨f s.init t.init, List.zipWith f s.hard t.hard, List.zipWith f s.soft t.soft⟩

@[simp] theorem shape_map (f : Level → Level) (s : Score) : (s.map f).shape = s.shape := by
  simp [shape, map]

/-- Scores of one shape combine to a score of that shape. -/
theorem shape_zipWith (f : Level → Level → Level) {s t : Score} (h : s.shape = t.shape) :
    (zipWith f s t).shape = s.shape := by
  simp only [shape, Prod.mk.injEq] at h
  simp [shape, zipWith, h.1, h.2]

@[simp] theorem shape_zero (hard soft : Nat) : (zero hard soft).shape = (hard, soft) := by
  simp [shape, zero]

/-! ## States of the solution -/

/-- Whether everything has been assigned. -/
def isInitialized (s : Score) : Bool := 0 ≤ s.init.val

/-- Whether everything has been assigned and no hard level is negative. -/
def isFeasible (s : Score) : Bool := s.isInitialized && s.hard.all (0 ≤ ·.val)

/-- The score with its init score cleared. -/
def toInitialized (s : Score) : Score := { s with init := 0 }

end Score

end Bendable
