import Bendable.Fault

/-!
# Diagnostics

A summary of a score: its texts, its counts, whether it is feasible, which hard levels are broken,
and a warning for each thing that is wrong.

## Main definitions

* `Diagnostics`: the summary
* `Diagnostics.ofScore`: the summary of a score
* `Diagnostics.toValue`: the summary as a document
-/

namespace Bendable

/-- A summary of a score. -/
structure Diagnostics where
  score : String
  short : String
  initScore : Int
  hardCount : Nat
  softCount : Nat
  feasible : Bool
  initialized : Bool
  brokenHardLevels : List Nat
  warnings : List String

namespace Diagnostics

/-- The indexes of the negative levels; `index` is that of the first one. -/
def negativeFrom : (index : Nat) → List Level → List Nat
  | _, [] => []
  | index, a :: rest =>
    if a.val < 0 then index :: negativeFrom (index + 1) rest else negativeFrom (index + 1) rest

/-- The warning about an init score. -/
def initWarning (s : Score) : String :=
  "Solution not initialized (init score " ++ intText s.init.val ++ ")"

/-- The warning about broken hard levels. -/
def brokenWarning (broken : List Nat) : String :=
  intText broken.length ++ " broken hard level(s): " ++
    String.intercalate ", " (broken.map fun (i : Nat) => intText i)

/-- The summary of a score. -/
def ofScore (s : Score) : Diagnostics :=
  let broken := negativeFrom 0 s.hard
  { score := toString s
    short := String.ofList s.short
    initScore := s.init.val
    hardCount := s.hard.length
    softCount := s.soft.length
    feasible := s.isFeasible
    initialized := s.isInitialized
    brokenHardLevels := broken
    warnings :=
      (if s.isInitialized then [] else [initWarning s]) ++
        if broken = [] then [] else [brokenWarning broken] }

/-- The summary as a document, its members in the order of the summary. -/
def toValue (d : Diagnostics) : Value :=
  .dict
    [("score", .string d.score), ("short", .string d.short), ("init_score", .int d.initScore),
      ("hard_levels_count", .int d.hardCount), ("soft_levels_count", .int d.softCount),
      ("feasible", .bool d.feasible), ("solution_initialized", .bool d.initialized),
      ("broken_hard_levels", .list (d.brokenHardLevels.map fun (i : Nat) => .int i)),
      ("warnings", .list (d.warnings.map .string))]

end Diagnostics

end Bendable
