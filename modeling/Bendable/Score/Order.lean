import Bendable.Fault

/-!
# Combining and ordering scores

Sums, differences and comparisons take scores of one shape. Scores are ordered by their init
scores, then by their hard and then by their soft levels; the first difference decides. Equality
takes scores of any shape.

## Main definitions

* `Operand.validate`: refuses operands that are not scores of one shape
* `Operand.matching`: the scores in two operands, if they have one shape
* `Score.add`, `Score.subtract`, `Score.negate`: level by level, wrapping around
* `Score.order`: the order of two scores of one shape
* `Score.compare`: the order, refused for scores of different shapes
* `Score.sort`: a list of scores in ascending order, with its ends
-/

namespace Bendable

/-- Refuses operands that are not scores of one shape. -/
def Operand.validate (a b : Operand) : Except Fault Unit :=
  if a.isCompatible b then .ok () else Fault.raise (.shape ⟨a, b⟩)

/-- The scores in two operands, refused unless they have one shape. -/
def Operand.matching : Operand → Operand → Except Fault (Score × Score)
  | .score s, .score t => do
    (Operand.score s).validate (.score t)
    .ok (s, t)
  | a, b => Fault.raise (.shape ⟨a, b⟩)

namespace Level

/-- The sum, wrapped around. -/
def add (a b : Level) : Level := wrap (a.val + b.val)

/-- The difference, wrapped around. -/
def subtract (a b : Level) : Level := wrap (a.val - b.val)

/-- The level of opposite sign, wrapped around. -/
def negate (a : Level) : Level := wrap (-a.val)

end Level

namespace Score

/-- Refuses scores of different shapes. -/
def validate (s t : Score) : Except Fault Unit := (Operand.score s).validate (.score t)

/-! ## Sums -/

/-- The sum of two scores of one shape. -/
def add (s t : Score) : Except Fault Score := do
  s.validate t
  .ok (zipWith Level.add s t)

/-- The difference of two scores of one shape. -/
def subtract (s t : Score) : Except Fault Score := do
  s.validate t
  .ok (zipWith Level.subtract s t)

/-- The score of opposite sign. -/
def negate (s : Score) : Score := s.map Level.negate

/-! ## Order -/

/-- The order of two lists of levels: the first difference decides. -/
def orderLevels : List Level → List Level → Ordering
  | a :: as, b :: bs =>
    if a = b then orderLevels as bs else if a.val < b.val then .lt else .gt
  | _, _ => .eq

/-- The order of two scores of one shape. -/
def order (s t : Score) : Ordering :=
  (orderLevels [s.init] [t.init]).then
    ((orderLevels s.hard t.hard).then (orderLevels s.soft t.soft))

/-- The order of two scores, refused if their shapes differ. -/
def compare (s t : Score) : Except Fault Ordering := do
  s.validate t
  .ok (s.order t)

/-! ## Sorting -/

/-- Whether a score is not greater than another one of its shape. -/
def le (s t : Score) : Bool := s.order t != .gt

/-- Refuses a list in which a score has another shape than the one before it. -/
def validateAll : List Score → Except Fault Unit
  | s :: t :: rest => do
    t.validate s
    validateAll (t :: rest)
  | _ => .ok ()

/-- A list of scores in ascending order, with its first and its last score. -/
structure Sorted where
  scores : List Score
  least : Score
  greatest : Score

/-- Sorts scores of one shape, at least one. -/
def sort (scores : List Score) : Except Fault Sorted := do
  validateAll scores
  let sorted := scores.mergeSort le
  match sorted.head?, sorted.getLast? with
  | some least, some greatest => .ok ⟨sorted, least, greatest⟩
  | _, _ => .error .empty

end Score

end Bendable
