import Bendable.Score.Build

/-!
# Single levels

Levels are addressed inside their group or in the sequence of all levels. An index is an integer,
not a boolean, from zero up; it never counts from the end.

## Main definitions

* `Value.index`: the index that a value is
* `Score.hardLevel`, `Score.softLevel`, `Score.level`: the level at an index
* `Score.withInit`: sets an init score that is not set yet
-/

namespace Bendable

/-- The index that a value is among `size` places; messages call it `name`. -/
def Value.index (name : String) (size : Nat) : Value → Except Fault (Fin size)
  | .int n =>
    if h : 0 ≤ n ∧ n < size then .ok ⟨n.toNat, (Int.toNat_lt h.1).mpr h.2⟩
    else Fault.raise (.index (.outOfRange name n size))
  | v => Fault.raise (.index (.notInteger name v.typeName))

namespace Score

/-- The level of a list at the index that a value is. -/
def levelAt (name : String) (levels : List Level) (v : Value) : Except Fault Level := do
  let i ← v.index name levels.length
  .ok (levels.get i)

/-- The hard level at an index. -/
def hardLevel (s : Score) (v : Value) : Except Fault Level := levelAt "hard_level" s.hard v

/-- The soft level at an index. -/
def softLevel (s : Score) (v : Value) : Except Fault Level := levelAt "soft_level" s.soft v

/-- The level at an index among all levels: the hard levels come first, and the soft levels are
counted on behind them. -/
def level (s : Score) (v : Value) : Except Fault Level := do
  let i ← v.index "level" (s.hard.length + s.soft.length)
  if h : i < s.hard.length then .ok (s.hard.get ⟨i, h⟩)
  else .ok (s.soft.get ⟨i - s.hard.length, by omega⟩)

/-- Sets the init score of a score that has none. -/
def withInit (s : Score) (v : Value) : Except Fault Score :=
  if s.init ≠ 0 then Fault.raise (.initState s)
  else do
    let init ← Level.ofValue "init_score" v
    .ok { s with init := init }

end Score

end Bendable
