import Bendable.Score.Build
import Bendable.Text.Separated

/-!
# Reading scores

Reads the canonical text of a score, and three looser spellings: a plus sign, leading zeros, and a
slash after the init score. Every piece between the brackets is a level, so blanks and digits of
other scripts are refused. The first piece that is no level is to blame.

## Main definitions

* `Level.read`: a level from one piece of a text
* `Score.read`: a score from a text
* `Score.parse`: a score from a value that should be a text, with the counts it should have
-/

namespace Bendable

/-- Why a text is refused: a part of it with the reason, or digits beyond the limit. -/
inductive Rejection where
  | segment (token : List Char) (reason : ParseReason)
  | tooManyDigits

/-- The fault of a rejected text. -/
def Rejection.fault (text : String) : Rejection → Fault
  | segment token reason => Fault.ofError (.parse ⟨text, String.ofList token, reason⟩)
  | tooManyDigits => .tooManyDigits

/-- The level that a piece of a text stands for: an optional sign and decimal digits. -/
def Level.read (place : Place) (piece : List Char) : Except Rejection Level :=
  match Numeral.ofSigned? piece with
  | none => .error (.segment piece (.notInteger place))
  | some n =>
    if Numeral.digitLimit < (Numeral.splitSign piece).2.length then .error .tooManyDigits
    else
      match Level.ofInt? n with
      | some a => .ok a
      | none => .error (.segment piece (.outOfRange place))

/-- The levels that pieces stand for; `index` is the place of the first piece in its group. -/
def Level.readAll (group : Group) :
    (index : Nat) → List (List Char) → Except Rejection (List Level)
  | _, [] => .ok []
  | index, piece :: rest => do
    let a ← Level.read (.level group index) piece
    let as ← readAll group (index + 1) rest
    .ok (a :: as)

namespace Score

/-- What stands between the hard and the soft levels. -/
def middle : List Char := ']' :: (Group.hard.label ++ ['/', '['])

/-- What stands after the soft levels. -/
def ending : List Char := ']' :: Group.soft.label

/-- The pieces of a group: none between empty brackets. -/
def pieces (body : List Char) : List (List Char) :=
  if body = [] then [] else Separated.splitAt '/' body

/-- Reads the init score; a text that starts with a bracket has none. The rest of the text
follows. -/
def readInit (text : List Char) : Except Rejection (Level × List Char) :=
  match text with
  | '[' :: _ => .ok (0, text)
  | _ =>
    match Separated.cutFirst? initLabel text with
    | none => .error (.segment text .missingStart)
    | some (piece, rest) => do
      let init ← Level.read .init piece
      match rest with
      | '/' :: rest => .ok (init, rest)
      | rest => .ok (init, rest)

/-- The texts between the brackets of the hard and of the soft levels. -/
def bodies (text : List Char) : Except Rejection (List Char × List Char) :=
  match text with
  | '[' :: rest =>
    match Separated.cutFirst? middle rest with
    | none => .error (.segment text .missingSeparator)
    | some (hard, rest) =>
      match Separated.stripEnd? ending rest with
      | none => .error (.segment text .missingEnd)
      | some soft => .ok (hard, soft)
  | _ => .error (.segment text .missingBracket)

/-- Reads a score. -/
def read (text : List Char) : Except Rejection Score := do
  let (init, rest) ← readInit text
  let (hard, soft) ← bodies rest
  let hard ← Level.readAll .hard 0 (pieces hard)
  let soft ← Level.readAll .soft 0 (pieces soft)
  .ok ⟨init, hard, soft⟩

/-- Refuses a group whose number of levels is not the expected one. -/
def checkCount (group : Group) (s : Score) : Option Value → Except Rejection Unit
  | none => .ok ()
  | some expected =>
    let actual := (s.group group).length
    if (Value.int actual).equals expected then .ok ()
    else .error (.segment group.label (.wrongCount group expected actual))

/-- Reads a score and checks the numbers of levels that are expected. -/
def readExpecting (hard soft : Option Value) (text : List Char) : Except Rejection Score := do
  let s ← read text
  checkCount .hard s hard
  checkCount .soft s soft
  .ok s

/-- The score that a text stands for, with the numbers of levels that are expected. -/
def parseText (hard soft : Option Value) (text : String) : Except Fault Score :=
  (readExpecting hard soft text.toList).mapError (Rejection.fault text)

/-- The score that a value stands for, if it is a text. Another value is quoted in the error. -/
def parse (v : Value) (hard soft : Option Value) : Except Fault Score :=
  match v with
  | .string text => parseText hard soft text
  | v =>
    if v.isWritable then
      Fault.raise (.parse ⟨String.ofList v.literal, "", .notText v.typeName⟩)
    else .error .tooManyDigits

end Score

end Bendable
