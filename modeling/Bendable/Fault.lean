import Bendable.Operand
import Bendable.Json.Error

/-!
# Faults

Why an operation refuses. A `ScoreError` is about scores and has a message; the other faults are
about the numbers, texts and counts that an operation was handed.

## Main definitions

* `RangeError`, `IndexError`, `ShapeError`, `ParseError`, `EncodeError`, `DecodeError`: the kinds of
  score errors
* `ScoreError.message`: the wording of all of them
* `Fault`: every reason to refuse
* `Fault.raise`: a score error becomes a fault of its own if its message needs an integer
  beyond the digit limit
-/

namespace Bendable

/-! ## Score errors -/

/-- A value is no level. -/
inductive RangeError where
  | notInteger (name typeName : String)
  | outOfRange (name : String) (n : Int)

/-- A value is no index of a level. -/
inductive IndexError where
  | notInteger (name typeName : String)
  | outOfRange (name : String) (n : Int) (size : Nat)

/-- Two operands do not combine. -/
structure ShapeError where
  left : Operand
  right : Operand

/-- Where in the text of a score a level stands. -/
inductive Place where
  | init
  | level (group : Group) (index : Nat)
  deriving DecidableEq

/-- Why a text is no score. -/
inductive ParseReason where
  | notText (typeName : String)
  | missingStart
  | missingBracket
  | missingSeparator
  | missingEnd
  | notInteger (place : Place)
  | outOfRange (place : Place)
  | wrongCount (group : Group) (expected : Value) (actual : Nat)

/-- A text is no score: the text, the part to blame and the reason. -/
structure ParseError where
  text : String
  token : String
  reason : ParseReason

/-- A value cannot be stored, because it is no score. -/
structure EncodeError where
  typeName : String

/-- A stored score cannot be read back. -/
inductive DecodeError where
  | invalidJson (e : Json.SyntaxError)
  | notText (typeName : String)
  | notObject (typeName : String)
  | missingFields (names : List String)
  | unknownFields (names : List String)
  | unsupportedType (v : Value)
  | countType (name typeName : String)
  | negativeCount (name : String) (n : Int)
  | scoreType (typeName : String)
  | invalidScore (e : ParseError)

/-- An error about scores. -/
inductive ScoreError where
  | initState (s : Score)
  | index (e : IndexError)
  | range (e : RangeError)
  | shape (e : ShapeError)
  | parse (e : ParseError)
  | encode (e : EncodeError)
  | decode (e : DecodeError)

/-! ## Wording -/

/-- An integer in a message. -/
def intText (n : Int) : String := String.ofList (Numeral.ofInt n)

/-- The wording of a range error. -/
def RangeError.message : RangeError → String
  | notInteger name typeName => name ++ " must be int, got " ++ typeName
  | outOfRange name n => name ++ " out of int32 range: " ++ intText n

/-- The wording of an index error. -/
def IndexError.message : IndexError → String
  | notInteger name typeName => name ++ " must be int, got " ++ typeName
  | outOfRange name n size =>
    name ++ " (" ++ intText n ++ ") out of range: expected 0 <= " ++ name ++ " < " ++ intText size

/-- A count that differs between two scores. -/
def ShapeError.countMessage (a b : Operand) (name : String) (m n : Nat) : String :=
  "The score (" ++ a.display ++ ") with " ++ name ++ " (" ++ intText m ++
    ") is not compatible with the other score (" ++ b.display ++ ") with " ++ name ++
    " (" ++ intText n ++ ")"

/-- The wording of a shape error: the types if one operand is no score, the hard counts if they
differ, otherwise the soft counts. -/
def ShapeError.message (e : ShapeError) : String :=
  match e.left.shape, e.right.shape with
  | some (h, s), some (h', s') =>
    if h = h' then countMessage e.left e.right "soft_levels_count" s s'
    else countMessage e.left e.right "hard_levels_count" h h'
  | _, _ =>
    "The score (" ++ e.left.display ++ ") of type " ++ e.left.typeName ++
      " is not compatible with the other score (" ++ e.right.display ++ ") of type " ++
      e.right.typeName

/-- The label of a group as a string. -/
def Group.name (g : Group) : String := String.ofList g.label

/-- The name of a place. -/
def Place.name : Place → String
  | init => "init score"
  | level group index => group.name ++ " level " ++ intText index

/-- The wording of a reason. -/
def ParseReason.message : ParseReason → String
  | notText typeName => "expected str, got " ++ typeName
  | missingStart => "must start with \x27[\x27 or an init score prefix \x27<int>init\x27"
  | missingBracket => "hard levels must start with \x27[\x27"
  | missingSeparator => "missing \x27]hard/[\x27"
  | missingEnd => "must end with \x27]soft\x27"
  | notInteger place => place.name ++ " is not a valid integer"
  | outOfRange place => place.name ++ " is out of int32 range"
  | wrongCount group expected actual =>
    "expected " ++ expected.display ++ " " ++ group.name ++ " level(s), got " ++ intText actual

/-- The wording of a parse error. -/
def ParseError.message (e : ParseError) : String :=
  "The score string (" ++ Quoted.quote e.text ++ ") for " ++ Score.typeName ++
    " has an invalid segment (" ++ Quoted.quote e.token ++ "): " ++ e.reason.message

/-- The wording of an encode error. -/
def EncodeError.message (e : EncodeError) : String :=
  "Expected " ++ Score.typeName ++ ", got " ++ e.typeName

/-- Names as a written list. -/
def nameList (names : List String) : String :=
  (Value.list (names.map Value.string)).display

/-- The wording of a decode error. -/
def DecodeError.message : DecodeError → String
  | invalidJson e => "Invalid JSON: " ++ e.message
  | notText typeName =>
    "Invalid JSON: the JSON object must be str, bytes or bytearray, not " ++ typeName
  | notObject typeName => "Top-level JSON must be object, got " ++ typeName
  | missingFields names => "Missing fields in score snapshot: " ++ nameList names
  | unknownFields names => "Unknown fields in score snapshot: " ++ nameList names
  | unsupportedType v =>
    "Unsupported score type " ++ String.ofList v.literal ++ ", expected \x27bendable\x27"
  | countType name typeName =>
    "Field \x27" ++ name ++ "\x27 must be int, got " ++ typeName
  | negativeCount name n => "Field \x27" ++ name ++ "\x27 must be >= 0, got " ++ intText n
  | scoreType typeName => "\x27score\x27 must be string, got " ++ typeName
  | invalidScore e => "Invalid score in snapshot: " ++ e.message

/-- The wording of a score error. -/
def ScoreError.message : ScoreError → String
  | initState s =>
    "The score (" ++ toString s ++ ") was already initialized with an init score (" ++
      intText s.init.val ++ ")"
  | index e => e.message
  | range e => e.message
  | shape e => e.message
  | parse e => e.message
  | encode e => e.message
  | decode e => e.message

/-! ## Faults -/

/-- The level counts of a layout are no counts. -/
inductive LayoutError where
  | notInteger (name typeName : String)
  | negative (hard soft : Int)

/-- The wording of a layout error. -/
def LayoutError.message : LayoutError → String
  | notInteger name typeName => name ++ " must be int, got " ++ typeName
  | negative hard soft =>
    "Level counts must be >= 0, got hard=" ++ intText hard ++ " soft=" ++ intText soft

/-- A reason to refuse. -/
inductive Fault where
  /-- An error about scores. -/
  | score (e : ScoreError)
  /-- The counts of a layout are wrong. -/
  | layout (e : LayoutError)
  /-- An operand or argument is of a type that the operation does not take. -/
  | wrongType
  /-- A text is no number. -/
  | notNumber
  /-- An integer has too many digits to be read or written. -/
  | tooManyDigits
  /-- A text nests deeper than it can be read. -/
  | tooDeep
  /-- A number or a count is too great. -/
  | overflow
  /-- There is nothing to choose from. -/
  | empty

/-- The wording of a fault that has one. -/
def Fault.message? : Fault → Option String
  | score e => some e.message
  | layout e => some e.message
  | tooManyDigits =>
    some ("Exceeds the limit (" ++ intText Numeral.digitLimit ++ " digits) for integer string " ++
      "conversion; use sys.set_int_max_str_digits() to increase the limit")
  | _ => none

/-- Whether the integers that a message needs keep to the digit limit. -/
def ScoreError.isWritable : ScoreError → Bool
  | range (.outOfRange _ n) => Numeral.isWritable n
  | index (.outOfRange _ n _) => Numeral.isWritable n
  | shape e => e.left.isWritable && e.right.isWritable
  | parse ⟨_, _, .wrongCount _ expected _⟩ => expected.isWritable
  | _ => true

/-- A score error as a fault. Where its message would need an integer beyond the digit limit, the
fault is that integer. -/
def Fault.ofError (e : ScoreError) : Fault := if e.isWritable then .score e else .tooManyDigits

/-- The text of an operand, under the same digit limit. -/
def Operand.written (a : Operand) : Except Fault String :=
  if a.isWritable then .ok a.display else .error .tooManyDigits

/-- Refuses with a score error. -/
def Fault.raise {α : Type} (e : ScoreError) : Except Fault α := .error (ofError e)

/-- Refuses with a layout error, under the same digit limit. -/
def Fault.raiseLayout {α : Type} : LayoutError → Except Fault α
  | .negative hard soft =>
    if Numeral.isWritable hard && Numeral.isWritable soft then
      .error (.layout (.negative hard soft))
    else .error .tooManyDigits
  | e => .error (.layout e)

end Bendable
