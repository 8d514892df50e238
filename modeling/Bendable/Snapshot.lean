import Bendable.Score.Reader
import Bendable.Json.Reader
import Bendable.Json.Writer
import Bendable.Digest.Sha256

/-!
# Snapshots

A score is stored as a JSON object with its canonical text, the numbers of its levels and the kind
of score. Reading one back is strict: the four fields and no others, each of its type, and counts
that agree with the text. How deep the text may nest is up to the interpreter, and a parameter; a
snapshot has a single dictionary, which any nesting allows.

## Main definitions

* `Snapshot.encode`: the snapshot of a score
* `Snapshot.decode`: the score of a snapshot
* `Snapshot.digest`: the SHA-256 digest of a snapshot
-/

namespace Bendable.Snapshot

/-- The kind of score that a snapshot names. -/
def kind : String := "bendable"

/-- The fields of a snapshot, in ascending order. -/
def fields : List String := ["hard_levels_count", "score", "soft_levels_count", "type"]

/-! ## Writing -/

/-- The members of the snapshot of a score, in ascending order of their names. -/
def members (s : Score) : List (String × Value) :=
  [("hard_levels_count", .int s.hard.length), ("score", .string (toString s)),
    ("soft_levels_count", .int s.soft.length), ("type", .string kind)]

/-- The snapshot of a score. -/
def encode (s : Score) : List Char := Json.compact (.dict (members s))

/-- The digest of the snapshot of a score. -/
def digest (s : Score) : List Char :=
  Sha256.digest (String.ofList (encode s)).toUTF8.data.toList

/-- The score in an operand that is to be stored. -/
def storable : Operand → Except Fault Score
  | .score s => .ok s
  | .value v => Fault.raise (.encode ⟨v.typeName⟩)

/-! ## Reading -/

/-- Refuses with a decode error. -/
def refuse {α : Type} (e : DecodeError) : Except Fault α := Fault.raise (.decode e)

/-- Refuses members that are not exactly the fields of a snapshot. -/
def checkFields (members : List (String × Value)) : Except Fault Unit :=
  let names := Value.names members
  let missing := fields.filter fun name => !names.contains name
  let unknown := names.filter fun name => !fields.contains name
  if missing ≠ [] then refuse (.missingFields missing)
  else if unknown ≠ [] then refuse (.unknownFields (unknown.mergeSort fun a b => decide (a ≤ b)))
  else .ok ()

/-- The value of a field, null if it is missing. -/
def field (members : List (String × Value)) (name : String) : Value :=
  (members.lookup name).getD .null

/-- Refuses a value of the type field that is not the kind of score. -/
def checkKind : Value → Except Fault Unit
  | .string s => if s = kind then .ok () else refuse (.unsupportedType (.string s))
  | v => refuse (.unsupportedType v)

/-- Refuses a level count that is not an integer from zero up. -/
def checkCount (name : String) : Value → Except Fault Unit
  | .int n => if n < 0 then refuse (.negativeCount name n) else .ok ()
  | v => refuse (.countType name v.typeName)

/-- The score of a text with the given level counts. A parse error is reported as a decode
error. -/
def scoreOfField (hard soft : Value) : Value → Except Fault Score
  | .string text =>
    match Score.parseText (some hard) (some soft) text with
    | .error (.score (.parse e)) => refuse (.invalidScore e)
    | r => r
  | v => refuse (.scoreType v.typeName)

/-- The score of the members of a snapshot. -/
def ofMembers (members : List (String × Value)) : Except Fault Score := do
  checkFields members
  checkKind (field members "type")
  let hard := field members "hard_levels_count"
  let soft := field members "soft_levels_count"
  checkCount "hard_levels_count" hard
  checkCount "soft_levels_count" soft
  scoreOfField hard soft (field members "score")

/-- The score of a snapshot that has been read. -/
def ofValue : Value → Except Fault Score
  | .dict members => ofMembers members
  | v => refuse (.notObject v.typeName)

/-- The score of the text of a snapshot. Only a problem of the text becomes a decode error. -/
def decodeText (nesting : Option Nat) (text : List Char) : Except Fault Score :=
  match Json.read (.standard nesting) text with
  | .ok v => ofValue v
  | .error (.invalid e) => refuse (.invalidJson e)
  | .error .tooManyDigits => .error .tooManyDigits
  | .error .tooDeep => .error .tooDeep

/-- The score of a snapshot, if it is a text. -/
def decode (nesting : Option Nat) : Value → Except Fault Score
  | .string text => decodeText nesting text.toList
  | v => refuse (.notText v.typeName)

end Bendable.Snapshot
