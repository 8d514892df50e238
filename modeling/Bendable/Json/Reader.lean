import Bendable.Json.Error
import Bendable.Value

/-!
# Reading JSON

Reads one value from a text. Besides the standard form, the names of the special numbers are
read. A repeated member counts with its last value. Integers are exact; a numeral with a fraction
or an exponent is a binary64 number.

The interpreter under the reader limits two things: the digits of an integer that it converts, and
how deep its calls recur, of which each list or dictionary inside another takes one. Both limits are
parameters; a text that needs more is no problem of the text, and fails in a way of its own.

A reader takes the text from its place on and gives the value with the text after it. A failure
carries the text from the place of the problem on.

## Main definitions

* `Json.Limits`: what the interpreter limits
* `Json.readString`, `Json.readNumber`: the leaves
* `Json.readValue`: a value, by fuel
* `Json.read`: the value that a whole text stands for
-/

namespace Bendable.Json

/-- What a reader is limited to: the greatest number of digits of an integer, and the greatest
number of lists and dictionaries around another one. The outermost one has none around it. -/
structure Limits where
  digits : Option Nat := none
  nesting : Option Nat := none

/-- The limits where integers keep to the digit limit. -/
abbrev Limits.standard (nesting : Option Nat) : Limits := ⟨some Numeral.digitLimit, nesting⟩

/-- Why reading stops: a problem with the rest of the text from its place on, an integer with more
digits than the limit, or a list or dictionary inside more others than the limit. -/
inductive Stop where
  | problem (p : Problem) (rest : List Char)
  | tooManyDigits
  | tooDeep

/-- The blank characters between the tokens. -/
def isBlank (c : Char) : Bool := c == ' ' || c == '\t' || c == '\n' || c == '\r'

/-- A text without the blanks at its front. -/
def skipBlanks (text : List Char) : List Char := text.dropWhile isBlank

/-! ## Strings -/

/-- The value of a hexadecimal digit. -/
def hexValue? (c : Char) : Option Nat :=
  if '0' ≤ c ∧ c ≤ '9' then some (c.toNat - 48)
  else if 'a' ≤ c ∧ c ≤ 'f' then some (c.toNat - 87)
  else if 'A' ≤ c ∧ c ≤ 'F' then some (c.toNat - 55)
  else none

/-- The value of four hexadecimal digits. -/
def hexCode? (a b c d : Char) : Option Nat := do
  let a ← hexValue? a
  let b ← hexValue? b
  let c ← hexValue? c
  let d ← hexValue? d
  some (((a * 16 + b) * 16 + c) * 16 + d)

/-- The character that a letter after a backslash stands for. -/
def escaped? (c : Char) : Option Char :=
  match c with
  | '"' => some '"'
  | '\\' => some '\\'
  | '/' => some '/'
  | 'b' => some '\x08'
  | 'f' => some '\x0c'
  | 'n' => some '\n'
  | 'r' => some '\r'
  | 't' => some '\t'
  | _ => none

/-- Puts a code point in front of what a reader of code points read. -/
def prepend (code : Nat) (r : Except Stop (List Nat × List Char)) :
    Except Stop (List Nat × List Char) :=
  r.map fun (codes, rest) => (code :: codes, rest)

/-- Reads the code points of a string up to its closing quote. `whole` is the text from the
opening quote on, where an unclosed string is reported. -/
def readCodes (whole : List Char) : List Char → Except Stop (List Nat × List Char)
  | [] => .error (.problem .unterminatedString whole)
  | c :: rest =>
    if c = '"' then .ok ([], rest)
    else if c = '\\' then
      match rest with
      | [] => .error (.problem .unterminatedString whole)
      | letter :: after =>
        if letter = 'u' then
          match after with
          -- Four digits at the very end of the text are refused, like fewer digits.
          | a :: b :: c :: d :: next :: tail =>
            match hexCode? a b c d with
            | some code => prepend code (readCodes whole (next :: tail))
            | none => .error (.problem .invalidCodeEscape rest)
          | _ => .error (.problem .invalidCodeEscape rest)
        else
          match escaped? letter with
          | some e => prepend e.toNat (readCodes whole after)
          | none => .error (.problem .invalidEscape (c :: rest))
    else if c < ' ' then .error (.problem .controlCharacter (c :: rest))
    else prepend c.toNat (readCodes whole rest)

/-- Joins each pair of surrogates to the code point it stands for. -/
def joinSurrogates : List Nat → List Nat
  | high :: low :: rest =>
    if 0xd800 ≤ high ∧ high < 0xdc00 ∧ 0xdc00 ≤ low ∧ low < 0xe000 then
      (0x10000 + (high - 0xd800) * 0x400 + (low - 0xdc00)) :: joinSurrogates rest
    else high :: joinSurrogates (low :: rest)
  | codes => codes

/-- The character of a code point; a lone surrogate becomes the replacement character. -/
def charOfCode (code : Nat) : Char :=
  if 0xd800 ≤ code ∧ code < 0xe000 then '\ufffd' else Char.ofNat code

/-- Reads a string whose opening quote has been read; `whole` starts with that quote. -/
def readString (whole text : List Char) : Except Stop (String × List Char) :=
  (readCodes whole text).map fun (codes, rest) =>
    (String.ofList ((joinSurrogates codes).map charOfCode), rest)

/-! ## Numbers -/

/-- The digits of an exponent after its mark and an optional sign. -/
def splitExponent (text : List Char) : Option (Int × List Char) :=
  let (negative, rest) := Numeral.splitSign text
  let digits := rest.takeWhile Char.isDigit
  if digits = [] then none
  else some (Numeral.signed negative digits, rest.dropWhile Char.isDigit)

/-- Splits a fraction off: a point and at least one digit. -/
def splitFraction (text : List Char) : List Char × List Char :=
  match text with
  | '.' :: rest =>
    match rest.takeWhile Char.isDigit with
    | [] => ([], text)
    | digits => (digits, rest.dropWhile Char.isDigit)
  | _ => ([], text)

/-- Splits the whole part of a numeral off: a zero alone, or digits that start with another. -/
def splitWhole (text : List Char) : List Char × List Char :=
  match text with
  | '0' :: rest => (['0'], rest)
  | _ => (text.takeWhile Char.isDigit, text.dropWhile Char.isDigit)

/-- Reads a number. A point or an exponent mark that no digits follow is left in the text. -/
def readNumber (limit : Option Nat) (text : List Char) : Except Stop (Value × List Char) :=
  let (negative, rest) := match text with
    | '-' :: rest => (true, rest)
    | _ => (false, text)
  let (whole, rest) := splitWhole rest
  let (fraction, rest) := splitFraction rest
  -- An exponent mark without digits is no part of the number.
  let exponent := match rest with
    | mark :: tail => if mark = 'e' ∨ mark = 'E' then splitExponent tail else none
    | [] => none
  if whole = [] then .error (.problem .expectedValue text)
  else
    let digits := Numeral.value (whole ++ fraction)
    match exponent with
    | some (exponent, rest) =>
      .ok (.real (Binary64.ofDecimal negative digits (exponent - fraction.length)), rest)
    | none =>
      if fraction ≠ [] then
        .ok (.real (Binary64.ofDecimal negative digits (-(fraction.length : Int))), rest)
      -- The limit is on integers only: a real number may have any number of digits.
      else if limit.any (· < whole.length) then .error .tooManyDigits
      else .ok (.int (Numeral.signed negative whole), rest)

/-! ## Values -/

/-- Refuses a list or a dictionary with too many others around it. -/
def Limits.checkNesting (limits : Limits) (depth : Nat) : Except Stop Unit :=
  if limits.nesting.any (· < depth) then .error .tooDeep else .ok ()

/-- The words that stand for values. -/
def words : List (List Char × Value) :=
  [(['n', 'u', 'l', 'l'], .null), (['t', 'r', 'u', 'e'], .bool true),
    (['f', 'a', 'l', 's', 'e'], .bool false), (['N', 'a', 'N'], .real .nan),
    (['I', 'n', 'f', 'i', 'n', 'i', 't', 'y'], .real (.infinite false)),
    (['-', 'I', 'n', 'f', 'i', 'n', 'i', 't', 'y'], .real (.infinite true))]

/-- Reads a word or a number. -/
def readPlain (limit : Option Nat) (text : List Char) : Except Stop (Value × List Char) :=
  match words.find? fun (word, _) => word.isPrefixOf text with
  | some (word, v) => .ok (v, text.drop word.length)
  | none => readNumber limit text

mutual

/-- Reads a value inside as many lists and dictionaries as the depth says. -/
def readValue (limits : Limits) :
    (fuel depth : Nat) → List Char → Except Stop (Value × List Char)
  | 0, _, text => .error (.problem .expectedValue text)
  | fuel + 1, depth, text =>
    match text with
    | '"' :: rest => (readString text rest).map fun (s, rest) => (.string s, rest)
    -- The depth is checked at the opening mark, before anything behind it is looked at.
    | '[' :: rest => do
      limits.checkNesting depth
      match skipBlanks rest with
      | ']' :: rest => .ok (.list [], rest)
      | rest =>
        (readItems limits fuel (depth + 1) rest).map fun (items, rest) => (.list items, rest)
    | '\x7b' :: rest => do
      limits.checkNesting depth
      match skipBlanks rest with
      | '\x7d' :: rest => .ok (.dict [], rest)
      | rest =>
        (readMembers limits fuel (depth + 1) rest).map fun (members, rest) =>
          (.dict (Value.collect members), rest)
    | _ => readPlain limits.digits text

/-- Reads the items of a list up to its closing bracket; the text starts with an item. -/
def readItems (limits : Limits) :
    (fuel depth : Nat) → List Char → Except Stop (List Value × List Char)
  | 0, _, text => .error (.problem .expectedValue text)
  | fuel + 1, depth, text => do
    let (v, rest) ← readValue limits fuel depth text
    match skipBlanks rest with
    | ']' :: rest => .ok ([v], rest)
    | ',' :: rest =>
      let (items, rest) ← readItems limits fuel depth (skipBlanks rest)
      .ok (v :: items, rest)
    | rest => .error (.problem .expectedComma rest)

/-- Reads the members of a dictionary up to its closing brace; the text starts with a name. -/
def readMembers (limits : Limits) :
    (fuel depth : Nat) → List Char → Except Stop (List (String × Value) × List Char)
  | 0, _, text => .error (.problem .expectedValue text)
  | fuel + 1, depth, text =>
    match text with
    | '"' :: rest => do
      let (name, rest) ← readString text rest
      match skipBlanks rest with
      | ':' :: rest =>
        let (v, rest) ← readValue limits fuel depth (skipBlanks rest)
        match skipBlanks rest with
        | '\x7d' :: rest => .ok ([(name, v)], rest)
        | ',' :: rest =>
          let (members, rest) ← readMembers limits fuel depth (skipBlanks rest)
          .ok ((name, v) :: members, rest)
        | rest => .error (.problem .expectedComma rest)
      | rest => .error (.problem .expectedColon rest)
    | _ => .error (.problem .expectedName text)

end

/-! ## Documents -/

/-- Reads the value of a whole text, with blanks around it. Each character feeds two steps: one
opens a value and one an item or member in it. -/
def readDocument (limits : Limits) (text : List Char) : Except Stop Value :=
  if text.head? = some '\ufeff' then .error (.problem .byteOrderMark text)
  else do
    let (v, rest) ← readValue limits (2 * text.length + 2) 0 (skipBlanks text)
    match skipBlanks rest with
    | [] => .ok v
    | rest => .error (.problem .extraData rest)

/-- Why no value is read from a text. -/
inductive Failure where
  | invalid (e : SyntaxError)
  | tooManyDigits
  | tooDeep

/-- The failure of a stop in a text. -/
def Stop.failure (text : List Char) : Stop → Failure
  | problem p rest => .invalid ⟨p, text.take (text.length - rest.length)⟩
  | tooManyDigits => .tooManyDigits
  | tooDeep => .tooDeep

/-- The value that a text stands for. -/
def read (limits : Limits) (text : List Char) : Except Failure Value :=
  (readDocument limits text).mapError (Stop.failure text)

end Bendable.Json
