import Bendable.Text.Printable

/-!
# Quoted text

Text between quotation marks, on one line and in printable characters. The mark is the single
one, unless the text holds single marks and no double one. The mark and the backslash are written
after a backslash, the line controls by a letter, and other hidden characters by their code.

## Main definitions

* `Quoted.encode`: the quoted text
* `Quoted.escape`: one character inside a mark
-/

namespace Bendable.Quoted

/-- The single quotation mark. -/
def single : Char := '\x27'

/-- The last `width` hexadecimal digits of a number, the most significant first. -/
def hexDigits : (width : Nat) → Nat → List Char
  | 0, _ => []
  | width + 1, n => hexDigits width (n / 16) ++ [Nat.digitChar (n % 16)]

/-- A character by its code, in two, four or eight hexadecimal digits. -/
def code (c : Char) : List Char :=
  if c.toNat < 0x100 then '\\' :: 'x' :: hexDigits 2 c.toNat
  else if c.toNat < 0x10000 then '\\' :: 'u' :: hexDigits 4 c.toNat
  else '\\' :: 'U' :: hexDigits 8 c.toNat

/-- One character between two marks. -/
def escape (mark c : Char) : List Char :=
  if c = mark ∨ c = '\\' then ['\\', c]
  else if c = '\n' then ['\\', 'n']
  else if c = '\r' then ['\\', 'r']
  else if c = '\t' then ['\\', 't']
  else if isPrintable c then [c]
  else code c

/-- The mark for a text. -/
def mark (text : List Char) : Char :=
  if text.contains single && !text.contains '"' then '"' else single

/-- The quoted text. -/
def encode (text : List Char) : List Char :=
  mark text :: (text.flatMap (escape (mark text)) ++ [mark text])

/-- The quoted text of a string. -/
def quote (s : String) : String := String.ofList (encode s.toList)

end Bendable.Quoted
