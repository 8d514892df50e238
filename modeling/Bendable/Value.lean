import Bendable.Binary64.Decimal

/-!
# Loose values

What a caller or a JSON document hands in, before it is known to be a level, a count or a text.

## Main definitions

* `Value`: the loose values, with the members of a dictionary in order
* `Value.typeName`: the name of a value's type in messages
* `Value.put`: sets a member of a dictionary
* `Value.equals`: equality across the numeric types
-/

namespace Bendable

/-- A loose value. -/
inductive Value where
  | null
  | bool (b : Bool)
  | int (n : Int)
  | real (x : Binary64)
  | string (s : String)
  | list (items : List Value)
  | dict (members : List (String × Value))

namespace Value

/-- The name of the type. -/
def typeName : Value → String
  | null => "NoneType"
  | bool _ => "bool"
  | int _ => "int"
  | real _ => "float"
  | string _ => "str"
  | list _ => "list"
  | dict _ => "dict"

/-! ## Members -/

/-- The names of members, in order. -/
def names (members : List (String × Value)) : List String := members.map Prod.fst

/-- The members with the value of `name` set: in its place if it is there, otherwise at the
end. -/
def put (name : String) (value : Value) : List (String × Value) → List (String × Value)
  | [] => [(name, value)]
  | member :: rest =>
    if member.1 = name then (name, value) :: rest else member :: put name value rest

/-- Members without repeated names: the last value counts, in the place of the first. -/
def collect (members : List (String × Value)) : List (String × Value) :=
  members.foldl (fun acc member => put member.1 member.2 acc) []

/-! ## Equality -/

/-- The number that a value stands for, where it is an integer; a boolean is zero or one. -/
def integer? : Value → Option Int
  | bool b => some (if b then 1 else 0)
  | int n => some n
  | _ => none

/-- Whether an integer is exactly the number `x`. -/
def equalsReal (n : Int) : Binary64 → Bool
  | .finite negative x =>
    Binary64.signedUnits negative x == n * Magnitude.perOne
  | _ => false

/-- Whether two numbers are equal: both zeros are, and a NaN equals nothing. -/
def equalReals : Binary64 → Binary64 → Bool
  | .infinite s, .infinite t => s == t
  | .finite s x, .finite t y => Binary64.signedUnits s x == Binary64.signedUnits t y
  | _, _ => false

/-- Whether two scalar values are equal; numbers of all types are compared by value. Lists and
dictionaries are equal to no scalar. -/
def equals (v w : Value) : Bool :=
  match v, w with
  | null, null => true
  | string s, string t => s == t
  | real x, real y => equalReals x y
  | real x, w => w.integer?.any fun n => equalsReal n x
  | v, real y => v.integer?.any fun n => equalsReal n y
  | v, w => v.integer?.isSome && v.integer? == w.integer?

/-- Whether a value can be a member of a set: lists and dictionaries cannot. -/
def isScalar : Value → Bool
  | list _ => false
  | dict _ => false
  | _ => true

end Value

end Bendable
