/-!
# JSON values

The data format of definitions and saved games. A number written as an integer is kept apart
from any other number, because fields for integers take only the former. Readers are partial
functions: a value of the wrong kind has no reading, and `null` is of no kind.

Specification: `SPEC_FULL.md` §10.5 (event definitions, snapshots of the store).
-/

namespace StoryEngine

/-- A JSON value. The members of an object have distinct keys. -/
inductive Json where
  | null
  | bool (b : Bool)
  | integer (n : Int)
  | decimal (x : Float)
  | string (s : String)
  | array (items : List Json)
  | object (members : List (String × Json))

namespace Json

/-- The truth value of a truth value. -/
def bool? : Json → Option Bool
  | bool b => some b
  | _ => none

/-- The text of a string. -/
def string? : Json → Option String
  | string s => some s
  | _ => none

/-- The float nearest to a number of either form. -/
def float? : Json → Option Float
  | integer n => some (Float.ofInt n)
  | decimal x => some x
  | _ => none

/-- The integer of a number in integer form that lies from `low` to `high`. -/
def integer? (low high : Int) : Json → Option Int
  | integer n => if low ≤ n ∧ n ≤ high then some n else none
  | _ => none

/-- A 32-bit integer. -/
def int32? (j : Json) : Option Int32 :=
  (j.integer? Int32.minValue.toInt Int32.maxValue.toInt).map Int32.ofInt

/-- A 64-bit integer. -/
def int64? (j : Json) : Option Int64 :=
  (j.integer? Int64.minValue.toInt Int64.maxValue.toInt).map Int64.ofInt

/-- A natural number below `2 ^ 64`. -/
def nat64? (j : Json) : Option Nat :=
  (j.integer? 0 (UInt64.size - 1)).map Int.toNat

/-- The items of an array, each read by `read`. -/
def list? {α : Type} (read : Json → Option α) : Json → Option (List α)
  | array items => items.mapM read
  | _ => none

/-- The members of an object, the value of each read by `read`. -/
def members? {α : Type} (read : Json → Option α) : Json → Option (List (String × α))
  | object members => members.mapM fun (key, value) ↦ (read value).map fun a ↦ (key, a)
  | _ => none

/-- The object that a value stands for where a record with the given fields is expected: an array
has the values of the first fields, in their order. Any other value stands for itself. -/
def record (fields : List String) : Json → Json
  | array items =>
      if items.length ≤ fields.length then object (fields.zip items) else array items
  | j => j

/-- A member that an object must have. -/
def field? {α : Type} (key : String) (read : Json → Option α) (j : Json) : Option α :=
  match j with
  | object members => (members.lookup key).bind read
  | _ => none

/-- A member that stands at its default when an object lacks it. -/
def fieldOr? {α : Type} (key : String) (default : α) (read : Json → Option α) (j : Json) :
    Option α :=
  match j with
  | object members =>
      match members.lookup key with
      | some value => read value
      | none => some default
  | _ => none

/-- How a float is written: JSON has no form for infinities and for what is no number, and
`null` stands for them. -/
def ofFloat (x : Float) : Json :=
  if x.isFinite then decimal x else null

end Json

end StoryEngine
