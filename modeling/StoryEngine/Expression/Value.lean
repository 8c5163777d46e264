import StoryEngine.Expression.Failure
import StoryEngine.Number.Numeral
import StoryEngine.Text.Blank

/-!
# Expression values

The values of the expression language and their readings as a truth value, a number and a text.

Specification: `SPEC_FULL.md` §4.1 (operator semantics: numeric coercion, truthiness, raw equality).
-/

namespace StoryEngine.Expression

/-- The value of an expression. -/
inductive Value where
  | number (x : Float)
  | bool (b : Bool)
  | text (s : String)
deriving DecidableEq

namespace Value

/-- Zero, `false` and the empty text count as false, everything else as true. Specification: §4.1
(truthiness). -/
def isTrue : Value → Bool
  | number x => x != 0
  | bool b => b
  | text s => !s.isEmpty

/-- The value as a number: `true` is one, `false` is zero, and a text must be a numeral, blank
characters around it aside. -/
def toNumber : Value → Except Failure Float
  | number x => .ok x
  | bool b => .ok (if b then 1 else 0)
  | text s =>
      match Number.ofNumeral? (Text.trim s.toList) with
      | some x => .ok x
      | none => .error (.notANumber s)

/-- The number of a number, and nothing of other values. -/
def number? : Value → Option Float
  | number x => some x
  | _ => none

/-- The truth value of a truth value, and nothing of other values. -/
def bool? : Value → Option Bool
  | bool b => some b
  | _ => none

/-- The value as a text. -/
def toText : Value → String
  | number x => Number.text x
  | bool b => if b then "true" else "false"
  | text s => s

/-- Equality in the language: only values of one kind can be equal, and numbers are compared as
numbers. Specification: §4.1 (`===`). -/
def same : Value → Value → Bool
  | number x, number y => x == y
  | bool a, bool b => a == b
  | text s, text t => s == t
  | _, _ => false

end Value

end StoryEngine.Expression
