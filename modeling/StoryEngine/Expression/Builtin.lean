import StoryEngine.Expression.Cursor
import StoryEngine.Expression.Query
import StoryEngine.Expression.Value
import StoryEngine.Number.Basic

/-!
# Built-in functions

The closed set of functions that expressions can call. A function takes any number of arguments:
those that it lacks have neutral defaults and those in excess are ignored.

Specification: `SPEC_FULL.md` §4.1 (builtin functions).
-/

namespace StoryEngine.Expression

/-- A built-in function. -/
inductive Builtin where
  | itemCount
  | hasStatus
  | randi
  | min
  | max
  | floor
  | clip
  | eventOccurred
  | getAttributeValue
deriving DecidableEq, Repr

namespace Builtin

/-- The function with the given name. -/
def ofName? : String → Option Builtin
  | "itemCount" => some itemCount
  | "hasStatus" => some hasStatus
  | "randi" => some randi
  | "min" => some min
  | "max" => some max
  | "floor" => some floor
  | "clip" => some clip
  | "eventOccurred" => some eventOccurred
  | "getAttributeValue" => some getAttributeValue
  | _ => none

/-- The upper end of a random integer whose range is not given. -/
def defaultRange : Float := 10

/-- The number of the argument at an index, if there is one. -/
def number? (args : List Value) (index : Nat) : Step (Option Float) :=
  match args[index]? with
  | some value => some <$> Step.ofExcept value.toNumber
  | none => pure none

/-- The smaller or the larger of two numbers, the only one given, or zero. -/
def choose (pick : Float → Float → Float) : Option Float → Option Float → Float
  | some x, some y => pick x y
  | some x, none => x
  | none, _ => 0

/-- The value of a function for evaluated arguments. Specification: §4.1 (builtin functions). -/
def apply (query : Query) (args : List Value) : Builtin → Step Value
  | itemCount => pure (.number (Number.ofInt64 (name?.elim 0 query.count)))
  | hasStatus => pure (.bool (name?.elim false query.isActive))
  | randi => do
      let range := (← number? args 0).elim defaultRange Number.truncate
      return .number (Number.truncate ((← Step.draw) * range))
  | min => do
      let x ← number? args 0
      let y ← number? args 1
      return .number (choose Number.smaller x y)
  | max => do
      let x ← number? args 0
      let y ← number? args 1
      return .number (choose Number.larger x y)
  | floor => return .number ((← number? args 0).elim 0 Number.truncate)
  | clip => do
      let x ← number? args 0
      let low ← number? args 1
      let high ← number? args 2
      match x, low, high with
      | some x, some low, some high => return .number (Number.larger low (Number.smaller high x))
      | some x, _, _ => return .number x
      | none, _, _ => return .number 0
  | eventOccurred => pure (.bool (name?.elim false query.hasOccurred))
  | getAttributeValue => pure (.number (name?.elim 0 query.value))
where
  /-- The text of the first argument, if there is one. -/
  name? : Option String := args.head?.map Value.toText

end Builtin

end StoryEngine.Expression
