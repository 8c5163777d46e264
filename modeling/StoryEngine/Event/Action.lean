import StoryEngine.Param.Json

/-!
# Actions

One step of an event: the name of the handler that performs it, and parameters that only the
handler understands.

Specification: `SPEC_FULL.md` §3 (action) and §10.5 (event definitions).
-/

namespace StoryEngine

/-- A step of an event. -/
structure Action where
  id : String
  params : Params := []

namespace Action

/-- The action with one more parameter, in place of any for the same key. -/
def setParam (a : Action) (key : String) (value : Param) : Action :=
  { a with params := a.params.insert key value }

/-- The parameter for a key. -/
def param? (a : Action) (key : String) : Option Param :=
  a.params.find? key

/-- The number for a key, or a default if there is none or it is no number. -/
def number (a : Action) (key : String) (default : Float) : Float :=
  ((a.param? key).bind Param.number?).getD default

/-- The text for a key, or a default if there is none or it is no text. -/
def text (a : Action) (key : String) (default : String) : String :=
  ((a.param? key).bind Param.text?).getD default

/-- The truth value for a key, or a default if there is none or it is no truth value. -/
def flag (a : Action) (key : String) (default : Bool) : Bool :=
  ((a.param? key).bind Param.bool?).getD default

/-- Equality of actions, numbers being compared as numbers. -/
def same (a b : Action) : Bool :=
  a.id == b.id && Param.sameEntries a.params b.params

/-- The fields of an action. -/
def fields : List String :=
  ["id", "params"]

/-- Reads an action; without parameters it has none. -/
def ofJson? (j : Json) : Option Action := do
  let j := j.record fields
  let id ← j.field? "id" Json.string?
  let params ← j.fieldOr? "params" [] Param.paramsOfJson?
  return { id, params }

/-- Writes an action. -/
def toJson (a : Action) : Json :=
  .object [("id", .string a.id), ("params", Param.paramsToJson a.params)]

end Action

end StoryEngine
