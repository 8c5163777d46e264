import StoryEngine.Json
import StoryEngine.Param.Basic

/-!
# Parameters as JSON

A parameter is written as plain JSON and read back from it. A `null` at any depth makes a JSON
value unreadable as a parameter.

Specification: `SPEC_FULL.md` §9 (open-ended action parameter bag) and §10.5 (event definitions).
-/

namespace StoryEngine.Param

mutual

/-- The parameter that a JSON value stands for. -/
def ofJson? : Json → Option Param
  | .null => none
  | .bool b => some (bool b)
  | .integer n => some (number (Float.ofInt n))
  | .decimal x => some (number x)
  | .string s => some (text s)
  | .array items => (itemsOfJson? items).map list
  | .object members => (entriesOfJson? members).map fun entries ↦ map (Params.ofList entries)

/-- The parameters of the items of an array. -/
def itemsOfJson? : List Json → Option (List Param)
  | [] => some []
  | j :: items =>
      match ofJson? j, itemsOfJson? items with
      | some p, some rest => some (p :: rest)
      | _, _ => none

/-- The parameters of the members of an object. -/
def entriesOfJson? : List (String × Json) → Option (List (String × Param))
  | [] => some []
  | (key, j) :: members =>
      match ofJson? j, entriesOfJson? members with
      | some p, some rest => some ((key, p) :: rest)
      | _, _ => none

end

mutual

/-- The JSON value of a parameter. -/
def toJson : Param → Json
  | bool b => .bool b
  | number x => .ofFloat x
  | text s => .string s
  | list items => .array (itemsToJson items)
  | map entries => .object (entriesToJson entries)

/-- The JSON values of the items of a list. -/
def itemsToJson : List Param → List Json
  | [] => []
  | p :: items => p.toJson :: itemsToJson items

/-- The JSON members of the entries of a bag. -/
def entriesToJson : List (String × Param) → List (String × Json)
  | [] => []
  | (key, p) :: entries => (key, p.toJson) :: entriesToJson entries

end

/-- The bag that a JSON object stands for. -/
def paramsOfJson? (j : Json) : Option Params :=
  match j with
  | .object members => (entriesOfJson? members).map Params.ofList
  | _ => none

/-- The JSON object of a bag. -/
def paramsToJson (entries : Params) : Json :=
  .object (entriesToJson entries)

end StoryEngine.Param
