import StoryEngine.Json
import StoryEngine.Store.Basic

/-!
# Stores as JSON

A saved game: a store is written with all four of its parts and read only if all are present.

Specification: `SPEC_FULL.md` §10.5 (snapshots of the store).
-/

namespace StoryEngine.Store

/-- The limits of a variable, an array of two numbers. -/
def limitsOfJson? : Json → Option (Float × Float)
  | .array [low, high] => do return (← low.float?, ← high.float?)
  | _ => none

/-- Reads a store. -/
def ofJson? (j : Json) : Option Store := do
  let j := j.record ["vars", "limits", "items", "status"]
  let vars ← j.field? "vars" (Json.members? Json.float?)
  let limits ← j.field? "limits" (Json.members? limitsOfJson?)
  let items ← j.field? "items" (Json.members? Json.int64?)
  let statuses ← j.field? "status" (Json.list? Json.string?)
  return {
    vars := .ofList vars, limits := .ofList limits, items := .ofList items,
    statuses := .ofList statuses }

/-- Writes a store. -/
def toJson (s : Store) : Json :=
  .object [
    ("vars", .object (s.vars.toList.map fun (name, x) ↦ (name, .ofFloat x))),
    ("limits", .object (s.limits.toList.map fun (name, low, high) ↦
      (name, .array [.ofFloat low, .ofFloat high]))),
    ("items", .object (s.items.toList.map fun (name, n) ↦ (name, .integer n.toInt))),
    ("status", .array (s.statuses.toList.map Json.string))]

end StoryEngine.Store
