import StoryEngine.Expression.Evaluation
import StoryEngine.Json

/-!
# Conditions

An expression that must hold for an event to fire. One that cannot be evaluated does not hold.
Of a list of conditions only those up to the first that does not hold are evaluated.

Specification: `SPEC_FULL.md` §3 (condition), §4.3 (step 3c) and §7 (fail-closed conditions).
-/

namespace StoryEngine

open Expression (Failure Query)

/-- A labelled expression. -/
structure Condition where
  id : String := "Expression"
  expression : String := "true"
deriving DecidableEq

/-- What came of the conditions that were evaluated, and the draws left. -/
structure Verdict where
  findings : List (Condition × Except Failure Bool)
  draws : Draws

namespace Condition

/-- Whether the value of the expression counts as true, or why there is none. -/
def evaluate (c : Condition) (query : Query) (draws : Draws) : Except Failure Bool × Draws :=
  let (result, draws) := Expression.evaluate c.expression query draws
  (result.map Expression.Value.isTrue, draws)

/-- A finding counts as true only when there is one. Specification: §7 (fail-closed). -/
def holds : Except Failure Bool → Bool
  | .ok held => held
  | .error _ => false

/-- Whether the condition holds. -/
def check (c : Condition) (query : Query) (draws : Draws) : Bool × Draws :=
  let (finding, draws) := c.evaluate query draws
  (holds finding, draws)

/-- The fields of a condition. -/
def fields : List String :=
  ["id", "expression"]

/-- Reads a condition; the label and the expression have defaults. -/
def ofJson? (j : Json) : Option Condition := do
  let j := j.record fields
  let id ← j.fieldOr? "id" { : Condition }.id Json.string?
  let expression ← j.fieldOr? "expression" { : Condition }.expression Json.string?
  return { id, expression }

/-- Writes a condition. -/
def toJson (c : Condition) : Json :=
  .object [("id", .string c.id), ("expression", .string c.expression)]

end Condition

namespace Verdict

/-- All conditions that were evaluated hold. -/
def holds (v : Verdict) : Bool :=
  v.findings.all fun (_, finding) ↦ Condition.holds finding

/-- Evaluates conditions in turn up to the first that does not hold. Specification: §4.3, 3c. -/
def ofConditions (query : Query) : List Condition → Draws → Verdict
  | [], draws => ⟨[], draws⟩
  | c :: rest, draws =>
      match c.evaluate query draws with
      | (.ok true, draws) =>
          let verdict := ofConditions query rest draws
          { verdict with findings := (c, .ok true) :: verdict.findings }
      | (finding, draws) => ⟨[(c, finding)], draws⟩

end Verdict

end StoryEngine
