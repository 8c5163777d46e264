import StoryEngine.Number.Shortest

/-!
# Probabilities

Events and triggers carry a probability, which must be a number from zero to one. The check is
made when they enter the engine; it names what was refused.

Specification: `SPEC_FULL.md` §3 (invariants) and §10.2 (`InvalidProbability`).
-/

namespace StoryEngine

/-- What a probability belongs to. -/
inductive Subject where
  | trigger (id : String)
  | event (id : String)
deriving DecidableEq

/-- A value refused as the probability of its subject. -/
structure Refusal where
  subject : Subject
  value : Float
deriving DecidableEq

/-- How a message refers to a subject. -/
def Subject.describe : Subject → String
  | trigger id => "trigger '" ++ id ++ "'"
  | event id => "event '" ++ id ++ "'"

/-- The wording of a refusal. -/
def Refusal.message (e : Refusal) : String :=
  "invalid probability " ++ Number.text e.value ++ " for " ++ e.subject.describe ++
    ": must be within [0, 1]"

/-- Accepts the numbers from zero to one. Specification: §10.2. -/
def admitProbability (subject : Subject) (p : Float) : Except Refusal Unit :=
  if 0 ≤ p ∧ p ≤ 1 then .ok () else .error ⟨subject, p⟩

end StoryEngine
