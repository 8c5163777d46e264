import StoryEngine.Expression.Failure
import StoryEngine.Draws.Basic

/-!
# Cursors

The state of an evaluation: the tokens not yet read and the random draws. A step of the
evaluation either gives a result or fails, and keeps the state in both cases, so that the draws
made before a failure stay made.

Specification: `SPEC_FULL.md` §4.1 (parsing and evaluation in one pass).
-/

namespace StoryEngine.Expression

/-- The tokens ahead, the place where they end, and the random draws. -/
structure Cursor where
  rest : List Token
  stop : Nat
  draws : Draws

/-- A step of an evaluation. -/
abbrev Step (α : Type) := EStateM Failure Cursor α

namespace Cursor

/-- The token ahead, if any. -/
def ahead? (c : Cursor) : Option Symbol :=
  c.rest.head?.map Token.symbol

/-- The place of the token ahead, or of the end. -/
def position (c : Cursor) : Nat :=
  (c.rest.head?.map Token.position).getD c.stop

/-- The cursor past the token ahead; at the end it stays. -/
def advance (c : Cursor) : Cursor :=
  { c with rest := c.rest.tail }

end Cursor

namespace Step

/-- The token ahead, if any. -/
def ahead? : Step (Option Symbol) := do
  return (← get).ahead?

/-- The place of the token ahead, or of the end. -/
def position : Step Nat := do
  return (← get).position

/-- Reads the token ahead, if any. -/
def read? : Step (Option Symbol) :=
  modifyGet fun c ↦ (c.ahead?, c.advance)

/-- The number of tokens ahead. -/
def remaining : Step Nat := do
  return (← get).rest.length

/-- Fails because the tokens do not fit the grammar at the place ahead. -/
def fault {α : Type} (f : Fault) : Step α := do
  throw (.badGrammar f (← position))

/-- A random draw. -/
def draw : Step Float :=
  modifyGet fun c ↦
    let (x, draws) := c.draws.next
    (x, { c with draws })

/-- A result that does not depend on the cursor. -/
def ofExcept {α : Type} : Except Failure α → Step α
  | .ok a => pure a
  | .error e => throw e

end Step

end StoryEngine.Expression
