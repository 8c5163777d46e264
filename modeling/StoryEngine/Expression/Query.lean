/-!
# Game queries

What an expression can ask about the game. It reads and never writes.

Specification: `SPEC_FULL.md` §4.1 (query capability) and §6 (consumed query surface).
-/

namespace StoryEngine.Expression

/-- The answers of a game: the values of variables, the counts of items, which statuses are
active and which events have occurred. -/
structure Query where
  value : String → Float
  count : String → Int64
  isActive : String → Bool
  hasOccurred : String → Bool

/-- The game in which every variable and every count is zero and nothing holds. -/
def Query.blank : Query :=
  ⟨fun _ ↦ 0, fun _ ↦ 0, fun _ ↦ false, fun _ ↦ false⟩

end StoryEngine.Expression
