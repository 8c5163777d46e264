import StoryEngine.Json

/-!
# Engine configuration

The settings of an engine: the seed of its random draws, the policy for ids that are
registered again, and how many triggers one run may process.

Specification: `SPEC_FULL.md` §10.4.
-/

namespace StoryEngine

/-- The settings of an engine. -/
structure Config where
  seed : UInt64 := 42
  dedupe : Bool := true
  maxTriggers : UInt64 := 1000
deriving DecidableEq

namespace Config

/-- Reads a configuration, of which all fields are required. -/
def ofJson? (j : Json) : Option Config := do
  let j := j.record ["seed", "dedupe_reregistration", "max_triggers_per_run"]
  let seed ← j.field? "seed" Json.nat64?
  let dedupe ← j.field? "dedupe_reregistration" Json.bool?
  let maxTriggers ← j.field? "max_triggers_per_run" Json.nat64?
  return { seed := seed.toUInt64, dedupe, maxTriggers := maxTriggers.toUInt64 }

/-- Writes a configuration. -/
def toJson (c : Config) : Json :=
  .object [
    ("seed", .integer c.seed.toNat),
    ("dedupe_reregistration", .bool c.dedupe),
    ("max_triggers_per_run", .integer c.maxTriggers.toNat)]

/-- Whether the configuration, written and read again, equals itself. -/
def readsBack (c : Config) : Bool :=
  ofJson? c.toJson == some c

end Config

end StoryEngine
