import StoryEngine.Engine.Log
import StoryEngine.Engine.Script

/-!
# Stages

A world together with a journal of what happens in it: log records, the gates that events and
triggers pass or fail, the actions that begin, and the calls of scripts. A scene is a stage with
a run on it; on a scene scripts are performed.

Specification: `SPEC_FULL.md` §4.3 (probability gates, conditions), §7 (actions without a handler)
and §10.3 (what is logged). The journal is kept here only for what is said about it.
-/

namespace StoryEngine

/-- Something that happened. -/
inductive Entry (ν : Type) where
  | logged (record : LogRecord)
  | tested (event : String) (condition : Condition) (held : Bool)
  | rolled (subject : Subject) (probability : Float) (passed : Bool)
  | began (event : String) (index : Nat) (action : Action)
  | called (call : Call ν)

/-- A world and the journal of what has happened in it. -/
structure Stage (ν : Type) where
  world : World
  journal : Array (Entry ν) := #[]

/-- A stage with a run on it. -/
structure Scene (ν : Type) extends Stage ν where
  run : Run

variable {ν : Type}

namespace Stage

/-- Adds to the journal. -/
def note (s : Stage ν) (entry : Entry ν) : Stage ν :=
  { s with journal := s.journal.push entry }

/-- Adds a log record to the journal. -/
def log (s : Stage ν) (record : LogRecord) : Stage ν :=
  s.note (.logged record)

/-- Takes the chance of a subject. -/
def roll (s : Stage ν) (subject : Subject) (p : Float) : Bool × Stage ν :=
  let (passed, draws) := s.world.draws.roll p
  (passed, { s with world.draws := draws }.note (.rolled subject p passed))

/-- Notes what came of a condition, and logs it if it could not be evaluated. -/
def noteFinding (event : String) (s : Stage ν) :
    Condition × Except Expression.Failure Bool → Stage ν
  | (c, .ok held) => s.note (.tested event c held)
  | (c, .error e) => (s.log (.conditionFailed c e)).note (.tested event c false)

/-- Evaluates the conditions of an event up to the first that does not hold. -/
def test (s : Stage ν) (e : Event) : Bool × Stage ν :=
  let verdict := Verdict.ofConditions s.world.query e.conditions s.world.draws
  let s := verdict.findings.foldl (noteFinding e.id) s
  (verdict.holds, { s with world.draws := verdict.draws })

end Stage

namespace Scene

/-- Adds to the journal. -/
def note (s : Scene ν) (entry : Entry ν) : Scene ν :=
  { s with toStage := s.toStage.note entry }

/-- Adds a log record to the journal. -/
def log (s : Scene ν) (record : LogRecord) : Scene ν :=
  s.note (.logged record)

/-- Changes the run. -/
def mapRun (s : Scene ν) (f : Run → Run) : Scene ν :=
  { s with run := f s.run }

/-- Replaces the world. -/
def withWorld (s : Scene ν) (world : World) : Scene ν :=
  { s with world }

/-- The answer to a call, and the scene afterwards. -/
def answer (s : Scene ν) : (c : Call ν) → c.Answer × Scene ν
  | .showMessage message => ((), s.mapRun (·.showMessage message))
  | .offerChoices message choices => ((), s.mapRun (·.offerChoices message choices))
  | .stop => ((), s.mapRun Run.stop)
  | .userChoice => (s.run.choice, s)
  | .event => (s.run.event, s)
  | .phase => (s.run.phase, s)
  | .store op => ((s.world.applyToStore op).1, s.withWorld (s.world.applyToStore op).2)
  | .draw => (s.world.draw.1, s.withWorld s.world.draw.2)
  | .evaluate source => ((s.world.evaluate source).1, s.withWorld (s.world.evaluate source).2)
  | .emit id p priority =>
      ((s.world.emit id p priority).1, s.withWorld (s.world.emit id p priority).2)
  | .enable id => ((), s.withWorld (s.world.enable id))
  | .disable id => ((), s.withWorld (s.world.disable id))
  | .isEnabled id => (s.world.flags.isEnabled id, s)
  | .hasOccurred id => (s.world.flags.hasOccurred id, s)
  | .report _ => ((), s)

end Scene

/-- Performs a script on a scene, given what dispatching an action does; it has no outcome if an
action that it dispatches has none. -/
def Script.perform {α : Type} (dispatch : Action → Scene ν → Option (Bool × Scene ν)) :
    Script ν α → Scene ν → Option (α × Scene ν)
  | .done a, s => some (a, s)
  | .call c next, s =>
      let (answer, s) := (s.note (.called c)).answer c
      (next answer).perform dispatch s
  | .dispatch action next, s =>
      match dispatch action s with
      | some (found, s) => (next found).perform dispatch s
      | none => none

/-- A script has an outcome if every action that it may dispatch has one. -/
theorem Script.isSome_perform {α : Type} {kind : Action → Prop}
    {dispatch : Action → Scene ν → Option (Bool × Scene ν)}
    (total : ∀ action, kind action → ∀ s, (dispatch action s).isSome) (script : Script ν α)
    (only : script.DispatchesOnly kind) (s : Scene ν) : (script.perform dispatch s).isSome := by
  induction script generalizing s with
  | done a => rfl
  | call c next ih => exact ih _ (only _) _
  | dispatch action next ih =>
    obtain ⟨⟨found, t⟩, h⟩ := Option.isSome_iff_exists.1 (total action only.1 s)
    simp only [Script.perform, h]
    exact ih found (only.2 found) t

end StoryEngine
