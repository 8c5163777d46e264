import StoryEngine.Event.Basic

/-!
# Runs

One firing of an event: the definition that fired, how far its actions have come, and what it
shows to the player while it waits. A run that waits is handed to the host and can be resumed.

Specification: `SPEC_FULL.md` §3 (action execution context) and §4.4. The run keeps the whole
definition and an index into its actions.
-/

namespace StoryEngine

/-- Whether a run goes on to its next action, has been aborted, or waits for the player. -/
inductive Phase where
  | running
  | stopped
  | waiting
deriving DecidableEq, Repr

/-- The state of one firing. Specification: §3 (action execution context). -/
structure Run where
  event : Event
  phase : Phase := .running
  message : Option String := none
  choices : List Param := []
  choice : Option Nat := none
  next : Nat := 0

namespace Run

/-- The run of an event that fires now. -/
def start (event : Event) : Run := { event }

/-- Whether the run waits for the player. -/
def isWaiting (r : Run) : Bool :=
  r.phase == .waiting

/-- The actions still to be performed. -/
def remaining (r : Run) : List Action :=
  r.event.actions.drop r.next

/-- Shows a message and waits. Choices that were offered before stay. Specification: §4.4. -/
def showMessage (r : Run) (message : String) : Run :=
  { r with message := some message, phase := .waiting }

/-- Offers choices and waits. Specification: §4.4. -/
def offerChoices (r : Run) (message : Option String) (choices : List Param) : Run :=
  { r with message, choices, phase := .waiting }

/-- Aborts the run. What is shown stays. Specification: §4.4. -/
def stop (r : Run) : Run :=
  { r with phase := .stopped }

/-- Goes on with the choice of the player; nothing is shown any more. Specification: §4.4. -/
def resume (r : Run) (choice : Option Nat) : Run :=
  { r with choice, message := none, choices := [], phase := .running }

end Run

end StoryEngine
