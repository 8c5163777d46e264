import StoryEngine.Event.Basic

/-!
# Log records

What an engine reports about its own decisions: each record with its level and its wording.

Specification: `SPEC_FULL.md` §10.3.
-/

namespace StoryEngine

/-- How important a log record is. -/
inductive LogLevel where
  | trace
  | debug
  | warning
deriving DecidableEq, Repr

/-- Why an event of a trigger did not fire. -/
inductive SkipReason where
  | disabled
  | alreadyFired
  | conditionsNotMet
  | probabilityGate
deriving DecidableEq, Repr

/-- A decision of an engine. -/
inductive LogRecord where
  | queued (trigger : String) (priority : Int32) (sequence : Nat)
  | processing (trigger : String)
  | gateFailed (trigger : String)
  | skipped (event : String) (reason : SkipReason)
  | firing (event : Event)
  | waiting (event : String) (index : Nat) (action : String)
  | unhandled (action : String)
  | conditionFailed (condition : Condition) (error : Expression.Failure)
  | resuming (event : String) (next : Nat) (choice : Option Nat)
  | notWaiting (event : String)
  | stoppedAtCap (cap pending : Nat)
  | registered (event trigger : String)
  | restarting

namespace SkipReason

/-- The wording of a reason. -/
def describe : SkipReason → String
  | disabled => "disabled"
  | alreadyFired => "already fired"
  | conditionsNotMet => "conditions not met"
  | probabilityGate => "probability gate"

end SkipReason

namespace LogRecord

/-- The level of a record. -/
def level : LogRecord → LogLevel
  | queued .. | gateFailed _ | skipped .. => .trace
  | processing _ | firing _ | waiting .. | unhandled _ | conditionFailed .. | resuming ..
  | registered .. | restarting => .debug
  | notWaiting _ | stoppedAtCap .. => .warning

/-- How a message refers to the choice of a player. -/
def describeChoice : Option Nat → String
  | some n => "Some(" ++ toString n ++ ")"
  | none => "None"

/-- The wording of a record. -/
def message : LogRecord → String
  | queued trigger priority sequence =>
      s!"queued trigger '{trigger}' (priority {priority.toInt}, sequence {sequence})"
  | processing trigger => s!"processing trigger '{trigger}'"
  | gateFailed trigger => s!"trigger '{trigger}' failed its probability gate"
  | skipped event reason => s!"event '{event}' skipped: {reason.describe}"
  | firing event => s!"firing event '{event.id}'"
  | waiting event index action => s!"event '{event}' waiting after action {index} ('{action}')"
  | unhandled action => s!"no handler registered for action '{action}', skipping"
  | conditionFailed condition error =>
      s!"condition '{condition.id}' failed to evaluate ({condition.expression}), " ++
        s!"treating as false: {error.message}"
  | resuming event next choice =>
      s!"resuming event '{event}' at action {next} with choice {describeChoice choice}"
  | notWaiting event => s!"continue_event called for event '{event}' which is not waiting"
  | stoppedAtCap cap pending => s!"stopped after {cap} triggers with {pending} still pending"
  | registered event trigger => s!"registered event '{event}' on trigger '{trigger}'"
  | restarting => "resetting engine state"

end LogRecord

end StoryEngine
