import StoryEngine.Event.Action
import StoryEngine.Event.Condition

/-!
# Events

A definition of what may happen: actions bound to a trigger and gated by conditions and a
probability. A definition never changes while the game runs; what does change, such as whether
it may fire or has fired, is kept elsewhere.

Specification: `SPEC_FULL.md` §3 (event) and §10.5 (event definitions and their defaults). Whether
an event is enabled is no field of its definition but a flag.
-/

namespace StoryEngine

/-- An event definition. `priority` is a hint for tools: it does not order events. Specification: §3
and §4.3. -/
structure Event where
  id : String
  trigger : String := "Manual"
  actions : List Action := []
  conditions : List Condition := []
  probability : Float := 1
  once : Bool := false
  priority : Int32 := 0
  exclusions : List String := []
  enabled : Bool := true

namespace Event

/-- The event with one more action at the end. -/
def addAction (e : Event) (a : Action) : Event :=
  { e with actions := e.actions ++ [a] }

/-- The event with one more condition at the end. -/
def addCondition (e : Event) (expression : String) : Event :=
  { e with conditions := e.conditions ++ [{ expression }] }

/-- The event with the given chance of firing. -/
def setProbability (e : Event) (probability : Float) : Event :=
  { e with probability }

/-- The event that fires at most once. -/
def makeOnce (e : Event) : Event :=
  { e with once := true }

/-- The event with the given priority. -/
def setPriority (e : Event) (priority : Int32) : Event :=
  { e with priority }

/-- The event with one more event that its firing disables. -/
def addExclusion (e : Event) (id : String) : Event :=
  { e with exclusions := e.exclusions ++ [id] }

/-- The event that starts disabled. -/
def disabled (e : Event) : Event :=
  { e with enabled := false }

/-- Equality of events, numbers being compared as numbers. -/
def same (e f : Event) : Bool :=
  e.id == f.id && e.trigger == f.trigger && sameActions e.actions f.actions &&
    e.conditions == f.conditions && e.probability == f.probability && e.once == f.once &&
    e.priority == f.priority && e.exclusions == f.exclusions && e.enabled == f.enabled
where
  /-- Equality of lists of actions. -/
  sameActions : List Action → List Action → Bool
    | [], [] => true
    | a :: actions, b :: others => a.same b && sameActions actions others
    | _, _ => false

/-- The fields of an event. -/
def fields : List String :=
  ["id", "trigger", "actions", "conditions", "probability", "once", "priority", "exclusions",
    "enabled"]

/-- Reads an event. Only the id is required; the other fields have the defaults of an event. -/
def ofJson? (j : Json) : Option Event := do
  let j := j.record fields
  let id ← j.field? "id" Json.string?
  let default : Event := { id }
  let trigger ← j.fieldOr? "trigger" default.trigger Json.string?
  let actions ← j.fieldOr? "actions" default.actions (Json.list? Action.ofJson?)
  let conditions ← j.fieldOr? "conditions" default.conditions (Json.list? Condition.ofJson?)
  let probability ← j.fieldOr? "probability" default.probability Json.float?
  let once ← j.fieldOr? "once" default.once Json.bool?
  let priority ← j.fieldOr? "priority" default.priority Json.int32?
  let exclusions ← j.fieldOr? "exclusions" default.exclusions (Json.list? Json.string?)
  let enabled ← j.fieldOr? "enabled" default.enabled Json.bool?
  return { id, trigger, actions, conditions, probability, once, priority, exclusions, enabled }

/-- Writes an event with all its fields. -/
def toJson (e : Event) : Json :=
  .object [
    ("id", .string e.id),
    ("trigger", .string e.trigger),
    ("actions", .array (e.actions.map Action.toJson)),
    ("conditions", .array (e.conditions.map Condition.toJson)),
    ("probability", .ofFloat e.probability),
    ("once", .bool e.once),
    ("priority", .integer e.priority.toInt),
    ("exclusions", .array (e.exclusions.map Json.string)),
    ("enabled", .bool e.enabled)]

/-- Whether the event, written and read again, equals itself. -/
def readsBack (e : Event) : Bool :=
  (ofJson? e.toJson).any e.same

end Event

end StoryEngine
