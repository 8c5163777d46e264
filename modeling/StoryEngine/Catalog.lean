import Std.Data.ExtTreeMap
import StoryEngine.Event.Basic

/-!
# Catalogs

The registered event definitions, by id, and an index that lists for each trigger the ids of its
events in the order in which they are scanned. A catalog follows one of two policies for an id
that is registered again: with `dedupe` the index keeps one entry for each id, and without it
every registration adds an entry.

Specification: `SPEC_FULL.md` §4.3 (event registry), §9 (open question on an id that is registered
again) and §10.4 (`dedupe_reregistration`). Removing an event, of §10.5, takes its id off the list
of its current trigger only.
-/

namespace StoryEngine

/-- Event definitions by id, and the ids listed for each trigger. -/
structure Catalog where
  dedupe : Bool
  events : Std.ExtTreeMap String Event := ∅
  index : Std.ExtTreeMap String (List String) := ∅

namespace Catalog

/-- The catalog without events, with the given policy. -/
def empty (dedupe : Bool) : Catalog := { dedupe }

/-- The definition of an id. -/
def find? (c : Catalog) (id : String) : Option Event :=
  c.events[id]?

/-- The ids listed for a trigger, in scan order. -/
def idsFor (c : Catalog) (trigger : String) : List String :=
  c.index.getD trigger []

/-- Adds an id at the end of the list of a trigger. -/
def list (c : Catalog) (trigger id : String) : Catalog :=
  { c with index := c.index.insert trigger (c.idsFor trigger ++ [id]) }

/-- Removes every entry of an id from the list of a trigger, and the list once it is empty. -/
def unlist (c : Catalog) (trigger id : String) : Catalog :=
  match (c.idsFor trigger).filter (· != id) with
  | [] => { c with index := c.index.erase trigger }
  | ids => { c with index := c.index.insert trigger ids }

/-- Sets the definition of the id of an event. -/
def define (c : Catalog) (e : Event) : Catalog :=
  { c with events := c.events.insert e.id e }

/-- Removes the definition of an id. -/
def undefine (c : Catalog) (id : String) : Catalog :=
  { c with events := c.events.erase id }

/-- Lists an event for its trigger, given the definition that it replaces. With `dedupe`, an event
that stays on its trigger keeps its place there, and one that moves leaves its old trigger. -/
def enter (c : Catalog) (e : Event) (replaced : Option Event) : Catalog :=
  match replaced with
  | none => c.list e.trigger e.id
  | some old =>
      if !c.dedupe then c.list e.trigger e.id
      else if old.trigger = e.trigger then c
      else (c.unlist old.trigger e.id).list e.trigger e.id

/-- Registers an event and gives the definition that it replaces. Specification: §4.3 and §9 (open
question). -/
def register (c : Catalog) (e : Event) : Option Event × Catalog :=
  let replaced := c.find? e.id
  (replaced, (c.enter e replaced).define e)

/-- Removes the definition of an id, with its entries for the trigger of that definition, and gives
the definition. Specification: §10.5 (`unregister_event`). -/
def unregister (c : Catalog) (id : String) : Option Event × Catalog :=
  match c.find? id with
  | none => (none, c)
  | some e => (some e, (c.unlist e.trigger id).undefine id)

/-- The registered ids in ascending order. -/
def ids (c : Catalog) : List String :=
  c.events.keys

/-- How many definitions there are. -/
def size (c : Catalog) : Nat :=
  c.events.size

/-- Whether there are no definitions. -/
def isEmpty (c : Catalog) : Bool :=
  c.events.isEmpty

/-- A catalog without events defines no id. -/
theorem find?_empty (dedupe : Bool) (id : String) : (empty dedupe).find? id = none := by
  simp [empty, find?]

/-- A catalog without events lists nothing. -/
theorem idsFor_empty (dedupe : Bool) (trigger : String) : (empty dedupe).idsFor trigger = [] := by
  simp [empty, idsFor]

/-- Listing an id adds it at the end of that list and keeps the other lists. -/
@[simp] theorem idsFor_list (c : Catalog) (trigger other id : String) :
    (c.list trigger id).idsFor other =
      if trigger = other then c.idsFor trigger ++ [id] else c.idsFor other := by
  simp [list, idsFor, Std.ExtTreeMap.getD_insert]

/-- Unlisting an id takes it out of that list and keeps the other lists. -/
@[simp] theorem idsFor_unlist (c : Catalog) (trigger other id : String) :
    (c.unlist trigger id).idsFor other =
      if trigger = other then (c.idsFor trigger).filter (· != id) else c.idsFor other := by
  simp only [unlist]
  split
  · rename_i none
    by_cases same : trigger = other
    · rw [if_pos same, none, ← same]
      simp [idsFor]
    · simp [idsFor, Std.ExtTreeMap.getD_erase, same]
  · by_cases same : trigger = other <;> simp [idsFor, Std.ExtTreeMap.getD_insert, same]

/-- Listing an id keeps the definitions. -/
@[simp] theorem find?_list (c : Catalog) (trigger id other : String) :
    (c.list trigger id).find? other = c.find? other := rfl

/-- Unlisting an id keeps the definitions. -/
@[simp] theorem find?_unlist (c : Catalog) (trigger id other : String) :
    (c.unlist trigger id).find? other = c.find? other := by
  simp only [unlist]
  split <;> rfl

/-- Listing an id keeps the policy. -/
@[simp] theorem dedupe_list (c : Catalog) (trigger id : String) :
    (c.list trigger id).dedupe = c.dedupe := rfl

/-- Unlisting an id keeps the policy. -/
@[simp] theorem dedupe_unlist (c : Catalog) (trigger id : String) :
    (c.unlist trigger id).dedupe = c.dedupe := by
  simp only [unlist]
  split
  · rfl
  · rfl

/-- Entering an event in the lists keeps the definitions. -/
@[simp] theorem find?_enter (c : Catalog) (e : Event) (replaced : Option Event) (other : String) :
    (c.enter e replaced).find? other = c.find? other := by
  simp only [enter]
  repeat' split
  all_goals simp

/-- Defining an event sets the definition of its id and keeps the others. -/
@[simp] theorem find?_define (c : Catalog) (e : Event) (other : String) :
    (c.define e).find? other = if e.id = other then some e else c.find? other := by
  simp [define, find?, Std.ExtTreeMap.getElem?_insert]

/-- Undefining an id removes its definition and keeps the others. -/
@[simp] theorem find?_undefine (c : Catalog) (id other : String) :
    (c.undefine id).find? other = if id = other then none else c.find? other := by
  simp [undefine, find?, Std.ExtTreeMap.getElem?_erase]

/-- Defining an event keeps the lists. -/
@[simp] theorem idsFor_define (c : Catalog) (e : Event) (trigger : String) :
    (c.define e).idsFor trigger = c.idsFor trigger := rfl

/-- Undefining an id keeps the lists. -/
@[simp] theorem idsFor_undefine (c : Catalog) (id trigger : String) :
    (c.undefine id).idsFor trigger = c.idsFor trigger := rfl

/-- Registering an event defines its id and no other. -/
theorem find?_register (c : Catalog) (e : Event) (other : String) :
    (c.register e).2.find? other = if e.id = other then some e else c.find? other := by
  simp [register]

/-- Unregistering an id leaves it without definition and touches no other. -/
theorem find?_unregister (c : Catalog) (id other : String) :
    (c.unregister id).2.find? other = if id = other then none else c.find? other := by
  simp only [unregister]
  split
  · rename_i none
    by_cases same : id = other
    · rw [if_pos same, ← same, none]
    · rw [if_neg same]
  · simp

/-- Without `dedupe`, and for an id without definition, registering adds an entry at the end of the
list of the trigger and touches no other list. -/
theorem idsFor_register_of_new {c : Catalog} {e : Event}
    (new : c.dedupe = false ∨ c.find? e.id = none) (trigger : String) :
    (c.register e).2.idsFor trigger =
      if e.trigger = trigger then c.idsFor e.trigger ++ [e.id] else c.idsFor trigger := by
  have listed : c.enter e (c.find? e.id) = c.list e.trigger e.id := by
    rcases new with accrues | none
    · cases c.find? e.id with
      | none => rfl
      | some old => simp [enter, accrues]
    · rw [none]
      rfl
  show (c.enter e (c.find? e.id)).idsFor trigger = _
  rw [listed, idsFor_list]

/-- Unregistering removes an id from the list of the trigger of its definition and touches no other
list. -/
theorem idsFor_unregister (c : Catalog) (id trigger : String) :
    (c.unregister id).2.idsFor trigger =
      if (c.find? id).map Event.trigger = some trigger then (c.idsFor trigger).filter (· != id)
      else c.idsFor trigger := by
  unfold unregister
  cases c.find? id with
  | none => rfl
  | some e =>
    simp only [idsFor_undefine, idsFor_unlist, Option.map_some, Option.some.injEq]
    by_cases there : e.trigger = trigger
    · rw [if_pos there, if_pos there, there]
    · rw [if_neg there, if_neg there]

end Catalog

end StoryEngine
