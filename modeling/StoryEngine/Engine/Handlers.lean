import StoryEngine.Engine.Stage

/-!
# Handlers

The handlers of a host, by the id of the action that they perform. A handler may dispatch other
actions, so a table comes with a bound on the depth to which its handlers dispatch one another;
the bound shows that every dispatch ends. An action without a handler is skipped.

Specification: `SPEC_FULL.md` §9 (dispatch to action handlers) and §10.5 (nested dispatch); the
bound is not part of it.
-/

namespace StoryEngine

variable {ν : Type}

/-- Dispatches an action with handlers that dispatch one another at most to the given depth; a
dispatch that goes deeper has no outcome. -/
def dispatchWithin (handler? : String → Option (Handler ν)) :
    Nat → Action → Scene ν → Option (Bool × Scene ν)
  | 0, _, _ => none
  | depth + 1, action, s =>
      match handler? action.id with
      | none => some (false, s.log (.unhandled action.id))
      | some handler =>
          ((handler action).perform (dispatchWithin handler? depth) s).map fun (_, s) ↦ (true, s)

/-- Handlers by action id, and how deep their dispatches go. -/
structure Handlers (ν : Type) where
  handlers : Std.ExtTreeMap String (Handler ν)
  depth : Action → Scene ν → Nat
  ends : ∀ action s, (dispatchWithin (handlers[·]?) (depth action s) action s).isSome

namespace Handlers

/-- The table without handlers. -/
def empty : Handlers ν where
  handlers := ∅
  depth _ _ := 1
  ends _ _ := by simp [dispatchWithin]

/-- Whether there is a handler for an action id. -/
def contains (t : Handlers ν) (id : String) : Bool :=
  t.handlers.contains id

/-- How many action ids have a handler. -/
def size (t : Handlers ν) : Nat :=
  t.handlers.size

/-- Whether no action id has a handler. -/
def isEmpty (t : Handlers ν) : Bool :=
  t.handlers.isEmpty

/-- Performs an action with its handler; without one, nothing happens and the answer is `false`.
Specification: §7. -/
def dispatch (t : Handlers ν) (action : Action) (s : Scene ν) : Bool × Scene ν :=
  (dispatchWithin (t.handlers[·]?) (t.depth action s) action s).get (t.ends action s)

end Handlers

end StoryEngine
