import StoryEngine.Engine.Run
import StoryEngine.Engine.World

/-!
# Scripts

What the handler of an action does, as data: a script makes calls, each answered by the engine,
and may dispatch other actions, each answered with whether a handler for it was found. A script
can do nothing else, so what is true of all scripts is true of all handlers.

Specification: `SPEC_FULL.md` §10.5 (handler capabilities).
-/

namespace StoryEngine

/-- A call that a script makes. Reports have a type of the host's choice. -/
inductive Call (ν : Type) where
  | showMessage (message : String)
  | offerChoices (message : Option String) (choices : List Param)
  | stop
  | userChoice
  | event
  | phase
  | store (op : StoreOp)
  | draw
  | evaluate (source : String)
  | emit (id : String) (probability : Float) (priority : Int32)
  | enable (id : String)
  | disable (id : String)
  | isEnabled (id : String)
  | hasOccurred (id : String)
  | report (note : ν)

/-- What a call is answered with. -/
def Call.Answer {ν : Type} : Call ν → Type
  | userChoice => Option Nat
  | event => Event
  | phase => Phase
  | store op => op.Answer
  | draw => Float
  | evaluate _ => Except Expression.Failure Expression.Value
  | emit .. => Except Refusal Nat
  | isEnabled _ | hasOccurred _ => Bool
  | showMessage _ | offerChoices .. | stop | enable _ | disable _ | report _ => Unit

/-- A script with a result. -/
inductive Script (ν : Type) (α : Type) where
  | done (a : α)
  | call (c : Call ν) (next : c.Answer → Script ν α)
  | dispatch (action : Action) (next : Bool → Script ν α)

namespace Script

variable {ν α β : Type}

/-- One script after another. -/
def bind : Script ν α → (α → Script ν β) → Script ν β
  | done a, f => f a
  | call c next, f => .call c fun answer ↦ (next answer).bind f
  | dispatch action next, f => .dispatch action fun found ↦ (next found).bind f

instance : Monad (Script ν) where
  pure := done
  bind := bind

/-- The script that makes one call. -/
def ofCall (c : Call ν) : Script ν c.Answer :=
  .call c .done

/-- The script that dispatches one action. -/
def ofDispatch (action : Action) : Script ν Bool :=
  .dispatch action .done

/-- The script that applies an operation to the store. -/
def onStore (op : StoreOp) : Script ν op.Answer :=
  ofCall (.store op)

/-- The script that reports to the host. -/
def report (note : ν) : Script ν Unit :=
  ofCall (.report note)

/-- Whatever the answers, a script dispatches only actions of a certain kind. -/
def DispatchesOnly (kind : Action → Prop) : Script ν α → Prop
  | done _ => True
  | call _ next => ∀ answer, (next answer).DispatchesOnly kind
  | dispatch action next => kind action ∧ ∀ found, (next found).DispatchesOnly kind

variable {kind : Action → Prop}

/-- A single call dispatches nothing. -/
theorem dispatchesOnly_ofCall (c : Call ν) : (ofCall c).DispatchesOnly kind :=
  fun _ ↦ trivial

/-- One script after another dispatches what the two dispatch. -/
theorem DispatchesOnly.bind {s : Script ν α} {f : α → Script ν β} (first : s.DispatchesOnly kind)
    (second : ∀ a, (f a).DispatchesOnly kind) : (s >>= f).DispatchesOnly kind := by
  change (s.bind f).DispatchesOnly kind
  induction s with
  | done a => exact second a
  | call c next ih => exact fun answer ↦ ih answer (first answer)
  | dispatch action next ih => exact ⟨first.1, fun found ↦ ih found (first.2 found)⟩

end Script

/-- The handler of an action: the script that performs it. -/
abbrev Handler (ν : Type) := Action → Script ν Unit

end StoryEngine
