import StoryEngine.Expression.Evaluation
import StoryEngine.Flags
import StoryEngine.Draws.Basic
import StoryEngine.Store.Operation
import StoryEngine.Signal.Queue

/-!
# Worlds

Everything that changes while a game runs: the store, the random draws, the pending triggers
and the flags of events.

Specification: `SPEC_FULL.md` §4.3 (state) and §5.
-/

namespace StoryEngine

/-- The changing part of a game. -/
structure World where
  store : Store
  draws : Draws
  queue : SignalQueue := .empty
  flags : Flags := .clear

namespace World

/-- What expressions can ask of a world: its store, and which events have occurred. -/
def query (w : World) : Expression.Query :=
  { w.store.query with hasOccurred := w.flags.hasOccurred }

/-- Evaluates an expression in the world. -/
def evaluate (w : World) (source : String) :
    Except Expression.Failure Expression.Value × World :=
  let (result, draws) := Expression.evaluate source w.query w.draws
  (result, { w with draws })

/-- Makes a random draw. -/
def draw (w : World) : Float × World :=
  let (x, draws) := w.draws.next
  (x, { w with draws })

/-- Queues a trigger and gives its number; a refused one changes nothing. -/
def emit (w : World) (id : String) (probability : Float) (priority : Int32) :
    Except Refusal Nat × World :=
  match w.queue.enqueue id probability priority with
  | .ok (sequence, queue) => (.ok sequence, { w with queue })
  | .error e => (.error e, w)

/-- Applies an operation to the store. -/
def applyToStore (w : World) (op : StoreOp) : op.Answer × World :=
  let (answer, store) := op.apply w.store
  (answer, { w with store })

/-- Enables an event. -/
def enable (w : World) (id : String) : World :=
  { w with flags := w.flags.enable id }

/-- Disables an event. -/
def disable (w : World) (id : String) : World :=
  { w with flags := w.flags.disable id }

end World

end StoryEngine
