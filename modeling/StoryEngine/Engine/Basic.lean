import StoryEngine.Config
import StoryEngine.Engine.Firing

/-!
# Engines

An engine holds everything of one game: its settings, its catalog of events, the handlers of the
host, and the world. It changes only by the commands of the host. `Engine.perform` is the effect
of a command; it gives the answer, the engine afterwards, and a journal of what happened.

Specification: `SPEC_FULL.md` §6 (external interfaces), §10.2 (refusals) and §10.5 (engine queries).
-/

namespace StoryEngine

/-- A game. -/
structure Engine (ν : Type) where
  config : Config
  catalog : Catalog
  handlers : Handlers ν
  world : World

/-- What a host can ask of an engine. -/
inductive Command (ν : Type) where
  | emit (id : String) (probability : Float) (priority : Int32)
  | processNext
  | processPending
  | resume (run : Run) (choice : Option Nat)
  | register (event : Event)
  | unregister (id : String)
  | enable (id : String)
  | disable (id : String)
  | isEnabled (id : String)
  | hasOccurred (id : String)
  | restart
  | evaluate (source : String)
  | store (op : StoreOp)
  | setHandlers (handlers : Handlers ν)

/-- What a command is answered with. -/
def Command.Answer {ν : Type} : Command ν → Type
  | emit .. | register _ => Except Refusal Unit
  | processNext | processPending => Option Run
  | resume .. => Run
  | unregister _ => Option Event
  | isEnabled _ | hasOccurred _ => Bool
  | evaluate _ => Except Expression.Failure Expression.Value
  | store op => op.Answer
  | enable _ | disable _ | restart | setHandlers _ => Unit

/-- The outcome of a command. -/
structure Reply (ν : Type) (α : Type) where
  answer : α
  engine : Engine ν
  journal : Array (Entry ν)

namespace Engine

variable {ν : Type}

/-- A new engine. Without draws of its own it has those of its seed. -/
def create (config : Config) (draws : Option Draws) (store : Store)
    (handlers : Handlers ν) : Engine ν where
  config := config
  catalog := .empty config.dedupe
  handlers := handlers
  world := { store, draws := draws.getD (.seeded config.seed) }

/-- The stage of an engine, with nothing in its journal. -/
def stage (e : Engine ν) : Stage ν := ⟨e.world, #[]⟩

/-- The reply after something happened on the stage. -/
def reply {α : Type} (e : Engine ν) (outcome : α × Stage ν) : Reply ν α :=
  ⟨outcome.1, { e with world := outcome.2.world }, outcome.2.journal⟩

/-- Queues a trigger. Nothing else happens until it is processed. Specification: §4.3. -/
def emit (e : Engine ν) (id : String) (probability : Float) (priority : Int32) :
    Reply ν (Except Refusal Unit) :=
  match e.world.emit id probability priority with
  | (.error refusal, _) => ⟨.error refusal, e, #[]⟩
  | (.ok sequence, world) =>
      ⟨.ok (), { e with world }, #[.logged (.queued id priority sequence)]⟩

/-- Registers an event, in place of any with its id. An event that is registered disabled is
disabled, and one that replaces another is enabled otherwise. Specification: §6 and §10.2. -/
def register (e : Engine ν) (event : Event) : Reply ν (Except Refusal Unit) :=
  match admitProbability (.event event.id) event.probability with
  | .error refusal => ⟨.error refusal, e, #[]⟩
  | .ok () =>
      let (replaced, catalog) := e.catalog.register event
      let world :=
        if !event.enabled then e.world.disable event.id
        else if replaced.isSome then e.world.enable event.id
        else e.world
      ⟨.ok (), { e with catalog, world }, #[.logged (.registered event.id event.trigger)]⟩

/-- Removes an event and enables its id. Specification: §10.5 (`unregister_event`). -/
def unregister (e : Engine ν) (id : String) : Reply ν (Option Event) :=
  match e.catalog.unregister id with
  | (none, _) => ⟨none, e, #[]⟩
  | (some event, catalog) => ⟨some event, { e with catalog, world := e.world.enable id }, #[]⟩

/-- Starts a new game: every event enabled, none occurred, nothing pending. Definitions, handlers,
the store and the draws stay. Specification: §4.3 (`reset`). -/
def restart (e : Engine ν) : Reply ν Unit :=
  let world := { e.world with flags := .clear, queue := e.world.queue.clear }
  ⟨(), { e with world }, #[.logged .restarting]⟩

/-- The effect of a command. -/
def perform (e : Engine ν) : (c : Command ν) → Reply ν c.Answer
  | .emit id probability priority => e.emit id probability priority
  | .processNext => e.reply (e.stage.processNext e.catalog e.handlers)
  | .processPending =>
      e.reply (e.stage.processPending e.catalog e.handlers e.config.maxTriggers.toNat)
  | .resume run choice => e.reply (e.stage.resume e.handlers run choice)
  | .register event => e.register event
  | .unregister id => e.unregister id
  | .enable id => ⟨(), { e with world := e.world.enable id }, #[]⟩
  | .disable id => ⟨(), { e with world := e.world.disable id }, #[]⟩
  | .isEnabled id => ⟨e.world.flags.isEnabled id, e, #[]⟩
  | .hasOccurred id => ⟨e.world.flags.hasOccurred id, e, #[]⟩
  | .restart => e.restart
  | .evaluate source =>
      let (result, world) := e.world.evaluate source
      ⟨result, { e with world }, #[]⟩
  | .store op =>
      let (answer, world) := e.world.applyToStore op
      ⟨answer, { e with world }, #[]⟩
  | .setHandlers handlers => ⟨(), { e with handlers }, #[]⟩

end Engine

end StoryEngine
