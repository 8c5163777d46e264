import StoryEngine.Proofs.Engine.Setup

/-!
# New games

A restart clears all that a game leaves in the world but the store and the draws, and a game leaves
nothing in the setup. So after a restart nothing can be told of the games before.

Specification: `SPEC_FULL.md` §4.3 (`reset`).
-/

namespace StoryEngine

variable {ν : Type}

/-- Every event is enabled and none has occurred, and no signal is pending or has been numbered. -/
structure World.IsFresh (w : World) : Prop where
  enabled : ∀ id, w.flags.isEnabled id = true
  unoccurred : ∀ id, w.flags.hasOccurred id = false
  idle : w.queue.pending = []
  unnumbered : w.queue.nextSequence = 0

namespace Engine

/-- The engine after a restart. -/
def restarted (e : Engine ν) : Engine ν :=
  (e.perform .restart).engine

private theorem isFresh_restarted (e : Engine ν) : e.restarted.world.IsFresh where
  enabled := Flags.isEnabled_clear
  unoccurred := Flags.hasOccurred_clear
  idle := rfl
  unnumbered := rfl

/-- What is not cleared by a restart determines the engine after it. -/
theorem restarted_congr {e other : Engine ν} (config : e.config = other.config)
    (catalog : e.catalog = other.catalog) (handlers : e.handlers = other.handlers)
    (store : e.world.store = other.world.store) (draws : e.world.draws = other.world.draws) :
    e.restarted = other.restarted := by
  show Engine.mk e.config e.catalog e.handlers ⟨e.world.store, e.world.draws, .empty, .clear⟩ = _
  rw [config, catalog, handlers, store, draws]
  rfl

/-- A command with what it was answered and what was noted meanwhile. -/
structure Exchange (ν : Type) where
  command : Command ν
  answer : command.Answer
  journal : Array (Entry ν)

/-- What comes of commands in turn. -/
def exchanges (e : Engine ν) : List (Command ν) → List (Exchange ν)
  | [] => []
  | c :: rest =>
      ⟨c, (e.perform c).answer, (e.perform c).journal⟩ :: (e.perform c).engine.exchanges rest

/-- A restart erases all that happened before. Take two engines of the same settings on which the
same events were registered and unregistered in the same order, whatever else was done. Once both
are restarted nothing tells them apart, if their handlers, their stores and their draws are the
same: whatever is done then gives the same answers and the same engines. Every event is enabled
then, none has occurred, and nothing is pending. -/
theorem restart_forgets (config : Config) (draws draws' : Option Draws) (store store' : Store)
    (handlers handlers' : Handlers ν) (first second : List (Command ν)) :
    let e := ((create config draws store handlers).after first).restarted
    let other := ((create config draws' store' handlers').after second).restarted
    e.world.IsFresh ∧ other.world.IsFresh ∧
      (first.filterMap Command.catalogOp? = second.filterMap Command.catalogOp? →
        e.handlers = other.handlers → e.world.store = other.world.store →
        e.world.draws = other.world.draws →
        e = other ∧ ∀ commands,
          e.exchanges commands = other.exchanges commands ∧
            e.after commands = other.after commands) := by
  intro e other
  refine ⟨isFresh_restarted _, isFresh_restarted _, fun calls handlers store draws ↦ ?_⟩
  have same : e = other := by
    refine restarted_congr ?_ ?_ handlers store draws
    · rw [config_after, config_after]
      rfl
    · rw [catalog_after, catalog_after, calls]
      rfl
  refine ⟨same, fun commands ↦ ?_⟩
  rw [same]
  exact ⟨rfl, rfl⟩

/-- A game in which tea was asked for and one that was begun anew once it was registered. -/
theorem restart_forgets_second_game :
    let tea : Event := { id := "tea", trigger := "dawn", probability := 0.5, once := true }
    let start : Engine Unit := create {} (some (.fixed 0.5)) .empty .empty
    let first : List (Command Unit) := [.disable "tea", .register tea, .emit "dawn" 1 3]
    let second : List (Command Unit) := [.processNext, .register tea, .restart, .isEnabled "tea"]
    let e := (start.after first).restarted
    let other := (start.after second).restarted
    first.filterMap Command.catalogOp? = second.filterMap Command.catalogOp? ∧
      (start.after first).world.queue.size = 1 ∧
      (start.after first).world.flags.isEnabled "tea" = false ∧
      (start.after second).world.queue.size = 0 ∧
      (start.after second).world.flags.isEnabled "tea" = true ∧
      e.handlers = other.handlers ∧ e.world.store = other.world.store ∧
      e.world.draws = other.world.draws ∧ e = other := by
  intro tea start first second e other
  have registered (e : Engine Unit) (event : Event) :
      (e.register event).engine.world.store = e.world.store ∧
        (e.register event).engine.world.draws = e.world.draws := by
    unfold register
    repeat' split
    all_goals exact ⟨rfl, rfl⟩
  have asked (e : Engine Unit) (id : String) (p : Float) (priority : Int32) :
      (e.emit id p priority).engine.world.store = e.world.store ∧
        (e.emit id p priority).engine.world.draws = e.world.draws := by
    unfold emit World.emit
    cases e.world.queue.enqueue id p priority <;> exact ⟨rfl, rfl⟩
  have calls : first.filterMap Command.catalogOp? = second.filterMap Command.catalogOp? := rfl
  have handlers : e.handlers = other.handlers :=
    (start.handlers_after first).trans (start.handlers_after second).symm
  have store : e.world.store = other.world.store :=
    ((asked _ "dawn" 1 3).1.trans (registered _ tea).1).trans (registered start tea).1.symm
  have draws : e.world.draws = other.world.draws :=
    ((asked _ "dawn" 1 3).2.trans (registered _ tea).2).trans (registered start tea).2.symm
  obtain ⟨-, -, forgets⟩ := restart_forgets {} (some (.fixed 0.5)) (some (.fixed 0.5)) .empty .empty
    .empty .empty first second
  refine ⟨calls, by decide +kernel, by decide +kernel, by decide +kernel, by decide +kernel,
    handlers, store, draws, ?_⟩
  exact (forgets calls handlers store draws).1

end Engine

end StoryEngine
