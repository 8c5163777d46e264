import StoryEngine.Engine.Basic
import StoryEngine.Proofs.Catalog.History

/-!
# The setup of an engine

An engine is set up with its configuration, its handlers and its catalog. The host changes these by
the commands that are for it, and nothing that happens in a game does: what a sequence of commands
makes of the setup follows from those among them.
-/

namespace StoryEngine

variable {ν : Type}

/-- The call to the catalog that a command is. -/
def Command.catalogOp? : Command ν → Option CatalogOp
  | .register event => some (.register event)
  | .unregister id => some (.unregister id)
  | _ => none

/-- The handlers that a command sets. -/
def Command.handlers? : Command ν → Option (Handlers ν)
  | .setHandlers handlers => some handlers
  | _ => none

namespace Catalog

/-- The catalog of an engine after a call. An event whose probability is refused changes nothing. -/
def accept (c : Catalog) : CatalogOp → Catalog
  | .register event =>
      match admitProbability (.event event.id) event.probability with
      | .error _ => c
      | .ok () => (c.register event).2
  | .unregister id => (c.unregister id).2

private theorem accept_eq (c : Catalog) (op : CatalogOp) :
    c.accept op = c ∨ c.accept op = (c.apply op).2 := by
  cases op with
  | register event =>
    rw [accept]
    split
    · exact .inl rfl
    · exact .inr rfl
  | unregister id => exact .inr rfl

private theorem unregister_of_none {c : Catalog} {id : String}
    (absent : (c.unregister id).1 = none) :
    (c.unregister id).2 = c := by
  unfold unregister at absent ⊢
  split at absent
  · rfl
  · cases absent

end Catalog

namespace Engine

/-- What an engine has of its setup after a command: that of before, but for what the command
sets. -/
structure Adopts (c : Command ν) (e after : Engine ν) : Prop where
  config : after.config = e.config
  handlers : after.handlers = c.handlers?.getD e.handlers
  catalog : after.catalog = c.catalogOp?.elim e.catalog e.catalog.accept

private theorem adopts_emit (e : Engine ν) (id : String) (probability : Float) (priority : Int32) :
    Adopts (.emit id probability priority) e (e.emit id probability priority).engine := by
  unfold emit
  split
  · exact ⟨rfl, rfl, rfl⟩
  · exact ⟨rfl, rfl, rfl⟩

private theorem adopts_register (e : Engine ν) (event : Event) :
    Adopts (.register event) e (e.register event).engine := by
  unfold register
  split
  · rename_i refused
    exact ⟨rfl, rfl, by simp only [Command.catalogOp?, Option.elim, Catalog.accept, refused]⟩
  · rename_i admitted
    exact ⟨rfl, rfl, by simp only [Command.catalogOp?, Option.elim, Catalog.accept, admitted]⟩

private theorem adopts_unregister (e : Engine ν) (id : String) :
    Adopts (.unregister id) e (e.unregister id).engine := by
  have absent : (e.catalog.unregister id).1 = none → (e.catalog.unregister id).2 = e.catalog :=
    Catalog.unregister_of_none
  unfold unregister
  split
  · rename_i removed
    rw [removed] at absent
    exact ⟨rfl, rfl, by rw [Command.catalogOp?, Option.elim, Catalog.accept, removed, ← absent rfl]⟩
  · rename_i removed
    exact ⟨rfl, rfl, by rw [Command.catalogOp?, Option.elim, Catalog.accept, removed]⟩

/-- No command changes the setup but by what it sets. -/
theorem adopts_perform (e : Engine ν) (c : Command ν) : Adopts c e (e.perform c).engine := by
  cases c with
  | emit id probability priority => exact e.adopts_emit id probability priority
  | register event => exact e.adopts_register event
  | unregister id => exact e.adopts_unregister id
  | _ => exact ⟨rfl, rfl, rfl⟩

/-- A command changes the catalog by at most one call. -/
theorem catalog_perform (e : Engine ν) (c : Command ν) :
    (e.perform c).engine.catalog = e.catalog ∨
      ∃ op, (e.perform c).engine.catalog = (e.catalog.apply op).2 := by
  rw [(e.adopts_perform c).catalog]
  cases c.catalogOp? with
  | none => exact .inl rfl
  | some op =>
    rcases e.catalog.accept_eq op with same | changed
    · exact .inl same
    · exact .inr ⟨op, changed⟩

/-- The engine after commands in turn. -/
def after (e : Engine ν) (commands : List (Command ν)) : Engine ν :=
  commands.foldl (fun e c ↦ (e.perform c).engine) e

/-- No command changes the configuration. -/
theorem config_after (e : Engine ν) (commands : List (Command ν)) :
    (e.after commands).config = e.config := by
  induction commands generalizing e with
  | nil => rfl
  | cons c rest ih => exact (ih _).trans (e.adopts_perform c).config

/-- The handlers after commands are the last ones that were set. -/
theorem handlers_after (e : Engine ν) (commands : List (Command ν)) :
    (e.after commands).handlers =
      (commands.filterMap Command.handlers?).getLast?.getD e.handlers := by
  induction commands generalizing e with
  | nil => rfl
  | cons c rest ih =>
    show ((e.perform c).engine.after rest).handlers = _
    rw [ih, (e.adopts_perform c).handlers, List.filterMap_cons]
    cases c.handlers? with
    | none => rfl
    | some handlers => rw [List.getLast?_cons, Option.getD_some, Option.getD_some]

/-- The catalog after commands follows from the calls among them. -/
theorem catalog_after (e : Engine ν) (commands : List (Command ν)) :
    (e.after commands).catalog =
      (commands.filterMap Command.catalogOp?).foldl Catalog.accept e.catalog := by
  induction commands generalizing e with
  | nil => rfl
  | cons c rest ih =>
    show ((e.perform c).engine.after rest).catalog = _
    rw [ih, (e.adopts_perform c).catalog, List.filterMap_cons]
    cases c.catalogOp? with
    | none => rfl
    | some op => rfl

end Engine

end StoryEngine
