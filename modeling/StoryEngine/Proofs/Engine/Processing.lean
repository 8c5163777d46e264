import StoryEngine.Proofs.Engine.Dispatch

/-!
# Processing step by step

Processing takes signals, tests events and fires them, and nothing else. A property that each of
these steps keeps is therefore kept by processing any number of triggers. A playthrough follows
an engine through the commands of the host, with the journal of the current game.

Specification: `SPEC_FULL.md` §4.3 (the steps of `process_next_trigger`).
-/

namespace StoryEngine

variable {ν : Type}

/-- What every step of processing keeps: `between` holds of a stage when no trigger is being
processed, and `during` while the ids listed for a trigger are scanned. -/
structure Stage.Kept (catalog : Catalog) (handlers : Handlers ν) (between : Stage ν → Prop)
    (during : String → Stage ν → Prop) : Prop where
  taken : ∀ {s : Stage ν} {signal queue}, s.world.queue.pop? = some (signal, queue) →
    between s → during signal.trigger (s.take signal queue).2
  tested : ∀ {trigger s id e}, id ∈ catalog.idsFor trigger → catalog.find? id = some e →
    during trigger s → during trigger (s.admits e).2
  fired : ∀ {trigger s id e}, id ∈ catalog.idsFor trigger → catalog.find? id = some e →
    s.world.Admits e → during trigger s → during trigger ((s.admits e).2.fire handlers e).2
  scanned : ∀ {trigger s}, during trigger s → between s
  shut : ∀ {s : Stage ν} trigger, between s → between (s.log (.gateFailed trigger))
  capped : ∀ {s : Stage ν} cap pending, between s → between (s.log (.stoppedAtCap cap pending))

namespace Stage.Kept

variable {catalog : Catalog} {handlers : Handlers ν} {between : Stage ν → Prop}
  {during : String → Stage ν → Prop}

private theorem scan (h : Kept catalog handlers between during) {trigger : String}
    (ids : List String)
    (listed : ∀ id ∈ ids, id ∈ catalog.idsFor trigger) {s : Stage ν} (holds : during trigger s) :
    during trigger (s.scan catalog handlers ids).2 := by
  induction ids generalizing s with
  | nil => exact holds
  | cons id rest ih =>
    obtain ⟨here, others⟩ := List.forall_mem_cons.1 listed
    rw [scan_cons]
    cases found : catalog.find? id with
    | none => exact ih others holds
    | some e =>
      dsimp only
      by_cases admitted : (s.admits e).1 = true
      · have fires := h.fired here found ((s.admits_spec e).1.1 admitted) holds
        rw [if_pos admitted]
        split
        · exact fires
        · exact ih others fires
      · rw [if_neg admitted]
        exact ih others (h.tested here found holds)

/-- What each step of processing keeps is kept by processing the next trigger. -/
theorem processNext (h : Kept catalog handlers between during) {s : Stage ν}
    (holds : between s) : between (s.processNext catalog handlers).2 := by
  cases popped : s.world.queue.pop? with
  | none =>
    rw [Stage.processNext, popped]
    exact holds
  | some taken =>
    obtain ⟨signal, queue⟩ := taken
    rw [processNext_pop popped]
    split
    · exact h.scanned (h.scan _ (fun _ listed ↦ listed) (h.taken popped holds))
    · exact h.shut _ (h.scanned (h.taken popped holds))

private theorem processUpTo (h : Kept catalog handlers between during) (n : Nat) {s : Stage ν}
    (holds : between s) : between (s.processUpTo catalog handlers n).2 := by
  induction n generalizing s with
  | zero => exact holds
  | succ n ih =>
    rw [Stage.processUpTo]
    split
    · exact holds
    · have next := h.processNext holds
      split
      · rename_i made
        rwa [made] at next
      · rename_i made
        rw [made] at next
        exact ih next

/-- What each step of processing keeps is kept by processing the pending triggers. -/
theorem processPending (h : Kept catalog handlers between during) (cap : Nat) {s : Stage ν}
    (holds : between s) : between (s.processPending catalog handlers cap).2 := by
  have upTo := h.processUpTo cap holds
  unfold Stage.processPending
  split
  · rename_i made
    rwa [made] at upTo
  · rename_i made
    rw [made] at upTo
    split
    · exact upTo
    · exact h.capped _ _ upTo

end Stage.Kept

/-! ### Other commands -/

/-- Asking for a trigger keeps the flags. -/
theorem World.flags_emit (w : World) (id : String) (p : Float) (priority : Int32) :
    (w.emit id p priority).2.flags = w.flags := by
  unfold emit
  split
  · rfl
  · rfl

/-- No call marks an event as occurred, or takes such a mark back. -/
theorem Scene.frame_occurred :
    Frame fun s t : Scene ν ↦ t.world.flags.occurred = s.world.flags.occurred where
  refl s := rfl
  trans first second := second.trans first
  call s c := by
    cases c with
    | emit id p priority => exact congrArg Flags.occurred (s.world.flags_emit id p priority)
    | _ => rfl
  unhandled s id := rfl

/-- Playing a run marks no event as occurred. -/
theorem Scene.occurred_play (handlers : Handlers ν) (s : Scene ν) :
    (s.play handlers).world.flags.occurred = s.world.flags.occurred := by
  apply frame_occurred.performActions
  · intro s id index action place
    rfl
  · intro s id index action
    rfl

/-- Nothing has fired up to a reply, and the events that have occurred are those that had. -/
def Reply.IsCalm {α : Type} (e : Engine ν) (reply : Reply ν α) : Prop :=
  reply.journal.toList.filterMap Entry.fired? = [] ∧
    reply.engine.world.flags.occurred = e.world.flags.occurred

/-- A command that neither processes triggers nor begins a new game. -/
def Command.IsIdle : Command ν → Prop
  | .processNext | .processPending | .restart => False
  | _ => True

namespace Engine

private theorem emit_isCalm (e : Engine ν) (id : String) (probability : Float) (priority : Int32) :
    (e.emit id probability priority).IsCalm e := by
  have flags := e.world.flags_emit id probability priority
  unfold emit
  split
  · exact ⟨rfl, rfl⟩
  · rename_i emitted
    rw [emitted] at flags
    exact ⟨rfl, congrArg Flags.occurred flags⟩

private theorem register_isCalm (e : Engine ν) (event : Event) : (e.register event).IsCalm e := by
  unfold register
  split
  · exact ⟨rfl, rfl⟩
  · refine ⟨rfl, ?_⟩
    dsimp only
    repeat' split
    all_goals rfl

private theorem unregister_isCalm (e : Engine ν) (id : String) : (e.unregister id).IsCalm e := by
  unfold unregister
  split
  · exact ⟨rfl, rfl⟩
  · exact ⟨rfl, rfl⟩

private theorem resume_isCalm (e : Engine ν) (run : Run) (choice : Option Nat) :
    (e.perform (.resume run choice)).IsCalm e := by
  show (e.reply (e.stage.resume e.handlers run choice)).IsCalm e
  unfold Stage.resume
  split
  · let scene : Scene ν :=
      { e.stage.log (.resuming run.event.id run.next choice) with run := run.resume choice }
    have noted : Stage.Quiet e.stage scene.toStage := Stage.notes_note _ _
    exact ⟨(filterMap_journal (noted.trans (scene.play_keeps e.handlers).quiet)).1,
      scene.occurred_play e.handlers⟩
  · exact ⟨rfl, rfl⟩

/-- Only processing fires events, and only a new game forgets that they did. -/
theorem perform_isCalm (e : Engine ν) {c : Command ν} (idle : c.IsIdle) :
    (e.perform c).IsCalm e := by
  cases c with
  | emit id probability priority => exact e.emit_isCalm id probability priority
  | register event => exact e.register_isCalm event
  | unregister id => exact e.unregister_isCalm id
  | resume run choice => exact e.resume_isCalm run choice
  | processNext => exact idle.elim
  | processPending => exact idle.elim
  | restart => exact idle.elim
  | _ => exact ⟨rfl, rfl⟩

end Engine

/-! ### Playthroughs -/

/-- An engine, and what has happened in the current game: since the engine was created or, if it
has been, since it was last restarted. -/
structure Playthrough (ν : Type) where
  engine : Engine ν
  journal : List (Entry ν)

namespace Playthrough

/-- The playthrough of a new engine. -/
def begin (config : Config) (draws : Option Draws) (store : Store) (handlers : Handlers ν) :
    Playthrough ν :=
  ⟨.create config draws store handlers, []⟩

/-- The journal that a command adds to: a restart begins a new one. -/
def earlier (p : Playthrough ν) : Command ν → List (Entry ν)
  | .restart => []
  | _ => p.journal

/-- The playthrough after a command. -/
def step (p : Playthrough ν) (c : Command ν) : Playthrough ν where
  engine := (p.engine.perform c).engine
  journal := p.earlier c ++ (p.engine.perform c).journal.toList

/-- The playthrough after commands in turn. -/
def after (p : Playthrough ν) (commands : List (Command ν)) : Playthrough ν :=
  commands.foldl step p

/-- The events that have fired in the current game, in order. -/
def fired (p : Playthrough ν) : List Event :=
  p.journal.filterMap Entry.fired?

/-- What every command keeps, every sequence of commands keeps. -/
theorem after_keeps {I : Playthrough ν → Prop} (kept : ∀ {p} c, I p → I (p.step c))
    (commands : List (Command ν)) {p : Playthrough ν} (holds : I p) : I (p.after commands) := by
  induction commands generalizing p with
  | nil => exact holds
  | cons c rest ih => exact ih (kept c holds)

end Playthrough

end StoryEngine
