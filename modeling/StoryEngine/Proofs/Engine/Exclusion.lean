import StoryEngine.Proofs.Engine.Chronicle
import StoryEngine.Proofs.Engine.Processing

/-!
# Exclusion

An event that fires disables the events that it excludes. Such an event stays disabled, is not
tested and does not fire, until it is enabled: by the host or by a handler, by being registered
again or removed, or by a new game. Every step of processing and every other command keeps the
flags of the engine as the chronicle has them.

Specification: `SPEC_FULL.md` §4.3 (step 3e) and §8 (exclusion).
-/

namespace StoryEngine

variable {ν : Type}

/-! ### Tests -/

namespace Stage

/-- What is noted between two stages is allowed. -/
def Remarks (flags : Flags) (s t : Stage ν) : Prop :=
  ∃ notes, t.journal.toList = s.journal.toList ++ notes ∧
    ∀ entry ∈ notes, (Happening.noted entry).Allowed flags

variable {flags : Flags} {s t u : Stage ν} {e : Event}

private theorem Remarks.trans (first : Remarks flags s t) (second : Remarks flags t u) :
    Remarks flags s u := by
  obtain ⟨notes, journal, allowed⟩ := first
  obtain ⟨notes', journal', allowed'⟩ := second
  refine ⟨notes ++ notes', ?_, ?_⟩
  · rw [journal', journal, List.append_assoc]
  · intro entry member
    rcases List.mem_append.1 member with member | member
    · exact allowed entry member
    · exact allowed' entry member

private theorem Remarks.of_push {entry : Entry ν} (journal : t.journal = s.journal.push entry)
    (allowed : (Happening.noted entry).Allowed flags) : Remarks flags s t := by
  refine ⟨[entry], ?_, by simpa using allowed⟩
  rw [journal, Array.toList_push]

private theorem remarks_noteFinding {id : String} (enabled : flags.isEnabled id = true)
    (s : Stage ν) (finding : Condition × Except Expression.Failure Bool) :
    Remarks flags s (s.noteFinding id finding) := by
  have tested (c : Condition) (held : Bool) :
      (Happening.noted (.tested id c held) : Happening ν).Allowed flags :=
    ⟨fun h ↦ h, fun _ h ↦ h, fun _ same ↦ same ▸ enabled⟩
  rcases finding with ⟨c, failure | held⟩
  · have failed : Remarks flags s (s.log (.conditionFailed c failure)) :=
      .of_push rfl (LogRecord.IsRemark.allowed trivial)
    exact failed.trans (.of_push rfl (tested c false))
  · exact .of_push rfl (tested c held)

private theorem remarks_test (enabled : flags.isEnabled e.id = true) (s : Stage ν) :
    Remarks flags s (s.test e).2 := by
  have noted (findings : List (Condition × Except Expression.Failure Bool)) (s : Stage ν) :
      Remarks flags s (findings.foldl (noteFinding e.id) s) := by
    induction findings generalizing s with
    | nil => exact ⟨[], by simp, by simp⟩
    | cons finding rest ih => exact (remarks_noteFinding enabled s finding).trans (ih _)
  exact noted _ s

private theorem remarks_skipped (s : Stage ν) (id : String) (reason : SkipReason) :
    Remarks flags s (s.log (.skipped id reason)) :=
  .of_push rfl (LogRecord.IsRemark.allowed trivial)

/-- The test of an event that is disabled evaluates nothing and takes no draw. -/
theorem admits_disabled (disabled : s.world.flags.isEnabled e.id = false) :
    s.admits e = (false, s.log (.skipped e.id .disabled)) := by
  rw [admits, disabled]
  rfl

/-- The test of an event concerns that event alone, and only if it is enabled. -/
theorem remarks_admits (s : Stage ν) (e : Event) :
    Remarks s.world.flags s (s.admits e).2 := by
  by_cases offered : s.world.Offers e
  · have tested := remarks_test offered.1 s (e := e)
    have rolled : Remarks s.world.flags (s.test e).2
        ((s.test e).2.roll (.event e.id) e.probability).2 :=
      .of_push rfl ⟨fun h ↦ h, fun _ h ↦ h, fun _ same ↦ same ▸ offered.1⟩
    rw [admits_offered offered]
    split
    · split
      · exact tested.trans rolled
      · exact (tested.trans rolled).trans (remarks_skipped _ _ _)
    · exact tested.trans (remarks_skipped _ _ _)
  · cases enabled : s.world.flags.isEnabled e.id with
    | false =>
      rw [admits_disabled enabled]
      exact remarks_skipped _ _ _
    | true =>
      have used : e.once = true ∧ s.world.flags.hasOccurred e.id = true :=
        Classical.not_not.1 fun unused ↦ offered ⟨enabled, unused⟩
      rw [admits, enabled, used.1, used.2]
      exact remarks_skipped _ _ _

end Stage

/-! ### Runs -/

/-- What is noted of a run between two scenes: an event that is disabled stays so, unless a handler
enables it. -/
def Scene.Runs (s t : Scene ν) : Prop :=
  ∃ run, t.journal.toList = s.journal.toList ++ run ∧
    (∀ entry ∈ run, (Happening.noted entry).OfRun) ∧
    ∀ id, s.world.flags.isEnabled id = false →
      (∀ entry ∈ run, ¬ (Happening.noted entry).Enables id) → t.world.flags.isEnabled id = false

namespace Scene

variable {s t : Scene ν}

private theorem Runs.of_push (entry : Entry ν) (journal : t.journal = s.journal.push entry)
    (ofRun : (Happening.noted entry).OfRun)
    (flags : ∀ id, s.world.flags.isEnabled id = false → ¬ (Happening.noted entry).Enables id →
      t.world.flags.isEnabled id = false) : Runs s t := by
  refine ⟨[entry], ?_, by simpa using ofRun, ?_⟩
  · rw [journal, Array.toList_push]
  · intro id disabled none
    exact flags id disabled (none entry (List.mem_singleton_self entry))

private theorem frame_runs : Frame (Runs (ν := ν)) where
  refl s := ⟨[], by simp, by simp, fun _ disabled _ ↦ disabled⟩
  trans := by
    intro s t u first second
    obtain ⟨run, journal, ofRun, flags⟩ := first
    obtain ⟨run', journal', ofRun', flags'⟩ := second
    refine ⟨run ++ run', ?_, ?_, ?_⟩
    · rw [journal', journal, List.append_assoc]
    · intro entry member
      rcases List.mem_append.1 member with member | member
      · exact ofRun entry member
      · exact ofRun' entry member
    · intro id disabled none
      have between := flags id disabled fun entry member ↦
        none entry (List.mem_append_left run' member)
      exact flags' id between fun entry member ↦ none entry (List.mem_append_right run member)
  call s c := by
    apply Runs.of_push (.called c)
    · cases c <;> rfl
    · trivial
    · intro id disabled none
      cases c with
      | enable other =>
        have other : ¬ other = id := none
        show (s.world.flags.enable _).isEnabled id = false
        simpa [other] using disabled
      | disable other =>
        show (s.world.flags.disable other).isEnabled id = false
        simp [disabled]
      | emit other p priority =>
        show (s.world.emit other p priority).2.flags.isEnabled id = false
        rw [World.flags_emit]
        exact disabled
      | _ => exact disabled
  unhandled s id := .of_push _ rfl trivial fun _ disabled _ ↦ disabled

/-- Playing a run notes only what is of a run, and a disabled event stays so unless a call enables
it. -/
theorem play_runs (handlers : Handlers ν) (s : Scene ν) : Runs s (s.play handlers) := by
  apply frame_runs.performActions
  · intro s id index action place
    exact .of_push _ rfl trivial fun _ disabled _ ↦ disabled
  · intro s id index action
    exact .of_push _ rfl trivial fun _ disabled _ ↦ disabled

end Scene

namespace Stage

/-- Settling a firing disables what the event excludes, and the event itself if it fires only once.
-/
theorem isEnabled_settle (s : Stage ν) (e : Event) (id : String) :
    (s.settle e).world.flags.isEnabled id =
      (!(e.once && e.id == id) && (!e.exclusions.contains id && s.world.flags.isEnabled id)) := by
  unfold settle
  dsimp only
  cases e.once with
  | true => simp [bne]
  | false => simp

/-- When an event has fired, the events that it excludes are disabled, whatever its handlers
did. -/
theorem isEnabled_fire_excluded (handlers : Handlers ν) (s : Stage ν) (e : Event) {id : String}
    (excluded : id ∈ e.exclusions) :
    (s.fire handlers e).2.world.flags.isEnabled id = false := by
  show ((Scene.play handlers _).toStage.settle e).world.flags.isEnabled id = false
  rw [isEnabled_settle]
  simp [excluded]

/-! ### Processing -/

/-- The flags of a stage go with what happened earlier and what its journal has noted since. -/
def Guarded (earlier : List (Happening ν)) (s : Stage ν) : Prop :=
  s.world.flags.Guard (earlier ++ s.journal.toList.map .noted)

variable {earlier : List (Happening ν)} {s t : Stage ν}

private theorem Guarded.remarks (guarded : s.Guarded earlier) (remarks : Remarks s.world.flags s t)
    (same : t.world.flags = s.world.flags) : t.Guarded earlier := by
  obtain ⟨notes, journal, allowed⟩ := remarks
  unfold Guarded
  rw [journal, List.map_append, ← List.append_assoc, same]
  exact Flags.Guard.append_notes guarded allowed

private theorem Guarded.log (guarded : s.Guarded earlier) {record : LogRecord}
    (allowed : (Happening.noted (.logged record) : Happening ν).Allowed s.world.flags) :
    (s.log record).Guarded earlier :=
  guarded.remarks (.of_push rfl allowed) rfl

/-- A firing is noted with all of its run, after which the events that it excludes are disabled. -/
private theorem Guarded.fire (guarded : s.Guarded earlier) (handlers : Handlers ν) {e : Event}
    (enabled : s.world.flags.isEnabled e.id = true) :
    (s.fire handlers e).2.Guarded earlier := by
  let scene : Scene ν := { s.log (.firing e) with run := .start e }
  obtain ⟨run, journal, ofRun, flags⟩ := scene.play_runs handlers
  have noted : (s.fire handlers e).2.journal.toList =
      s.journal.toList ++ .logged (.firing e) :: run := by
    show (scene.play handlers).journal.toList = _
    rw [journal]
    show (s.journal.push _).toList ++ run = _
    rw [Array.toList_push, List.append_assoc, List.singleton_append]
  unfold Guarded
  rw [noted, List.map_append, List.map_cons, ← List.append_assoc]
  apply Flags.Guard.append_run guarded
  · exact fun impossible ↦ impossible
  · simpa using ofRun
  · intro id same
    rw [← show e.id = id from same]
    exact enabled
  · rintro id (excludes | ⟨disabled, none⟩)
    · exact isEnabled_fire_excluded handlers s e excludes
    · have played := flags id disabled fun entry member ↦
        none _ (List.mem_cons_of_mem _ (List.mem_map_of_mem member))
      show ((scene.play handlers).toStage.settle e).world.flags.isEnabled id = false
      rw [isEnabled_settle, played, Bool.and_false, Bool.and_false]

/-- Processing tests and fires only events that are enabled at their turn. -/
theorem kept_guarded (catalog : Catalog) (handlers : Handlers ν)
    (earlier : List (Happening ν)) :
    Kept catalog handlers (Guarded earlier) fun _ ↦ Guarded earlier where
  taken {s signal queue} _ guarded := by
    have processing : Remarks s.world.flags s
        (({ s with world.queue := queue } : Stage ν).log (.processing signal.trigger)) :=
      .of_push rfl (LogRecord.IsRemark.allowed trivial)
    refine guarded.remarks (processing.trans (.of_push rfl ?_)) rfl
    exact ⟨fun h ↦ h, fun _ h ↦ h, fun _ h ↦ h.elim⟩
  tested {trigger s id e} _ _ guarded := by
    obtain ⟨draws, -, world⟩ := (s.admits_spec e).2.world
    exact guarded.remarks (s.remarks_admits e) (by rw [world])
  fired {trigger s id e} _ _ admitted guarded := by
    obtain ⟨draws, -, world⟩ := (s.admits_spec e).2.world
    have same : (s.admits e).2.world.flags = s.world.flags := by rw [world]
    apply (guarded.remarks (s.remarks_admits e) same).fire
    rw [same]
    exact admitted.1.1
  scanned guarded := guarded
  shut trigger guarded := guarded.log (LogRecord.IsRemark.allowed trivial)
  capped cap pending guarded := guarded.log (LogRecord.IsRemark.allowed trivial)

end Stage

/-! ### Commands -/

/-- A command that does not perform actions. -/
def Command.IsPlain : Command ν → Prop
  | .processNext | .processPending | .resume .. => False
  | _ => True

namespace Engine

variable {e : Engine ν} {c : Command ν} {id : String}

private theorem isEnabled_register_of_disabled {event : Event}
    (disabled : e.world.flags.isEnabled id = false)
    (none : ¬ (Command.register event : Command ν).Enables e id) :
    (e.register event).engine.world.flags.isEnabled id = false := by
  have none : ¬ (event.id = id ∧ event.enabled = true ∧ (e.catalog.find? id).isSome ∧
    (e.register event).answer = .ok ()) := none
  unfold register at none ⊢
  cases admitted : admitProbability (.event event.id) event.probability with
  | error refusal => exact disabled
  | ok _ =>
    rw [admitted] at none
    dsimp only at none ⊢
    cases enabled : event.enabled with
    | false =>
      show (e.world.flags.disable event.id).isEnabled id = false
      simp [disabled]
    | true =>
      cases replaced : (e.catalog.find? event.id).isSome with
      | false =>
        rw [Catalog.register]
        simpa [replaced] using disabled
      | true =>
        have other : event.id ≠ id := by
          rintro rfl
          exact none ⟨rfl, enabled, replaced, rfl⟩
        rw [Catalog.register]
        simp [replaced, World.enable, other, disabled]

/-- A command that performs no actions keeps an event disabled unless it enables the event. -/
theorem isEnabled_perform_of_disabled (plain : c.IsPlain)
    (disabled : e.world.flags.isEnabled id = false) (none : ¬ c.Enables e id) :
    (e.perform c).engine.world.flags.isEnabled id = false := by
  cases c with
  | emit other probability priority =>
    have flags := e.world.flags_emit other probability priority
    show (e.emit other probability priority).engine.world.flags.isEnabled id = false
    unfold emit
    split
    · exact disabled
    · rename_i emitted
      rw [emitted] at flags
      rw [show _ = e.world.flags from flags]
      exact disabled
  | register event => exact isEnabled_register_of_disabled disabled none
  | unregister other =>
    have none : ¬ (other = id ∧ (e.catalog.find? id).isSome) := none
    show (e.unregister other).engine.world.flags.isEnabled id = false
    unfold unregister Catalog.unregister
    cases found : e.catalog.find? other with
    | none => exact disabled
    | some event =>
      have other : other ≠ id := by
        rintro rfl
        exact none ⟨rfl, by rw [found]; rfl⟩
      show (e.world.flags.enable _).isEnabled id = false
      simp [other, disabled]
  | enable other =>
    have other : ¬ other = id := none
    show (e.world.flags.enable _).isEnabled id = false
    simp [other, disabled]
  | disable other =>
    show (e.world.flags.disable other).isEnabled id = false
    simp [disabled]
  | restart => exact absurd trivial none
  | processNext => exact plain.elim
  | processPending => exact plain.elim
  | resume run choice => exact plain.elim
  | _ => exact disabled

/-- What enables an event leaves it enabled. -/
theorem isEnabled_perform_of_enables (enables : c.Enables e id) :
    (e.perform c).engine.world.flags.isEnabled id = true := by
  cases c with
  | enable other =>
    obtain rfl : other = id := enables
    show (e.world.flags.enable other).isEnabled other = true
    simp
  | register event =>
    obtain ⟨rfl, enabled, replaced, answer⟩ := enables
    show (e.register event).engine.world.flags.isEnabled event.id = true
    unfold register at answer ⊢
    cases admitted : admitProbability (.event event.id) event.probability with
    | error refusal =>
      rw [admitted] at answer
      cases answer
    | ok _ =>
      rw [Catalog.register]
      simp [enabled, replaced, World.enable]
  | unregister other =>
    obtain ⟨rfl, registered⟩ := enables
    obtain ⟨event, found⟩ := Option.isSome_iff_exists.1 registered
    show (e.unregister other).engine.world.flags.isEnabled other = true
    rw [unregister, Catalog.unregister, found]
    show (e.world.flags.enable other).isEnabled other = true
    simp
  | restart =>
    show Flags.clear.isEnabled id = true
    simp
  | _ => exact enables.elim

/-- What such a command notes concerns no event. -/
theorem allowed_perform (e : Engine ν) (plain : c.IsPlain) (flags : Flags) :
    ∀ entry ∈ (e.perform c).journal.toList, (Happening.noted entry).Allowed flags := by
  intro entry member
  cases c with
  | emit other probability priority =>
    change entry ∈ (e.emit other probability priority).journal.toList at member
    unfold emit at member
    split at member
    · cases member
    · cases List.mem_singleton.1 member
      exact LogRecord.IsRemark.allowed trivial
  | register event =>
    change entry ∈ (e.register event).journal.toList at member
    unfold register at member
    split at member
    · cases member
    · cases List.mem_singleton.1 member
      exact LogRecord.IsRemark.allowed trivial
  | unregister other =>
    change entry ∈ (e.unregister other).journal.toList at member
    unfold unregister at member
    split at member
    · cases member
    · cases member
  | restart =>
    cases List.mem_singleton.1 member
    exact LogRecord.IsRemark.allowed trivial
  | processNext => exact plain.elim
  | processPending => exact plain.elim
  | resume run choice => exact plain.elim
  | _ => cases member

end Engine

/-! ### Games -/

namespace Chronicle

/-- The flags of the engine go with the history. -/
def Guarded (h : Chronicle ν) : Prop :=
  h.engine.world.flags.Guard h.history

variable {h : Chronicle ν}

private theorem begin_guarded (config : Config) (draws : Option Draws) (store : Store)
    (handlers : Handlers ν) : (begin config draws store handlers).Guarded where
  disabled id excluded := by
    obtain ⟨before, firing, run, later, split, -⟩ := excluded
    simp [begin] at split
  respected before happening later id split := by simp [begin] at split

/-- A command is noted before what it brings about. -/
private theorem Guarded.commanded (guarded : h.Guarded) (c : Command ν) {flags : Flags}
    (after : ∀ id, h.engine.world.flags.isEnabled id = false → ¬ c.Enables h.engine id →
      flags.isEnabled id = false) :
    flags.Guard (h.history ++ [.commanded h.engine c]) :=
  guarded.append ⟨fun h ↦ h, fun _ h ↦ h, fun _ h ↦ h.elim⟩ after

private theorem Guarded.of_stage {c : Command ν} {s : Stage ν}
    (guarded : s.Guarded (h.history ++ [.commanded h.engine c]))
    (world : (h.engine.perform c).engine.world = s.world)
    (journal : (h.engine.perform c).journal = s.journal) : (h.step c).Guarded := by
  unfold Guarded step
  dsimp only
  rw [world, journal, ← List.singleton_append, ← List.append_assoc]
  exact guarded

private theorem Guarded.resume (guarded : h.Guarded) (run : Run) (choice : Option Nat) :
    (h.step (.resume run choice)).Guarded := by
  have start : h.engine.stage.Guarded (h.history ++ [.commanded h.engine (.resume run choice)]) :=
    (guarded.commanded _ fun _ disabled _ ↦ disabled).append_notes (by simp [Engine.stage])
  apply Guarded.of_stage (s := (h.engine.stage.resume h.engine.handlers run choice).2) ?_ rfl rfl
  unfold Stage.resume
  split
  · let scene : Scene ν :=
      { h.engine.stage.log (.resuming run.event.id run.next choice) with run := run.resume choice }
    obtain ⟨notes, journal, ofRun, flags⟩ := scene.play_runs h.engine.handlers
    show (scene.play h.engine.handlers).toStage.Guarded _
    unfold Stage.Guarded
    rw [journal]
    show Flags.Guard _ (_ ++ .noted (.logged (.resuming ..)) :: notes.map .noted)
    apply (guarded.commanded _ fun _ disabled _ ↦ disabled).append_run
    · exact fun impossible ↦ impossible
    · simpa using ofRun
    · exact fun id impossible ↦ impossible.elim
    · rintro id (impossible | ⟨disabled, none⟩)
      · exact impossible.elim
      · exact flags id disabled fun entry member ↦
          none _ (List.mem_cons_of_mem _ (List.mem_map_of_mem member))
  · exact start.log (LogRecord.IsRemark.allowed trivial)

private theorem Guarded.plain (guarded : h.Guarded) {c : Command ν} (plain : c.IsPlain) :
    (h.step c).Guarded := by
  have next := (guarded.commanded c fun id disabled none ↦
    Engine.isEnabled_perform_of_disabled plain disabled none).append_notes
      (h.engine.allowed_perform plain _)
  rw [List.append_assoc] at next
  exact next

private theorem Guarded.step (guarded : h.Guarded) (c : Command ν) : (h.step c).Guarded := by
  have start : h.engine.stage.Guarded (h.history ++ [.commanded h.engine c]) :=
    (guarded.commanded _ fun _ disabled _ ↦ disabled).append_notes (by simp [Engine.stage])
  cases c with
  | processNext => exact .of_stage ((Stage.kept_guarded _ _ _).processNext start) rfl rfl
  | processPending =>
    exact .of_stage ((Stage.kept_guarded _ _ _).processPending _ start) rfl rfl
  | resume run choice => exact guarded.resume run choice
  | _ => exact guarded.plain trivial

private theorem Guarded.after (guarded : h.Guarded) (commands : List (Command ν)) :
    (h.after commands).Guarded := by
  induction commands generalizing h with
  | nil => exact guarded
  | cons c rest ih => exact ih (guarded.step c)

/-- Exclusion in the chronicle of a game. An id that is excluded is disabled, and while it is
excluded its event neither fires nor is tested. What ends this does enable the id. -/
structure Lasting (h : Chronicle ν) : Prop where
  disabled : ∀ id, Excluded id h.history → (h.engine.perform (.isEnabled id)).answer = false
  respected : Respected h.history
  enabled : ∀ (c : Command ν) id, c.Enables h.engine id →
    ((h.engine.perform c).engine.perform (.isEnabled id)).answer = true

end Chronicle

/-- Whatever a host does, an event that has been excluded stays disabled, does not fire and is not
tested until it is enabled. It is disabled when the firing that excludes it has ended, whatever
handlers did until then; and a handler that enables it enables it at once. -/
theorem Chronicle.exclusion_lasts (config : Config) (draws : Option Draws) (store : Store)
    (handlers : Handlers ν) :
    (∀ commands : List (Command ν),
      ((begin config draws store handlers).after commands).Lasting) ∧
    (∀ (table : Handlers ν) (s : Stage ν) (e : Event), ∀ id ∈ e.exclusions,
      (s.fire table e).2.world.flags.isEnabled id = false) ∧
    ∀ (s : Scene ν) (id : String), (s.answer (.enable id)).2.world.flags.isEnabled id = true := by
  refine ⟨fun commands ↦ ?_, ?_, ?_⟩
  · have guarded := (begin_guarded config draws store handlers).after commands
    exact ⟨guarded.disabled, guarded.respected, fun c id ↦ Engine.isEnabled_perform_of_enables⟩
  · intro table s e id excluded
    exact s.isEnabled_fire_excluded table e excluded
  · intro s id
    show (s.world.flags.enable id).isEnabled id = true
    simp

/-- A duel excludes a truce that is registered only later, and registering it does not enable it. -/
theorem Chronicle.exclusion_lasts_duel :
    let h := (begin {} none .empty (.empty : Handlers Unit)).after
      [.register { id := "duel", trigger := "dawn", exclusions := ["truce"] }, .emit "dawn" 1 0,
        .processNext, .register { id := "truce", trigger := "dawn" }]
    Excluded "truce" h.history ∧ (h.engine.perform (.isEnabled "truce")).answer = false := by
  intro h
  have excluded : Excluded "truce" h.history := by
    refine ⟨h.history.take 8, _, [], h.history.drop 9, rfl, ?_, by simp, ?_⟩
    · exact List.mem_singleton_self "truce"
    · intro happening member enables
      rcases List.mem_cons.1 member with rfl | member
      · obtain ⟨-, -, registered, -⟩ := enables
        exact absurd registered (by decide +kernel)
      · cases List.mem_singleton.1 member
        exact enables.elim
  exact ⟨excluded, ((exclusion_lasts {} none .empty .empty).1 _).disabled "truce" excluded⟩

end StoryEngine
