import StoryEngine.Proofs.Engine.Processing

/-!
# Occurrence

An event has occurred if it has fired in the current game. An event that fires only once relies
on this alone: its own disabling can be undone by enabling it, by registering it again or by
removing it, and its id may be listed several times.

Specification: `SPEC_FULL.md` §3 (invariants) and §8 (once semantics).
-/

namespace StoryEngine

variable {ν : Type}

/-- The flags record which events have fired: an event has occurred if it is one of them, and
none of its id fired before an event that fires only once. -/
structure Flags.Records (flags : Flags) (fired : List Event) : Prop where
  occurred : ∀ id, flags.hasOccurred id = true ↔ ∃ e ∈ fired, e.id = id
  once : fired.Pairwise fun earlier later ↦ later.once = true → earlier.id ≠ later.id

namespace Flags.Records

variable {flags flags' : Flags} {fired : List Event}

private theorem clear : Flags.clear.Records [] where
  occurred id := by simp
  once := .nil

private theorem of_occurred (records : flags.Records fired)
    (same : flags'.occurred = flags.occurred) :
    flags'.Records fired := by
  refine ⟨fun id ↦ ?_, records.once⟩
  rw [← records.occurred id, hasOccurred, same, hasOccurred]

/-- A firing is recorded, provided that the event was not used up. -/
private theorem snoc {e : Event} (records : flags.Records fired)
    (unused : ¬ (e.once = true ∧ flags.hasOccurred e.id = true))
    (marked : ∀ id, flags'.hasOccurred id = (e.id == id || flags.hasOccurred id)) :
    flags'.Records (fired ++ [e]) where
  occurred id := by
    rw [marked, Bool.or_eq_true, records.occurred, beq_iff_eq]
    constructor
    · rintro (here | ⟨other, member, same⟩)
      · exact ⟨e, List.mem_append_right _ (List.mem_singleton_self e), here⟩
      · exact ⟨other, List.mem_append_left _ member, same⟩
    · rintro ⟨other, member, same⟩
      rcases List.mem_append.1 member with member | member
      · exact .inr ⟨other, member, same⟩
      · cases List.mem_singleton.1 member
        exact .inl same
  once := by
    apply List.pairwise_append.2
    refine ⟨records.once, List.pairwise_singleton _ e, ?_⟩
    intro earlier member later last once same
    cases List.mem_singleton.1 last
    exact unused ⟨once, (records.occurred e.id).2 ⟨earlier, member, same⟩⟩

end Flags.Records

/-! ### Firing -/

namespace Stage

private theorem hasOccurred_settle (s : Stage ν) (e : Event) (id : String) :
    (s.settle e).world.flags.hasOccurred id = (e.id == id || s.world.flags.hasOccurred id) := by
  unfold settle
  dsimp only
  split
  · simp
  · simp

/-- A firing marks its event as occurred, and no other. -/
theorem hasOccurred_fire (handlers : Handlers ν) (s : Stage ν) (e : Event) (id : String) :
    (s.fire handlers e).2.world.flags.hasOccurred id =
      (e.id == id || s.world.flags.hasOccurred id) := by
  let scene : Scene ν := { s.log (.firing e) with run := .start e }
  have played := scene.occurred_play handlers
  show ((scene.play handlers).toStage.settle e).world.flags.hasOccurred id = _
  rw [hasOccurred_settle, Flags.hasOccurred, played]
  rfl

/-- The flags of a stage record what fired earlier and what its journal says has fired since. -/
def Records (earlier : List Event) (s : Stage ν) : Prop :=
  s.world.flags.Records (earlier ++ s.journal.toList.filterMap Entry.fired?)

variable {earlier : List Event} {s t : Stage ν}

private theorem Records.of_quiet {processed : List String} (records : s.Records earlier)
    (noted : Notes [] processed s t) (same : t.world.flags.occurred = s.world.flags.occurred) :
    t.Records earlier := by
  obtain ⟨notes, journal, fired, -⟩ := noted
  unfold Records
  rw [journal, List.filterMap_append, fired, List.append_nil]
  exact Flags.Records.of_occurred records same

private theorem Tested.occurred {e : Event} (tested : Tested e s t) :
    t.world.flags.occurred = s.world.flags.occurred := by
  obtain ⟨draws, -, world⟩ := tested.world
  rw [world]

private theorem Records.fire (records : s.Records earlier) (handlers : Handlers ν) {e : Event}
    (unused : ¬ (e.once = true ∧ s.world.flags.hasOccurred e.id = true)) :
    (s.fire handlers e).2.Records earlier := by
  obtain ⟨notes, journal, fired, -⟩ := (fire_keeps handlers s e).2
  unfold Records
  rw [journal, List.filterMap_append, fired, ← List.append_assoc]
  exact Flags.Records.snoc records unused (s.hasOccurred_fire handlers e)

/-- Processing keeps the record: an event is tested against it at its turn, and a firing is
recorded before the next event is tested. -/
theorem kept_records (catalog : Catalog) (handlers : Handlers ν) (earlier : List Event) :
    Kept catalog handlers (Records earlier) fun _ ↦ Records earlier where
  taken {s signal queue} _ records := by
    obtain ⟨-, world, noted⟩ := s.take_eq signal queue
    apply records.of_quiet noted
    rw [world]
  tested {trigger s id e} _ _ records := by
    have tested := (s.admits_spec e).2
    exact records.of_quiet tested.quiet tested.occurred
  fired {trigger s id e} _ _ admitted records := by
    have tested := (s.admits_spec e).2
    apply (records.of_quiet tested.quiet tested.occurred).fire
    rw [Flags.hasOccurred, tested.occurred]
    exact admitted.1.2
  scanned records := records
  shut trigger records := records.of_quiet (notes_note _ _) rfl
  capped cap pending records := records.of_quiet (notes_note _ _) rfl

end Stage

/-! ### Games -/

namespace Playthrough

/-- The flags record what has fired in the current game. -/
def Recorded (p : Playthrough ν) : Prop :=
  p.engine.world.flags.Records p.fired

variable {p : Playthrough ν}

private theorem begin_recorded (config : Config) (draws : Option Draws) (store : Store)
    (handlers : Handlers ν) : (begin config draws store handlers).Recorded :=
  .clear

private theorem Recorded.calm (recorded : p.Recorded) {c : Command ν}
    (goes : p.earlier c = p.journal)
    (calm : (p.engine.perform c).IsCalm p.engine) : (p.step c).Recorded := by
  unfold Recorded fired step
  dsimp only
  rw [List.filterMap_append, goes, calm.1, List.append_nil]
  exact Flags.Records.of_occurred recorded calm.2

/-- The stage of the engine goes on from what has fired in the game. -/
private theorem Recorded.stage (recorded : p.Recorded) : p.engine.stage.Records p.fired := by
  unfold Stage.Records
  rw [show p.engine.stage.journal.toList.filterMap Entry.fired? = [] from rfl, List.append_nil]
  exact recorded

private theorem Recorded.of_stage {c : Command ν} {s : Stage ν} (goes : p.earlier c = p.journal)
    (world : (p.engine.perform c).engine.world = s.world)
    (journal : (p.engine.perform c).journal = s.journal) (records : s.Records p.fired) :
    (p.step c).Recorded := by
  unfold Recorded fired step
  dsimp only
  rw [List.filterMap_append, goes, world, journal]
  exact records

private theorem Recorded.step (recorded : p.Recorded) (c : Command ν) : (p.step c).Recorded := by
  cases c with
  | processNext =>
    exact .of_stage rfl rfl rfl ((Stage.kept_records _ _ _).processNext recorded.stage)
  | processPending =>
    exact .of_stage rfl rfl rfl ((Stage.kept_records _ _ _).processPending _ recorded.stage)
  | restart => exact Flags.Records.clear
  | _ => exact recorded.calm rfl (p.engine.perform_isCalm trivial)

/-- Of the events that fire only once, each id fires at most once. -/
theorem Recorded.length_le_one (recorded : p.Recorded) (id : String) :
    (p.fired.filter fun e ↦ e.once && e.id == id).length ≤ 1 := by
  have alone : (p.fired.filter fun e ↦ e.once && e.id == id).Pairwise fun _ _ ↦ False := by
    apply (recorded.once.filter _).imp_of_mem
    intro earlier later first second apart
    simp only [List.mem_filter, Bool.and_eq_true, beq_iff_eq] at first second
    exact apart second.2.1 (first.2.2.trans second.2.2.symm)
  generalize p.fired.filter _ = firings at alone
  cases alone with
  | nil => exact Nat.zero_le 1
  | @cons first rest none _ =>
    have nothing : rest = [] := List.eq_nil_iff_forall_not_mem.2 none
    rw [nothing]
    exact Nat.le_refl 1

/-- Whatever a host does in a game, an event that fires only once never fires after an event of
its id, and the events that have occurred are those that have fired. -/
theorem once_fires_once (config : Config) (draws : Option Draws) (store : Store)
    (handlers : Handlers ν) (commands : List (Command ν)) :
    let p := (begin config draws store handlers).after commands
    (p.fired.Pairwise fun earlier later ↦ later.once = true → earlier.id ≠ later.id) ∧
    (∀ id, (p.fired.filter fun e ↦ e.once && e.id == id).length ≤ 1) ∧
    ∀ id, (p.engine.perform (.hasOccurred id)).answer = true ↔ ∃ e ∈ p.fired, e.id = id := by
  intro p
  have recorded : p.Recorded :=
    after_keeps (fun c recorded ↦ recorded.step c) commands
      (begin_recorded config draws store handlers)
  exact ⟨recorded.once, recorded.length_le_one, recorded.occurred⟩

end Playthrough

end StoryEngine
