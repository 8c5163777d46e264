import StoryEngine.Proofs.Engine.Dispatch

/-!
# Journals are only written

Nothing that happens on a stage depends on what its journal says already: with more in the journal
before, the same happens, the same is answered, and what was there before stays in front. The
handlers of a table may be given any depth that is deep enough, so that a table cannot read the
journal either.
-/

namespace StoryEngine

variable {ν α : Type} (earlier : Array (Entry ν))

/-- The stage with more in its journal before. -/
def Stage.prepend (s : Stage ν) : Stage ν :=
  { s with journal := earlier ++ s.journal }

/-- The scene with more in its journal before. -/
def Scene.prepend (s : Scene ν) : Scene ν :=
  { s with journal := earlier ++ s.journal }

/-! ### Scripts -/

namespace Scene

private theorem note_prepend (s : Scene ν) (entry : Entry ν) :
    (s.prepend earlier).note entry = (s.note entry).prepend earlier := by
  simp [prepend, note, Stage.note]

private theorem answer_prepend (s : Scene ν) (c : Call ν) :
    (s.prepend earlier).answer c = Prod.map id (prepend earlier) (s.answer c) := by
  cases c <;> rfl

end Scene

namespace Script

variable {dispatch dispatch' : Action → Scene ν → Option (Bool × Scene ν)}

private theorem perform_prepend
    (inner : ∀ action s, dispatch action (s.prepend earlier) =
      (dispatch action s).map (Prod.map id (Scene.prepend earlier)))
    (script : Script ν α) (s : Scene ν) :
    script.perform dispatch (s.prepend earlier) =
      (script.perform dispatch s).map (Prod.map id (Scene.prepend earlier)) := by
  induction script generalizing s with
  | done a => rfl
  | call c next ih =>
    simp only [perform, Scene.note_prepend, Scene.answer_prepend]
    exact ih _ _
  | dispatch action next ih =>
    simp only [perform, inner]
    cases dispatch action s with
    | none => rfl
    | some made => exact ih _ _

/-- A script does the same with dispatches that go deeper. -/
theorem perform_mono
    (inner : ∀ action s made, dispatch action s = some made → dispatch' action s = some made)
    (script : Script ν α) {s : Scene ν} {made : α × Scene ν}
    (performed : script.perform dispatch s = some made) :
    script.perform dispatch' s = some made := by
  induction script generalizing s with
  | done a => exact performed
  | call c next ih => exact ih _ performed
  | dispatch action next ih =>
    simp only [perform] at performed ⊢
    cases done : dispatch action s with
    | none =>
      rw [done] at performed
      cases performed
    | some pair =>
      rw [done] at performed
      rw [inner _ _ _ done]
      exact ih _ performed

end Script

/-! ### Dispatches -/

section

variable (handler? : String → Option (Handler ν))

private theorem dispatchWithin_prepend (depth : Nat) (action : Action) (s : Scene ν) :
    dispatchWithin handler? depth action (s.prepend earlier) =
      (dispatchWithin handler? depth action s).map (Prod.map id (Scene.prepend earlier)) := by
  induction depth generalizing action s with
  | zero => rfl
  | succ depth ih =>
    simp only [dispatchWithin]
    cases handler? action.id with
    | none => exact congrArg (fun t ↦ some (false, t)) (s.note_prepend earlier _)
    | some handler =>
      simp only [Script.perform_prepend earlier ih, Option.map_map]
      rfl

private theorem dispatchWithin_succ {depth : Nat} {action : Action} {s : Scene ν}
    {made : Bool × Scene ν}
    (done : dispatchWithin handler? depth action s = some made) :
    dispatchWithin handler? (depth + 1) action s = some made := by
  induction depth generalizing action s made with
  | zero => cases done
  | succ depth ih =>
    rw [dispatchWithin] at done ⊢
    split at done
    · exact done
    · obtain ⟨performed, inner, same⟩ := Option.map_eq_some_iff.1 done
      exact Option.map_eq_some_iff.2
        ⟨performed, Script.perform_mono (fun _ _ _ ↦ ih) _ inner, same⟩

private theorem dispatchWithin_mono {depth deeper : Nat} (le : depth ≤ deeper) {action : Action}
    {s : Scene ν} {made : Bool × Scene ν}
    (done : dispatchWithin handler? depth action s = some made) :
    dispatchWithin handler? deeper action s = some made := by
  induction le with
  | refl => exact done
  | step _ ih => exact dispatchWithin_succ handler? ih

end

namespace Handlers

/-- A dispatch does what it does within any depth that is deep enough. -/
theorem dispatch_eq (t : Handlers ν) {depth : Nat} {action : Action} {s : Scene ν}
    {made : Bool × Scene ν} (done : dispatchWithin (t.handlers[·]?) depth action s = some made) :
    t.dispatch action s = made := by
  have own : dispatchWithin (t.handlers[·]?) (t.depth action s) action s =
      some (t.dispatch action s) := (Option.some_get _).symm
  have own := dispatchWithin_mono _ (Nat.le_max_left _ depth) own
  have done := dispatchWithin_mono _ (Nat.le_max_right (t.depth action s) depth) done
  exact Option.some.inj (own.symm.trans done)

private theorem dispatch_prepend (t : Handlers ν) (action : Action) (s : Scene ν) :
    t.dispatch action (s.prepend earlier) =
      Prod.map id (Scene.prepend earlier) (t.dispatch action s) := by
  have own : dispatchWithin (t.handlers[·]?) (t.depth action s) action s =
      some (t.dispatch action s) := (Option.some_get _).symm
  apply t.dispatch_eq
  rw [dispatchWithin_prepend, own, Option.map_some]

end Handlers

/-! ### Runs -/

namespace Scene

private theorem turn_prepend (handlers : Handlers ν) (action : Action) (s : Scene ν) :
    (s.prepend earlier).turn handlers action = (s.turn handlers action).prepend earlier := by
  have begun : ((s.prepend earlier).note (.began s.run.event.id s.run.next action)).mapRun
      ({ · with next := s.run.next + 1 }) =
      ((s.note (.began s.run.event.id s.run.next action)).mapRun
        ({ · with next := s.run.next + 1 })).prepend earlier := by
    rw [note_prepend]
    rfl
  exact congrArg Prod.snd ((congrArg _ begun).trans (handlers.dispatch_prepend earlier action _))

private theorem perform_cons (handlers : Handlers ν) (action : Action) (rest : List Action)
    (s : Scene ν) :
    s.perform handlers (action :: rest) =
      if s.run.phase = .stopped then s
      else if (s.turn handlers action).run.isWaiting then
        (s.turn handlers action).log
          (.waiting (s.turn handlers action).run.event.id s.run.next action.id)
      else (s.turn handlers action).perform handlers rest :=
  rfl

private theorem perform_prepend (handlers : Handlers ν) (actions : List Action) (s : Scene ν) :
    (s.prepend earlier).perform handlers actions =
      (s.perform handlers actions).prepend earlier := by
  induction actions generalizing s with
  | nil => rfl
  | cons action rest ih =>
    rw [perform_cons, perform_cons, turn_prepend, ih]
    show (if s.run.phase = .stopped then _ else if (s.turn handlers action).run.isWaiting then
      _ else _) = _
    split
    · rfl
    · split
      · exact note_prepend earlier _ _
      · rfl

private theorem play_prepend (handlers : Handlers ν) (s : Scene ν) :
    (s.prepend earlier).play handlers = (s.play handlers).prepend earlier :=
  perform_prepend earlier handlers s.run.remaining s

end Scene

/-! ### Processing -/

namespace Stage

variable (catalog : Catalog) (handlers : Handlers ν)

/-- The stage with nothing in its journal. -/
def blank (s : Stage ν) : Stage ν :=
  { s with journal := #[] }

/-- A stage is its blank with its journal before it. -/
theorem prepend_blank (s : Stage ν) : s.blank.prepend s.journal = s := by
  show (⟨s.world, s.journal ++ #[]⟩ : Stage ν) = s
  rw [Array.append_empty]

private theorem world_prepend (s : Stage ν) : (s.prepend earlier).world = s.world :=
  rfl

private theorem note_prepend (s : Stage ν) (entry : Entry ν) :
    (s.prepend earlier).note entry = (s.note entry).prepend earlier := by
  simp [prepend, note]

private theorem log_prepend (s : Stage ν) (record : LogRecord) :
    (s.prepend earlier).log record = (s.log record).prepend earlier :=
  note_prepend earlier s _

private theorem roll_prepend (s : Stage ν) (subject : Subject) (p : Float) :
    (s.prepend earlier).roll subject p =
      ((s.roll subject p).1, (s.roll subject p).2.prepend earlier) := by
  simp [prepend, note, roll]

private theorem noteFinding_prepend (id : String) (s : Stage ν)
    (finding : Condition × Except Expression.Failure Bool) :
    noteFinding id (s.prepend earlier) finding = (noteFinding id s finding).prepend earlier := by
  rcases finding with ⟨c, failure | held⟩
  · simp only [noteFinding, log, note_prepend]
  · exact note_prepend earlier s _

private theorem test_prepend (s : Stage ν) (e : Event) :
    (s.prepend earlier).test e = ((s.test e).1, (s.test e).2.prepend earlier) := by
  have noted (findings : List (Condition × Except Expression.Failure Bool)) (s : Stage ν) :
      findings.foldl (noteFinding e.id) (s.prepend earlier) =
        (findings.foldl (noteFinding e.id) s).prepend earlier := by
    induction findings generalizing s with
    | nil => rfl
    | cons finding rest ih => rw [List.foldl_cons, noteFinding_prepend, ih, List.foldl_cons]
  unfold test
  dsimp only
  rw [noted]
  rfl

private theorem admits_prepend (s : Stage ν) (e : Event) :
    (s.prepend earlier).admits e = ((s.admits e).1, (s.admits e).2.prepend earlier) := by
  unfold admits
  rw [test_prepend]
  dsimp only
  rw [roll_prepend, world_prepend]
  simp only [log_prepend]
  cases s.world.flags.isEnabled e.id with
  | false => rfl
  | true =>
    cases e.once && s.world.flags.hasOccurred e.id with
    | true => rfl
    | false =>
      cases (s.test e).1 with
      | false => rfl
      | true =>
        cases ((s.test e).2.roll (.event e.id) e.probability).1 with
        | false => rfl
        | true => rfl

private theorem fire_prepend (s : Stage ν) (e : Event) :
    (s.prepend earlier).fire handlers e =
      ((s.fire handlers e).1, (s.fire handlers e).2.prepend earlier) := by
  have fires : ({ (s.prepend earlier).log (.firing e) with run := .start e } : Scene ν) =
      Scene.prepend earlier { s.log (.firing e) with run := .start e } := by
    rw [log_prepend]
    rfl
  unfold fire
  dsimp only
  rw [fires, Scene.play_prepend]
  rfl

private theorem scan_prepend (ids : List String) (s : Stage ν) :
    (s.prepend earlier).scan catalog handlers ids =
      ((s.scan catalog handlers ids).1, (s.scan catalog handlers ids).2.prepend earlier) := by
  induction ids generalizing s with
  | nil => rfl
  | cons id rest ih =>
    rw [scan_cons, scan_cons]
    cases catalog.find? id with
    | none => exact ih s
    | some e =>
      dsimp only
      simp only [admits_prepend, fire_prepend, ih]
      split
      · split
        · rfl
        · rfl
      · rfl

private theorem take_prepend (s : Stage ν) (signal : Signal) (queue : SignalQueue) :
    (s.prepend earlier).take signal queue =
      ((s.take signal queue).1, (s.take signal queue).2.prepend earlier) := by
  unfold take
  rw [← roll_prepend, ← log_prepend]
  rfl

private theorem processNext_prepend (s : Stage ν) :
    (s.prepend earlier).processNext catalog handlers =
      ((s.processNext catalog handlers).1,
        (s.processNext catalog handlers).2.prepend earlier) := by
  cases popped : s.world.queue.pop? with
  | none =>
    have drained : (s.prepend earlier).world.queue.pop? = none := popped
    rw [processNext, processNext, popped, drained]
  | some taken =>
    obtain ⟨signal, queue⟩ := taken
    have popped' : (s.prepend earlier).world.queue.pop? = some (signal, queue) := popped
    rw [processNext_pop popped, processNext_pop popped']
    simp only [take_prepend, scan_prepend, log_prepend]
    split
    · rfl
    · rfl

/-- What was in the journal before makes no difference to processing. -/
theorem processUpTo_prepend (n : Nat) (s : Stage ν) :
    (s.prepend earlier).processUpTo catalog handlers n =
      ((s.processUpTo catalog handlers n).1,
        (s.processUpTo catalog handlers n).2.prepend earlier) := by
  induction n generalizing s with
  | zero => rfl
  | succ n ih =>
    rw [processUpTo, processUpTo, processNext_prepend]
    rcases s.processNext catalog handlers with ⟨answer, t⟩
    show (if s.world.queue.isEmpty = true then _ else _) = _
    split
    · rfl
    · cases answer with
      | none => exact ih t
      | some run => rfl

/-! ### What has been written stays -/

variable {catalog : Catalog} {handlers : Handlers ν} {s : Stage ν} {entry : Entry ν}

private theorem mem_prepend (written : entry ∈ earlier) : entry ∈ (s.prepend earlier).journal :=
  Array.mem_append_left s.journal written

/-- A scan keeps what is in the journal. -/
theorem mem_scan (ids : List String) (written : entry ∈ s.journal) :
    entry ∈ (s.scan catalog handlers ids).2.journal := by
  rw [← s.prepend_blank, scan_prepend]
  exact mem_prepend _ written

/-- Processing keeps what is in the journal. -/
theorem mem_processUpTo (n : Nat) (written : entry ∈ s.journal) :
    entry ∈ (s.processUpTo catalog handlers n).2.journal := by
  rw [← s.prepend_blank, processUpTo_prepend]
  exact mem_prepend _ written

/-! ### Stages of one world -/

private theorem blank_eq {t : Stage ν} (same : t.world = s.world) : t.blank = s.blank := by
  unfold blank
  rw [same]

/-- A scan depends on the world only, not on the journal. -/
theorem scan_world (catalog : Catalog) (handlers : Handlers ν) {t : Stage ν}
    (same : t.world = s.world) (ids : List String) :
    (t.scan catalog handlers ids).1 = (s.scan catalog handlers ids).1 ∧
      (t.scan catalog handlers ids).2.world = (s.scan catalog handlers ids).2.world := by
  rw [← s.prepend_blank, ← t.prepend_blank, scan_prepend, scan_prepend, blank_eq same]
  exact ⟨rfl, rfl⟩

/-- Processing depends on the world only, not on the journal. -/
theorem processUpTo_world (catalog : Catalog) (handlers : Handlers ν) {t : Stage ν}
    (same : t.world = s.world) (n : Nat) :
    (t.processUpTo catalog handlers n).1 = (s.processUpTo catalog handlers n).1 ∧
      (t.processUpTo catalog handlers n).2.world = (s.processUpTo catalog handlers n).2.world := by
  rw [← s.prepend_blank, ← t.prepend_blank, processUpTo_prepend, processUpTo_prepend,
    blank_eq same]
  exact ⟨rfl, rfl⟩

end Stage

end StoryEngine
