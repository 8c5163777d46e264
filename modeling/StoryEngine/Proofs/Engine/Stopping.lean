import StoryEngine.Proofs.Engine.Suspension
import StoryEngine.Stock.Table

/-!
# Stopping

A handler can stop the run that it works for, and no action begins while the run is stopped. A
run is in one phase at a time, though, and the last call decides which: a handler that shows a
message or offers choices after a stop makes the run wait instead. Such a run can be resumed, and
then goes on with its next action.

Specification: `SPEC_FULL.md` §4.4, which has `Stop` abort the remaining actions.
-/

namespace StoryEngine

variable {ν : Type}

/-- The phase of a run after an entry of its journal, given the phase before. -/
def Phase.after (phase : Phase) : Entry ν → Phase
  | .called (.showMessage _) | .called (.offerChoices ..) => .waiting
  | .called .stop => .stopped
  | .logged (.resuming ..) => if phase = .waiting then .running else phase
  | _ => phase

/-- Actions begin only where the run is running, given the phase before the entries. -/
def Entry.BeginRunning (phase : Phase) : List (Entry ν) → Prop
  | [] => True
  | entry :: rest =>
      (entry.isBegan = true → phase = .running) ∧ BeginRunning (phase.after entry) rest

/-- After a stop no action begins unless a call in between has suspended the run. -/
def Entry.StopsUnlessSuspended (entries : List (Entry ν)) : Prop :=
  ∀ before inner began later, began.isBegan = true →
    entries = before ++ .called .stop :: (inner ++ began :: later) →
    ∃ c, .called c ∈ inner ∧ c.Suspends

/-- Whether a handler stops the run. -/
def Entry.isStop : Entry ν → Bool
  | .called .stop => true
  | _ => false

/-- No action begins after the first stop. -/
def Entry.StopsForGood (entries : List (Entry ν)) : Prop :=
  (entries.dropWhile fun entry ↦ !entry.isStop).all fun entry ↦ !entry.isBegan

namespace Entry

private theorem beginRunning_append (phase : Phase) (entries later : List (Entry ν)) :
    BeginRunning phase (entries ++ later) ↔
      BeginRunning phase entries ∧ BeginRunning (entries.foldl Phase.after phase) later := by
  induction entries generalizing phase with
  | nil => simp [BeginRunning]
  | cons entry rest ih => simp only [List.cons_append, BeginRunning, ih, and_assoc, List.foldl_cons]

/-- What is logged begins no action. -/
private theorem beginRunning_logged {phase : Phase} {record : LogRecord} {rest : List (Entry ν)} :
    BeginRunning phase (.logged record :: rest) ↔
      BeginRunning (phase.after (.logged record : Entry ν)) rest := by
  simp [BeginRunning, isBegan]

/-- Only a call that suspends a run ends its being stopped. -/
private theorem foldl_after_stopped {inner : List (Entry ν)}
    (none : ∀ c, .called c ∈ inner → ¬ c.Suspends) :
    inner.foldl Phase.after .stopped = .stopped := by
  induction inner with
  | nil => rfl
  | cons entry rest ih =>
    have here : Phase.after .stopped entry = .stopped := by
      unfold Phase.after
      split
      · exact absurd trivial (none _ List.mem_cons_self)
      · exact absurd trivial (none _ List.mem_cons_self)
      · rfl
      · rfl
      · rfl
    rw [List.foldl_cons, here]
    exact ih fun c member ↦ none c (List.mem_cons_of_mem entry member)

private theorem BeginRunning.stopsUnlessSuspended {entries : List (Entry ν)}
    (begins : BeginRunning .running entries) : StopsUnlessSuspended entries := by
  rintro before inner began later isBegan rfl
  apply Classical.byContradiction
  intro none
  obtain ⟨-, -, begins⟩ := (beginRunning_append _ _ _).1 begins
  have stopped := foldl_after_stopped fun c member suspends ↦ none ⟨c, member, suspends⟩
  have running := ((beginRunning_append _ _ _).1 begins).2.1 isBegan
  exact absurd (stopped.symm.trans running) (by decide)

end Entry

/-! ### Playing -/

/-- From one scene to the other the phase of the run is what the entries make of it, and actions
begin only where the run is running. -/
def Scene.Phased (s t : Scene ν) : Prop :=
  ∃ entries, t.journal.toList = s.journal.toList ++ entries ∧
    t.run.phase = entries.foldl Phase.after s.run.phase ∧
    Entry.BeginRunning s.run.phase entries

namespace Scene

variable {s t : Scene ν}

private theorem Phased.of_push (entry : Entry ν) (journal : t.journal = s.journal.push entry)
    (phase : t.run.phase = s.run.phase.after entry)
    (begins : entry.isBegan = true → s.run.phase = .running) : Phased s t := by
  refine ⟨[entry], ?_, phase, begins, trivial⟩
  rw [journal, Array.toList_push]

private theorem Phased.trans {u : Scene ν} (first : Phased s t) (second : Phased t u) :
    Phased s u := by
  obtain ⟨entries, journal, phase, begins⟩ := first
  obtain ⟨later, journal', phase', begins'⟩ := second
  rw [phase] at phase' begins'
  refine ⟨entries ++ later, ?_, ?_, (Entry.beginRunning_append _ _ _).2 ⟨begins, begins'⟩⟩
  · rw [journal', journal, List.append_assoc]
  · rw [phase', List.foldl_append]

private theorem frame_phased : Frame (Phased (ν := ν)) where
  refl s := ⟨[], (List.append_nil _).symm, rfl, trivial⟩
  trans := .trans
  call s c := by
    apply Phased.of_push (.called c)
    · cases c <;> rfl
    · cases c <;> rfl
    · intro impossible
      cases impossible
  unhandled s id := .of_push _ rfl rfl fun impossible ↦ by cases impossible

/-- Actions are performed only while the run is running. -/
theorem perform_phased (handlers : Handlers ν) (actions : List Action)
    (goes : s.run.phase ≠ .waiting) : Phased s (s.perform handlers actions) := by
  have turned {s : Scene ν} (action : Action) (going : ¬ s.run.phase = .stopped)
      (goes : s.run.phase ≠ .waiting) : Phased s (s.turn handlers action) := by
    have running : s.run.phase = .running := by
      cases phase : s.run.phase with
      | running => rfl
      | stopped => exact absurd phase going
      | waiting => exact absurd phase goes
    refine Phased.trans ?_ (frame_phased.dispatch handlers action _)
    exact .of_push (.began s.run.event.id s.run.next action) rfl rfl fun _ ↦ running
  fun_induction Scene.perform handlers actions s with
  | case1 s => exact frame_phased.refl s
  | case2 action rest s stopped => exact frame_phased.refl s
  | case3 action rest s going index begun after waiting =>
    exact (turned action going goes).trans (.of_push _ rfl rfl fun impossible ↦ by cases impossible)
  | case4 action rest s going index begun after waiting ih =>
    exact (turned action going goes).trans (ih fun waits ↦ waiting (beq_iff_eq.2 waits))

end Scene

/-! ### What the host holds -/

namespace Holding

/-- The phase of the run is what its journal makes of it, and its actions have begun only where it
was running. -/
structure Phased (h : Holding ν) : Prop where
  phase : h.run.phase = h.entries.foldl Phase.after .running
  begins : Entry.BeginRunning .running h.entries

variable {h : Holding ν}

/-- Playing on from what is held, with a record of why the run was played. -/
private theorem Phased.of_played {s t : Scene ν} (engine : Engine ν) (earlier : List (Entry ν))
    {record : LogRecord} (begins : Entry.BeginRunning .running earlier)
    (goes : (earlier.foldl Phase.after .running).after (.logged record : Entry ν) = s.run.phase)
    {entries : List (Entry ν)} (phase : t.run.phase = entries.foldl Phase.after s.run.phase)
    (played : Entry.BeginRunning s.run.phase entries) :
    Phased ⟨engine, t.run, earlier ++ .logged record :: entries⟩ := by
  constructor
  · show t.run.phase = _
    rw [phase, List.foldl_append, List.foldl_cons, goes]
  · apply (Entry.beginRunning_append _ _ _).2
    refine ⟨begins, Entry.beginRunning_logged.2 ?_⟩
    rw [goes]
    exact played

private theorem fired_phased (e : Engine ν) (s : Stage ν) (event : Event) :
    (fired e s event).Phased := by
  let scene : Scene ν := { s.log (.firing event) with run := .start event }
  have goes : scene.run.phase ≠ .waiting := by
    intro waiting
    cases waiting
  obtain ⟨entries, journal, phase, begins⟩ :=
    Scene.perform_phased e.handlers scene.run.remaining goes
  show Phased ⟨_, (scene.play e.handlers).run, (fired e s event).entries⟩
  rw [entries_fired journal]
  exact .of_played _ [] trivial rfl phase begins

private theorem Phased.step (phased : h.Phased) (step : Step ν) : (h.step step).Phased := by
  cases step with
  | meanwhile c => exact ⟨phased.phase, phased.begins⟩
  | resume choice =>
    by_cases waiting : h.run.phase = .waiting
    · obtain ⟨entries, journal, phase, begins⟩ :=
        Scene.perform_phased h.engine.handlers (h.again choice).run.remaining (h.goes_again choice)
      rw [Holding.step, perform_resume waiting]
      show Phased ⟨_, _, _ ++ ((h.again choice).play h.engine.handlers).journal.toList⟩
      rw [Scene.play, journal]
      refine .of_played _ _ phased.begins ?_ phase begins
      rw [← phased.phase, waiting]
      rfl
    · rw [Holding.step, perform_resume_idle waiting]
      constructor
      · show h.run.phase = _
        rw [phased.phase, List.foldl_append]
        rfl
      · apply (Entry.beginRunning_append _ _ _).2
        exact ⟨phased.begins, Entry.beginRunning_logged.2 trivial⟩

private theorem Phased.after (phased : h.Phased) (steps : List (Step ν)) :
    (h.after steps).Phased := by
  induction steps generalizing h with
  | nil => exact phased
  | cons step rest ih => exact ih (phased.step step)

end Holding

/-- Once a handler has stopped a run, none of its actions begins, in the same call or after the
run was resumed, unless a later call in the action that was stopped has made the run wait. -/
theorem Engine.stops_unlessSuspended (e : Engine ν) (s : Stage ν) (event : Event)
    (steps : List (Holding.Step ν)) :
    let h := (Holding.fired e s event).after steps
    Entry.StopsUnlessSuspended h.entries ∧
      h.run.phase = h.entries.foldl Phase.after .running := by
  intro h
  have phased := (Holding.fired_phased e s event).after steps
  exact ⟨phased.begins.stopsUnlessSuspended, phased.phase⟩

/-- A run that shows a message after a stop can be resumed, and its next action begins. -/
theorem Engine.not_stopsForGood_farewell :
    let e : Engine Stock.Note :=
      .create {} none .empty
        (Stock.table (((∅ : Std.ExtTreeMap String Stock.Kind).insert "Seq" .seq).insert
          "Stop" .stop |>.insert "Message" .message |>.insert "Record" .record))
    let event : Event :=
      { id := "farewell"
        actions := [⟨"Seq", [("actions", .list [.map [("id", .text "Stop")],
          .map [("id", .text "Message")]])]⟩, ⟨"Record", []⟩] }
    ¬ Entry.StopsForGood ((Holding.fired e e.stage event).after [.resume none]).entries := by
  intro e event
  unfold Entry.StopsForGood
  decide +kernel

end StoryEngine
