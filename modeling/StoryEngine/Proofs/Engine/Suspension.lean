import StoryEngine.Proofs.Engine.Dispatch

/-!
# Suspension

A run may wait and be resumed any number of times, and the host may do anything in between. Its
journal shows that the actions of the event that fired begin in order, each once, and that the
place of the run is where the next one stands.

Specification: `SPEC_FULL.md` §4.4 and §8 (suspend and resume).
-/

namespace StoryEngine

variable {ν : Type}

/-- Whether an action begins. -/
def Entry.isBegan : Entry ν → Bool
  | .began .. => true
  | _ => false

/-- The beginning of every action of an event, in order. -/
def Event.plan (event : Event) : List (Entry ν) :=
  event.actions.mapIdx fun index action ↦ .began event.id index action

private theorem Event.plan_take_succ {event : Event} {index : Nat} {action : Action}
    (there : event.actions[index]? = some action) :
    event.plan.take (index + 1) =
      event.plan.take index ++ [(.began event.id index action : Entry ν)] := by
  have planned : (event.plan : List (Entry ν))[index]? = some (.began event.id index action) := by
    unfold plan
    rw [List.getElem?_mapIdx, there, Option.map_some]
  rw [List.take_add_one, planned, Option.toList_some]

private theorem Entry.isBegan_inner {entry : Entry ν} (inner : entry.IsInner) :
    entry.isBegan = false := by
  unfold IsInner at inner
  split at inner
  · rfl
  · rfl
  · exact inner.elim

private theorem Entry.filter_isBegan_inner {inner : List (Entry ν)}
    (all : ∀ entry ∈ inner, entry.IsInner) : inner.filter isBegan = [] := by
  apply List.filter_eq_nil_iff.2
  intro entry member
  rw [isBegan_inner (all entry member)]
  exact Bool.false_ne_true

/-! ### Playing -/

/-- The scene after some actions, each of which is dispatched. -/
def Scene.turns (handlers : Handlers ν) (actions : List Action) (s : Scene ν) : Scene ν :=
  actions.foldl (fun s action ↦ s.turn handlers action) s

/-- Playing dispatches the actions from the place before to the place after it, one after the
other, and changes nothing else. -/
def Scene.PlaysInTurn (handlers : Handlers ν) (s : Scene ν) : Prop :=
  ∃ count, (s.play handlers).run.next = s.run.next + count ∧
    (s.play handlers).run = (s.turns handlers (s.run.remaining.take count)).run ∧
    (s.play handlers).world = (s.turns handlers (s.run.remaining.take count)).world

/-- The run of an event waited in the action before the place `next`: that action began last, a
call of its handlers suspended the run, and nothing followed. -/
def Event.WaitedBefore (event : Event) (next : Nat) (entries : List (Entry ν)) : Prop :=
  ∃ before index action inner c,
    next = index + 1 ∧ event.actions[index]? = some action ∧
    entries = before ++ .began event.id index action ::
      (inner ++ [.logged (.waiting event.id index action.id)]) ∧
    (∀ entry ∈ inner, entry.IsInner) ∧ .called c ∈ inner ∧ c.Suspends

private theorem Event.WaitedBefore.append {event : Event} {next : Nat} {entries : List (Entry ν)}
    (waited : event.WaitedBefore next entries) (earlier : List (Entry ν)) :
    event.WaitedBefore next (earlier ++ entries) := by
  obtain ⟨before, index, action, inner, c, place, there, rfl, rest⟩ := waited
  exact ⟨earlier ++ before, index, action, inner, c, place, there,
    (List.append_assoc ..).symm, rest⟩

/-- The run of an event went from one place to another; its actions in between began in order,
and each once. -/
structure Scene.Advances (event : Event) (entries : List (Entry ν)) (s t : Scene ν) : Prop where
  fires : t.run.event = event
  choice : t.run.choice = s.run.choice
  journal : t.journal.toList = s.journal.toList ++ entries
  place : t.run.next ≤ event.actions.length
  begun : event.plan.take s.run.next ++ entries.filter Entry.isBegan =
    event.plan.take t.run.next

/-- The run of an event advanced as far as it could: it has come to the end, or has been stopped,
or waits in the action that began last. -/
structure Scene.Played (event : Event) (entries : List (Entry ν)) (s t : Scene ν) : Prop
    extends Advances event entries s t where
  finished : t.run.phase = .running → t.run.remaining = []
  waited : t.run.phase = .waiting → event.WaitedBefore t.run.next entries

namespace Scene

variable {event : Event} {s t : Scene ν} {handlers : Handlers ν}

private theorem next_turn (handlers : Handlers ν) (action : Action) (s : Scene ν) :
    (s.turn handlers action).run.next = s.run.next + 1 := by
  have acts : Acts _ (s.turn handlers action) := frame_acts.dispatch handlers action _
  exact acts.next

private theorem perform_turns (actions : List Action) (s : Scene ν) :
    ∃ count, (s.perform handlers actions).run.next = s.run.next + count ∧
      (s.perform handlers actions).run = (s.turns handlers (actions.take count)).run ∧
      (s.perform handlers actions).world = (s.turns handlers (actions.take count)).world := by
  fun_induction Scene.perform handlers actions s with
  | case1 s => exact ⟨0, rfl, rfl, rfl⟩
  | case2 action rest s stopped => exact ⟨0, rfl, rfl, rfl⟩
  | case3 action rest s going index begun after waiting =>
    exact ⟨1, next_turn handlers action s, rfl, rfl⟩
  | case4 action rest s going index begun after waiting ih =>
    obtain ⟨count, next, run, world⟩ := ih
    have turned : after.run.next = s.run.next + 1 := next_turn handlers action s
    exact ⟨count + 1, by omega, run, world⟩

/-- Actions are performed one after the other. -/
theorem playsInTurn (handlers : Handlers ν) (s : Scene ν) : s.PlaysInTurn handlers :=
  perform_turns s.run.remaining s

private theorem Advances.refl (fires : s.run.event = event)
    (place : s.run.next ≤ event.actions.length) :
    Advances event [] s s :=
  ⟨fires, rfl, by simp, place, by simp⟩

private theorem Advances.trans {u : Scene ν} {entries later : List (Entry ν)}
    (first : Advances event entries s t) (second : Advances event later t u) :
    Advances event (entries ++ later) s u where
  fires := second.fires
  choice := second.choice.trans first.choice
  journal := by rw [second.journal, first.journal, List.append_assoc]
  place := second.place
  begun := by rw [List.filter_append, ← List.append_assoc, first.begun, second.begun]

/-- What is logged is no beginning. -/
private theorem Advances.log {entries : List (Entry ν)} (record : LogRecord)
    (advances : Advances event entries s t) :
    Advances event (entries ++ [.logged record]) s (t.log record) where
  fires := advances.fires
  choice := advances.choice
  journal := by
    show (t.journal.push _).toList = _
    rw [Array.toList_push, advances.journal, List.append_assoc]
  place := advances.place
  begun := by
    show _ = event.plan.take t.run.next
    rw [List.filter_append, ← advances.begun]
    simp [Entry.isBegan]

private theorem getElem?_of_remaining {action : Action} {rest : List Action}
    (fires : s.run.event = event) (remaining : s.run.remaining = action :: rest) :
    event.actions[s.run.next]? = some action := by
  unfold Run.remaining at remaining
  rw [fires] at remaining
  rw [← List.head?_drop, remaining, List.head?_cons]

/-- A turn begins one action and moves the place past it, whatever the handlers do. -/
theorem turn_advances (handlers : Handlers ν) {action : Action} (fires : s.run.event = event)
    (there : event.actions[s.run.next]? = some action) :
    ∃ inner, Advances event (.began event.id s.run.next action :: inner) s
        (s.turn handlers action) ∧
      (s.turn handlers action).run.next = s.run.next + 1 ∧
      (∀ entry ∈ inner, entry.IsInner) ∧
      ((s.turn handlers action).run.isWaiting →
        s.run.phase = .waiting ∨ ∃ c, .called c ∈ inner ∧ c.Suspends) := by
  have acts : Acts _ (s.turn handlers action) := frame_acts.dispatch handlers action _
  obtain ⟨inner, journal, all, waits⟩ := acts.journal
  have place := next_turn handlers action s
  refine ⟨inner, ⟨acts.event.trans fires, acts.choice, ?_, ?_, ?_⟩, place, all, ?_⟩
  · rw [journal]
    show (s.journal.push _).toList ++ inner = _
    rw [Array.toList_push, fires, List.append_assoc, List.singleton_append]
  · have := (List.getElem?_eq_some_iff.1 there).1
    omega
  · have began : Entry.isBegan (.began event.id s.run.next action : Entry ν) = true := rfl
    rw [List.filter_cons_of_pos began, Entry.filter_isBegan_inner all, place,
      Event.plan_take_succ there]
  · intro waiting
    exact waits (eq_of_beq waiting)

private theorem remaining_turn {action : Action} {rest : List Action}
    (remaining : s.run.remaining = action :: rest) :
    (s.turn handlers action).run.remaining = rest := by
  have acts : Acts _ (s.turn handlers action) := frame_acts.dispatch handlers action _
  have fires : (s.turn handlers action).run.event = s.run.event := acts.event
  unfold Run.remaining at remaining ⊢
  rw [fires, next_turn, ← List.tail_drop, remaining, List.tail_cons]

/-- A run that does not wait is played as far as it goes. -/
private theorem perform_played (actions : List Action) (fires : s.run.event = event)
    (remaining : s.run.remaining = actions) (place : s.run.next ≤ event.actions.length)
    (goes : s.run.phase ≠ .waiting) :
    ∃ entries, Played event entries s (s.perform handlers actions) := by
  fun_induction Scene.perform handlers actions s with
  | case1 s =>
    refine ⟨[], .refl fires place, ?_, ?_⟩
    · intro _
      exact remaining
    · intro waiting
      exact absurd waiting goes
  | case2 action rest s stopped =>
    refine ⟨[], .refl fires place, ?_, ?_⟩
    · intro running
      exact absurd (stopped.symm.trans running) (by decide)
    · intro waiting
      exact absurd waiting goes
  | case3 action rest s going index begun after waiting =>
    obtain ⟨inner, advances, next, all, waits⟩ :=
      turn_advances handlers fires (getElem?_of_remaining fires remaining)
    refine ⟨_, advances.log _, ?_, ?_⟩
    · intro running
      exact absurd ((eq_of_beq waiting).symm.trans running) (by decide)
    · intro _
      obtain before | ⟨c, member, suspends⟩ := waits waiting
      · exact absurd before goes
      · refine ⟨[], _, action, inner, c, next, getElem?_of_remaining fires remaining, ?_, all,
          member, suspends⟩
        rw [show after.run.event = event from advances.fires]
        rfl
  | case4 action rest s going index begun after waiting ih =>
    obtain ⟨inner, advances, next, -⟩ :=
      turn_advances handlers fires (getElem?_of_remaining fires remaining)
    have left : after.run.remaining = rest := remaining_turn remaining
    have on : after.run.phase ≠ .waiting := by
      intro waits
      exact waiting (beq_iff_eq.2 waits)
    obtain ⟨entries, played⟩ := ih advances.fires left advances.place on
    refine ⟨_, advances.trans played.toAdvances, played.finished, ?_⟩
    intro waits
    exact (played.waited waits).append _

/-- A run that does not wait is played as far as it goes. -/
theorem play_played (handlers : Handlers ν) (fires : s.run.event = event)
    (place : s.run.next ≤ event.actions.length) (goes : s.run.phase ≠ .waiting) :
    ∃ entries, Played event entries s (s.play handlers) :=
  perform_played s.run.remaining fires rfl place goes

end Scene

/-! ### What the host holds -/

/-- An engine, a run that was handed to the host, and what has been noted of that run. -/
structure Holding (ν : Type) where
  engine : Engine ν
  run : Run
  entries : List (Entry ν)

/-- What a host may do while it holds a run: go on with it, or command anything else. -/
inductive Holding.Step (ν : Type) where
  | resume (choice : Option Nat)
  | meanwhile (c : Command ν)

namespace Holding

/-- What is held once an event has fired on a stage. -/
def fired (e : Engine ν) (s : Stage ν) (event : Event) : Holding ν where
  engine := (e.reply (s.fire e.handlers event)).engine
  run := (s.fire e.handlers event).1
  entries := (s.fire e.handlers event).2.journal.toList.drop s.journal.size

/-- What is held after a step. Of other commands nothing is noted of the run. -/
def step (h : Holding ν) : Step ν → Holding ν
  | .resume choice =>
      let reply := h.engine.perform (.resume h.run choice)
      ⟨reply.engine, reply.answer, h.entries ++ reply.journal.toList⟩
  | .meanwhile c => { h with engine := (h.engine.perform c).engine }

/-- What is held after some steps. -/
def after (h : Holding ν) (steps : List (Step ν)) : Holding ν :=
  steps.foldl step h

/-- The scene on which a run that waits goes on: at its place, with the choice of the player, and
with nothing shown. -/
def again (h : Holding ν) (choice : Option Nat) : Scene ν where
  toStage := h.engine.stage.log (.resuming h.run.event.id h.run.next choice)
  run := { event := h.run.event, phase := .running, message := none, choices := [], choice,
           next := h.run.next }

/-- The actions of the event that fired have begun in order, each once, up to the place of the
run. A run that goes on has come to the end, and one that waits does so in the action before its
place. -/
structure InOrder (event : Event) (h : Holding ν) : Prop where
  fires : h.run.event = event
  place : h.run.next ≤ event.actions.length
  begun : h.entries.filter Entry.isBegan = event.plan.take h.run.next
  remaining : h.run.remaining = event.actions.drop h.run.next
  finished : h.run.phase = .running → h.run.remaining = []
  waited : h.run.phase = .waiting → event.WaitedBefore h.run.next h.entries

/-- Going on with a run that waits plays it from its place; any other run is left alone. -/
structure Continues (h : Holding ν) : Prop where
  resumed : h.run.phase = .waiting → ∀ choice,
    let played := (h.again choice).play h.engine.handlers
    h.engine.perform (.resume h.run choice) = h.engine.reply (played.run, played.toStage) ∧
      played.run.choice = choice
  untouched : h.run.phase ≠ .waiting → ∀ choice,
    h.engine.perform (.resume h.run choice) =
      ⟨h.run, h.engine, #[.logged (.notWaiting h.run.event.id)]⟩

variable {event : Event} {h : Holding ν}

/-- Playing keeps what is held in order, with a record of why the run was played. -/
private theorem InOrder.of_played {s t : Scene ν} {entries : List (Entry ν)} (engine : Engine ν)
    (record : LogRecord) (earlier : List (Entry ν))
    (begun : earlier.filter Entry.isBegan = event.plan.take s.run.next)
    (played : s.Played event entries t) :
    InOrder event ⟨engine, t.run, earlier ++ .logged record :: entries⟩ := by
  constructor
  · exact played.fires
  · exact played.place
  · show List.filter _ (earlier ++ _) = _
    rw [List.filter_append, begun]
    exact played.begun
  · show List.drop _ _ = _
    rw [played.fires]
  · exact played.finished
  · intro waiting
    exact ((played.waited waiting).append [_]).append earlier

/-- A firing is noted from the record of it on. -/
theorem entries_fired {e : Engine ν} {s : Stage ν} {entries : List (Entry ν)}
    (journal : ({ s.log (.firing event) with run := .start event : Scene ν }.play
      e.handlers).journal.toList = (s.log (.firing event)).journal.toList ++ entries) :
    (fired e s event).entries = .logged (.firing event) :: entries := by
  show List.drop s.journal.size _ = _
  rw [show (s.fire e.handlers event).2.journal.toList = _ from journal]
  show ((s.journal.push _).toList ++ entries).drop s.journal.size = _
  rw [Array.toList_push, List.append_assoc, ← Array.length_toList, List.drop_left]
  rfl

private theorem fired_inOrder (e : Engine ν) (s : Stage ν) (event : Event) :
    (fired e s event).InOrder event := by
  let scene : Scene ν := { s.log (.firing event) with run := .start event }
  have goes : scene.run.phase ≠ .waiting := by
    intro waiting
    cases waiting
  obtain ⟨entries, played⟩ := scene.play_played e.handlers rfl (Nat.zero_le _) goes
  show InOrder event ⟨_, (scene.play e.handlers).run, (fired e s event).entries⟩
  rw [entries_fired played.journal]
  exact .of_played _ _ [] rfl played

/-- A run that has just been resumed does not wait. -/
theorem goes_again (h : Holding ν) (choice : Option Nat) :
    (h.again choice).run.phase ≠ .waiting := by
  intro waiting
  cases waiting

/-- A run that waits plays its remaining actions as one that has just gone on. -/
theorem perform_resume (waiting : h.run.phase = .waiting) (choice : Option Nat) :
    h.engine.perform (.resume h.run choice) =
      h.engine.reply (((h.again choice).play h.engine.handlers).run,
        ((h.again choice).play h.engine.handlers).toStage) := by
  have waits : h.run.isWaiting := beq_iff_eq.2 waiting
  rw [Engine.perform, Stage.resume, if_pos waits]
  rfl

/-- A run that does not wait is given back, with a warning. -/
theorem perform_resume_idle (going : h.run.phase ≠ .waiting) (choice : Option Nat) :
    h.engine.perform (.resume h.run choice) =
      ⟨h.run, h.engine, #[.logged (.notWaiting h.run.event.id)]⟩ := by
  have waits : ¬ h.run.isWaiting := fun waits ↦ going (eq_of_beq waits)
  rw [Engine.perform, Stage.resume, if_neg waits]
  rfl

private theorem InOrder.resume (order : h.InOrder event) (choice : Option Nat) :
    (h.step (.resume choice)).InOrder event := by
  by_cases waiting : h.run.phase = .waiting
  · obtain ⟨entries, played⟩ := (h.again choice).play_played h.engine.handlers order.fires
      order.place (h.goes_again choice)
    rw [step, perform_resume waiting]
    show InOrder event ⟨_, _, _ ++ ((h.again choice).play h.engine.handlers).journal.toList⟩
    rw [played.journal]
    exact .of_played _ _ h.entries order.begun played
  · rw [step, perform_resume_idle waiting]
    constructor
    · exact order.fires
    · exact order.place
    · show List.filter _ (h.entries ++ _) = _
      rw [List.filter_append, order.begun]
      exact List.append_nil _
    · exact order.remaining
    · exact order.finished
    · intro waits
      exact absurd waits waiting

/-- What is held stays in order, whatever the host does. -/
theorem InOrder.step (order : h.InOrder event) (step : Step ν) : (h.step step).InOrder event := by
  cases step with
  | resume choice => exact order.resume choice
  | meanwhile c =>
    exact ⟨order.fires, order.place, order.begun, order.remaining, order.finished, order.waited⟩

private theorem InOrder.after (order : h.InOrder event) (steps : List (Step ν)) :
    (h.after steps).InOrder event := by
  induction steps generalizing h with
  | nil => exact order
  | cons step rest ih => exact ih (order.step step)

private theorem InOrder.continues (order : h.InOrder event) : h.Continues where
  resumed waiting choice := by
    obtain ⟨entries, played⟩ := (h.again choice).play_played h.engine.handlers order.fires
      order.place (h.goes_again choice)
    exact ⟨perform_resume waiting choice, played.choice⟩
  untouched going choice := perform_resume_idle going choice

end Holding

/-! ### Runs that are handed out -/

/-- Processing triggers hands a run to the host, and leaves an engine. -/
inductive Engine.Hands (e : Engine ν) : Run → Engine ν → Prop
  | next {run} (handed : (e.perform .processNext).answer = some run) :
      Hands e run (e.perform .processNext).engine
  | pending {run} (handed : (e.perform .processPending).answer = some run) :
      Hands e run (e.perform .processPending).engine

/-- An event of the catalog fired last, and its run waits. -/
def Stage.Suspended (catalog : Catalog) (handlers : Handlers ν) (outcome : Option Run × Stage ν) :
    Prop :=
  ∀ run, outcome.1 = some run → run.phase = .waiting ∧
    ∃ (id : String) (event : Event) (s : Stage ν), catalog.find? id = some event ∧
      s.fire handlers event = (run, outcome.2)

namespace Stage

variable (catalog : Catalog) (handlers : Handlers ν)

private theorem suspended_none (s : Stage ν) : Suspended catalog handlers (none, s) := by
  intro run handed
  cases handed

private theorem suspended_scan (ids : List String) (s : Stage ν) :
    Suspended catalog handlers (s.scan catalog handlers ids) := by
  obtain ⟨fired, scans⟩ := scan_spec catalog handlers ids s
  intro run handed
  exact scans.answered handed

/-- A run that processing the next trigger answers waits, and its event fired last. -/
theorem suspended_processNext (s : Stage ν) :
    Suspended catalog handlers (s.processNext catalog handlers) := by
  unfold processNext
  split
  · exact suspended_none _ _ s
  · dsimp only
    split
    · exact suspended_none _ _ _
    · exact suspended_scan _ _ _ _

private theorem suspended_processUpTo (n : Nat) (s : Stage ν) :
    Suspended catalog handlers (s.processUpTo catalog handlers n) := by
  induction n generalizing s with
  | zero => exact suspended_none _ _ s
  | succ n ih =>
    rw [processUpTo]
    split
    · exact suspended_none _ _ s
    · have next := suspended_processNext catalog handlers s
      split
      · rename_i made
        rwa [made] at next
      · exact ih _

/-- A run that processing the pending triggers answers waits, and its event fired last. -/
theorem suspended_processPending (cap : Nat) (s : Stage ν) :
    Suspended catalog handlers (s.processPending catalog handlers cap) := by
  have upTo := suspended_processUpTo catalog handlers cap s
  unfold processPending
  split
  · rename_i made
    rwa [made] at upTo
  · split
    · exact suspended_none _ _ _
    · exact suspended_none _ _ _

end Stage

private theorem Stage.Suspended.fired {e : Engine ν} {outcome : Option Run × Stage ν} {run : Run}
    (suspended : Suspended e.catalog e.handlers outcome) (handed : outcome.1 = some run) :
    run.phase = .waiting ∧
    ∃ (id : String) (event : Event) (s : Stage ν), e.catalog.find? id = some event ∧
      (Holding.fired e s event).run = run ∧
      (Holding.fired e s event).engine = (e.reply outcome).engine := by
  obtain ⟨waits, id, event, s, found, fires⟩ := suspended run handed
  refine ⟨waits, id, event, s, found, ?_, ?_⟩
  · unfold Holding.fired
    rw [fires]
  · unfold Holding.fired
    rw [fires]
    rfl

/-- A run performs the actions of the event that fired in order and each once, however often it
waits and whatever the host does in between; every run that processing hands out is such a run
and waits. -/
theorem Engine.runs_inOrder (e : Engine ν) :
    (∀ scene : Scene ν, scene.PlaysInTurn e.handlers) ∧
    (∀ (s : Stage ν) (event : Event) (steps : List (Holding.Step ν)),
      ((Holding.fired e s event).after steps).InOrder event ∧
      ((Holding.fired e s event).after steps).Continues) ∧
    ∀ run after, e.Hands run after → run.phase = .waiting ∧
      ∃ (id : String) (event : Event) (s : Stage ν), e.catalog.find? id = some event ∧
        (Holding.fired e s event).run = run ∧ (Holding.fired e s event).engine = after := by
  refine ⟨fun scene ↦ scene.playsInTurn e.handlers, ?_, ?_⟩
  · intro s event steps
    have order := (Holding.fired_inOrder e s event).after steps
    exact ⟨order, order.continues⟩
  · intro run after hands
    cases hands with
    | next handed => exact (Stage.suspended_processNext _ _ _).fired handed
    | pending handed => exact (Stage.suspended_processPending _ _ _ _).fired handed

end StoryEngine
