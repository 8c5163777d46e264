import StoryEngine.Engine.Basic
import StoryEngine.Proofs.Engine.Calls
import StoryEngine.Proofs.Engine.Gates

/-!
# Dispatch

Processing takes the one signal that is due and fires, in the order in which they are listed for
its trigger, the events that may fire when their turn comes. Handlers may queue signals
meanwhile, and these stay pending.
-/

namespace StoryEngine

variable {ν : Type}

/-! ### The queue -/

namespace SignalQueue

/-- A queue keeps its signals and may get more of them, with new numbers. -/
def Grows (q r : SignalQueue) : Prop :=
  q.nextSequence ≤ r.nextSequence ∧
    ∃ added, r.pending.Perm (q.pending ++ added) ∧ ∀ s ∈ added, q.nextSequence ≤ s.sequence

private theorem Grows.refl (q : SignalQueue) : q.Grows q := by
  refine ⟨Nat.le_refl _, [], ?_, ?_⟩
  · rw [List.append_nil]
  · intro s member
    cases member

private theorem Grows.trans {q r s : SignalQueue} (first : q.Grows r) (second : r.Grows s) :
    q.Grows s := by
  obtain ⟨le, added, perm, new⟩ := first
  obtain ⟨le', added', perm', new'⟩ := second
  refine ⟨Nat.le_trans le le', added ++ added', ?_, ?_⟩
  · rw [← List.append_assoc]
    exact perm'.trans (perm.append_right added')
  · intro s member
    rcases List.mem_append.1 member with member | member
    · exact new s member
    · exact Nat.le_trans le (new' s member)

private theorem grows_push (q : SignalQueue) (trigger : String) (probability : Float)
    (priority : Int32) :
    q.Grows (q.push trigger probability priority) := by
  refine ⟨Nat.le_succ _, [{ trigger, probability, priority, sequence := q.nextSequence }], ?_, ?_⟩
  · exact (insert_perm _ _).trans (List.perm_append_singleton _ _).symm
  · intro s member
    cases List.mem_singleton.1 member
    exact Nat.le_refl _

end SignalQueue

private theorem World.grows_emit (w : World) (id : String) (p : Float) (priority : Int32) :
    w.queue.Grows (w.emit id p priority).2.queue := by
  unfold emit SignalQueue.enqueue
  cases admitProbability (.trigger id) p with
  | error refusal => exact .refl _
  | ok => exact w.queue.grows_push id p priority

/-! ### A firing -/

/-- Actions may add to the queue; they do not fire events or process triggers. -/
structure Scene.Keeps (s t : Scene ν) : Prop where
  queue : s.world.queue.Grows t.world.queue
  quiet : Stage.Quiet s.toStage t.toStage

namespace Scene

private theorem keeps_note (s : Scene ν) (entry : Entry ν)
    (quiet : entry.fired? = none ∧ entry.processed? = none) : Keeps s (s.note entry) where
  queue := .refl _
  quiet := by
    have noted := Stage.notes_note s.toStage entry
    rw [quiet.1, quiet.2] at noted
    exact noted

private theorem frame_keeps : Frame (Keeps (ν := ν)) where
  refl s := ⟨.refl _, .of_eq rfl⟩
  trans first second := ⟨first.queue.trans second.queue, first.quiet.trans second.quiet⟩
  call s c := by
    have called := s.keeps_note (.called c) ⟨rfl, rfl⟩
    refine ⟨?_, called.quiet.trans (.of_eq ?_)⟩
    · cases c with
      | emit id p priority => exact s.world.grows_emit id p priority
      | _ => exact .refl _
    · cases c <;> rfl
  unhandled s id := s.keeps_note _ ⟨rfl, rfl⟩

/-- Playing a run may add to the queue; it fires no event and processes no trigger. -/
theorem play_keeps (handlers : Handlers ν) (s : Scene ν) : Keeps s (s.play handlers) := by
  apply frame_keeps.performActions
  · intro s id index action place
    exact ⟨.refl _, (s.keeps_note (.began id index action) ⟨rfl, rfl⟩).quiet.trans (.of_eq rfl)⟩
  · intro s id index action
    exact s.keeps_note _ ⟨rfl, rfl⟩

end Scene

namespace Stage

/-- A firing notes itself and no other, and may add to the queue. -/
theorem fire_keeps (handlers : Handlers ν) (s : Stage ν) (e : Event) :
    s.world.queue.Grows (s.fire handlers e).2.world.queue ∧
      Notes [e] [] s (s.fire handlers e).2 := by
  have played := Scene.play_keeps handlers { s.log (.firing e) with run := .start e }
  constructor
  · exact played.queue
  · have noted : Notes [e] [] s (s.log (.firing e)) := notes_note s _
    exact (noted.trans played.quiet).trans (.of_eq rfl)

/-! ### A scan -/

/-- How the scan of some ids goes: which events fire, what it answers, and the stage that it
leaves. An event fires if it may when its turn comes; the first run that waits is the answer, and
ends the scan. -/
inductive Scans (catalog : Catalog) (handlers : Handlers ν) :
    List String → Stage ν → List Event → Option Run → Stage ν → Prop
  | done {s} : Scans catalog handlers [] s [] none s
  | unknown {id rest s fired answer t} (missing : catalog.find? id = none)
      (others : Scans catalog handlers rest s fired answer t) :
      Scans catalog handlers (id :: rest) s fired answer t
  | skipped {id rest e s u fired answer t} (found : catalog.find? id = some e)
      (refused : ¬ s.world.Admits e) (tested : Tested e s u)
      (others : Scans catalog handlers rest u fired answer t) :
      Scans catalog handlers (id :: rest) s fired answer t
  | ended {id rest e s u fired answer t} (found : catalog.find? id = some e)
      (admitted : s.world.Admits e) (tested : Tested e s u)
      (ended : (u.fire handlers e).1.phase ≠ .waiting)
      (others : Scans catalog handlers rest (u.fire handlers e).2 fired answer t) :
      Scans catalog handlers (id :: rest) s (e :: fired) answer t
  | waited {id rest e s u} (found : catalog.find? id = some e)
      (admitted : s.world.Admits e) (tested : Tested e s u)
      (waits : (u.fire handlers e).1.phase = .waiting) :
      Scans catalog handlers (id :: rest) s [e] (some (u.fire handlers e).1) (u.fire handlers e).2

variable {s t : Stage ν} {catalog : Catalog} {handlers : Handlers ν}

/-- A scan handles the first id, and goes on with the others unless a run waits. -/
theorem scan_cons (id : String) (rest : List String) (s : Stage ν) :
    s.scan catalog handlers (id :: rest) =
      match catalog.find? id with
      | none => s.scan catalog handlers rest
      | some e =>
          if (s.admits e).1 = true then
            if ((s.admits e).2.fire handlers e).1.isWaiting = true then
              (some ((s.admits e).2.fire handlers e).1, ((s.admits e).2.fire handlers e).2)
            else ((s.admits e).2.fire handlers e).2.scan catalog handlers rest
          else (s.admits e).2.scan catalog handlers rest := by
  rw [scan]
  cases catalog.find? id with
  | none => rfl
  | some e =>
    dsimp only
    rcases s.admits e with ⟨admitted, t⟩
    cases admitted with
    | false => rfl
    | true => rfl

/-- Every scan takes its ids in order, whatever the handlers do. -/
theorem scan_spec (catalog : Catalog) (handlers : Handlers ν) (ids : List String) (s : Stage ν) :
    ∃ fired, Scans catalog handlers ids s fired (s.scan catalog handlers ids).1
      (s.scan catalog handlers ids).2 := by
  induction ids generalizing s with
  | nil => exact ⟨[], .done⟩
  | cons id rest ih =>
    rw [scan_cons]
    cases found : catalog.find? id with
    | none =>
      obtain ⟨fired, others⟩ := ih s
      exact ⟨fired, .unknown found others⟩
    | some e =>
      obtain ⟨admits, tested⟩ := s.admits_spec e
      by_cases admitted : (s.admits e).1 = true
      · by_cases waits : ((s.admits e).2.fire handlers e).1.isWaiting = true
        · simp only [if_pos admitted, if_pos waits]
          exact ⟨[e], .waited found (admits.1 admitted) tested (eq_of_beq waits)⟩
        · simp only [if_pos admitted, if_neg waits]
          obtain ⟨fired, others⟩ := ih ((s.admits e).2.fire handlers e).2
          refine ⟨e :: fired, .ended found (admits.1 admitted) tested ?_ others⟩
          intro waiting
          exact waits (beq_iff_eq.2 waiting)
      · simp only [if_neg admitted]
        obtain ⟨fired, others⟩ := ih (s.admits e).2
        exact ⟨fired, .skipped found (mt admits.2 admitted) tested others⟩

private theorem Tested.queue {e : Event} (tested : Tested e s t) :
    t.world.queue = s.world.queue := by
  obtain ⟨draws, -, world⟩ := tested.world
  rw [world]

/-- A scan notes just the events that fire, and may add to the queue. -/
theorem Scans.keeps {ids : List String} {fired : List Event} {answer : Option Run}
    (scans : Scans catalog handlers ids s fired answer t) :
    s.world.queue.Grows t.world.queue ∧ Notes fired [] s t := by
  induction scans with
  | done => exact ⟨.refl _, .of_eq rfl⟩
  | unknown _ _ ih => exact ih
  | skipped _ _ tested _ ih =>
    rw [← tested.queue]
    exact ⟨ih.1, tested.quiet.trans ih.2⟩
  | ended _ _ tested _ _ ih =>
    obtain ⟨grows, noted⟩ := fire_keeps _ _ _
    rw [← tested.queue]
    exact ⟨grows.trans ih.1, (tested.quiet.trans noted).trans ih.2⟩
  | waited _ _ tested _ =>
    obtain ⟨grows, noted⟩ := fire_keeps _ _ _
    rw [← tested.queue]
    exact ⟨grows, tested.quiet.trans noted⟩

/-- A run that a scan answers waits, and is that of the last firing. -/
theorem Scans.answered {ids : List String} {fired : List Event} {answer : Option Run} {run : Run}
    (scans : Scans catalog handlers ids s fired answer t) (answers : answer = some run) :
    run.phase = .waiting ∧ ∃ (id : String) (e : Event) (u : Stage ν),
      catalog.find? id = some e ∧ u.fire handlers e = (run, t) := by
  induction scans with
  | done => cases answers
  | unknown _ _ ih => exact ih answers
  | skipped _ _ _ _ ih => exact ih answers
  | ended _ _ _ _ _ ih => exact ih answers
  | waited found _ _ waits =>
    cases answers
    exact ⟨waits, _, _, _, found, rfl⟩

end Stage

/-! ### Processing -/

/-- The gate of a signal takes at most one draw. -/
theorem Draws.roll_draws (d : Draws) (p : Float) : (d.roll p).2 = d ∨ (d.roll p).2 = d.next.2 := by
  unfold roll
  split
  · exact .inl rfl
  · split
    · exact .inl rfl
    · exact .inr rfl

/-- What processing one signal does. The signal is the one due soonest, and the only one that is
processed; what is queued meanwhile stays pending. If its gate is shut, the draw for it is all
that happens. Otherwise the ids listed for its trigger are scanned. -/
structure Engine.Processed (e : Engine ν) (signal : Signal) (queue : SignalQueue)
    (reply : Reply ν (Option Run)) : Prop where
  taken : e.world.queue.pending = signal :: queue.pending
  numbering : queue.nextSequence = e.world.queue.nextSequence
  due : ∀ later ∈ queue.pending, signal.Sooner later
  pending : queue.Grows reply.engine.world.queue
  kept : reply.engine = { e with world := reply.engine.world }
  processed : reply.journal.toList.filterMap Entry.processed? = [signal.trigger]
  shut : (e.world.draws.roll signal.probability).1 = false →
    reply.answer = none ∧ reply.journal.toList.filterMap Entry.fired? = [] ∧
    ∃ draws, (draws = e.world.draws ∨ draws = e.world.draws.next.2) ∧
      reply.engine.world = { e.world with queue, draws }
  scanned : (e.world.draws.roll signal.probability).1 = true → ∃ s t,
    s.world = { e.world with queue, draws := (e.world.draws.roll signal.probability).2 } ∧
    Stage.Scans e.catalog e.handlers (e.catalog.idsFor signal.trigger) s
      (reply.journal.toList.filterMap Entry.fired?) reply.answer t ∧
    t.world = reply.engine.world ∧ t.journal = reply.journal

namespace Stage

variable {catalog : Catalog} {handlers : Handlers ν} {s : Stage ν} {signal : Signal}
  {queue : SignalQueue}

/-- The stage after a signal has been taken and its gate been tried. -/
def take (s : Stage ν) (signal : Signal) (queue : SignalQueue) : Bool × Stage ν :=
  (({ s with world.queue := queue } : Stage ν).log (.processing signal.trigger)).roll
    (.trigger signal.trigger) signal.probability

/-- Taking a signal rolls for it, and changes the world only by the queue and the draws. -/
theorem take_eq (s : Stage ν) (signal : Signal) (queue : SignalQueue) :
    (s.take signal queue).1 = (s.world.draws.roll signal.probability).1 ∧
      (s.take signal queue).2.world =
        { s.world with queue, draws := (s.world.draws.roll signal.probability).2 } ∧
      Notes [] [signal.trigger] s (s.take signal queue).2 := by
  have noted : Notes [] [signal.trigger] s _ :=
    notes_note s (.logged (.processing signal.trigger))
  have changed : Quiet (s.log (.processing signal.trigger))
    (({ s with world.queue := queue } : Stage ν).log (.processing signal.trigger)) := .of_eq rfl
  refine ⟨rfl, rfl, (noted.trans changed).trans (notes_note _ _)⟩

/-- Processing the next trigger scans the events listed for it if it passes its gate. -/
theorem processNext_pop (popped : s.world.queue.pop? = some (signal, queue)) :
    s.processNext catalog handlers =
      if (s.take signal queue).1 = true then
        (s.take signal queue).2.scan catalog handlers (catalog.idsFor signal.trigger)
      else (none, (s.take signal queue).2.log (.gateFailed signal.trigger)) := by
  unfold processNext
  rw [popped]
  dsimp only
  rw [← take]
  rcases s.take signal queue with ⟨passed, t⟩
  cases passed with
  | false => rfl
  | true => rfl

/-- With no signal pending, processing does nothing. -/
theorem processNext_of_isEmpty (drained : s.world.queue.isEmpty = true) :
    s.processNext catalog handlers = (none, s) := by
  rw [processNext, s.world.queue.pop_of_isEmpty drained]

/-- With no signal pending, processing does nothing however often it may. -/
theorem processUpTo_of_isEmpty (drained : s.world.queue.isEmpty = true) (n : Nat) :
    s.processUpTo catalog handlers n = (none, s) := by
  cases n with
  | zero => rfl
  | succ n => rw [processUpTo, if_pos drained]

/-- Processing up to one more trigger processes one, and goes on unless a run waits. -/
theorem processUpTo_succ (pending : s.world.queue.isEmpty = false) (n : Nat) :
    s.processUpTo catalog handlers (n + 1) =
      match s.processNext catalog handlers with
      | (some run, t) => (some run, t)
      | (none, t) => t.processUpTo catalog handlers n := by
  rw [processUpTo, pending]
  rfl

end Stage

namespace Engine

variable {e : Engine ν} {signal : Signal} {queue : SignalQueue}

private theorem perform_processNext_shut (popped : e.world.queue.pop? = some (signal, queue))
    (shut : (e.stage.take signal queue).1 = false) :
    e.perform .processNext =
      e.reply (none, (e.stage.take signal queue).2.log (.gateFailed signal.trigger)) := by
  show e.reply (e.stage.processNext e.catalog e.handlers) = _
  rw [Stage.processNext_pop popped, shut, if_neg Bool.false_ne_true]

private theorem perform_processNext_scan (popped : e.world.queue.pop? = some (signal, queue))
    (passed : (e.stage.take signal queue).1 = true) :
    e.perform .processNext = e.reply ((e.stage.take signal queue).2.scan e.catalog e.handlers
      (e.catalog.idsFor signal.trigger)) := by
  show e.reply (e.stage.processNext e.catalog e.handlers) = _
  rw [Stage.processNext_pop popped, if_pos passed]

/-- The journal of a reply, said of the stage from which it came. -/
theorem filterMap_journal {fired : List Event} {processed : List String} {t : Stage ν}
    (noted : Stage.Notes fired processed e.stage t) :
    t.journal.toList.filterMap Entry.fired? = fired ∧
      t.journal.toList.filterMap Entry.processed? = processed := by
  obtain ⟨notes, journal, rfl, rfl⟩ := noted
  have journal : t.journal.toList = notes := journal
  rw [journal]
  exact ⟨rfl, rfl⟩

/-- A trigger that fails its gate is processed, and nothing fires. -/
theorem processed_shut (popped : e.world.queue.pop? = some (signal, queue))
    (shut : (e.stage.take signal queue).1 = false) :
    e.Processed signal queue (e.perform .processNext) := by
  obtain ⟨taken, numbering, due⟩ := SignalQueue.pending_pop popped
  obtain ⟨gate, world, noted⟩ := e.stage.take_eq signal queue
  obtain ⟨fired, processed⟩ := filterMap_journal
    (noted.trans (Stage.notes_note _ (.logged (.gateFailed signal.trigger))))
  rw [perform_processNext_shut popped shut]
  constructor
  · exact taken
  · exact numbering
  · exact due
  · show queue.Grows (e.stage.take signal queue).2.world.queue
    rw [world]
    exact .refl queue
  · rfl
  · exact processed
  · intro _
    exact ⟨rfl, fired, _, e.world.draws.roll_draws signal.probability, world⟩
  · intro passed
    rw [gate] at shut
    exact absurd (shut.symm.trans passed) Bool.false_ne_true

/-- A trigger that passes its gate is processed by a scan of its events. -/
theorem processed_scan (popped : e.world.queue.pop? = some (signal, queue))
    (passed : (e.stage.take signal queue).1 = true) :
    e.Processed signal queue (e.perform .processNext) := by
  obtain ⟨taken, numbering, due⟩ := SignalQueue.pending_pop popped
  obtain ⟨gate, world, noted⟩ := e.stage.take_eq signal queue
  obtain ⟨fired, scans⟩ := Stage.scan_spec e.catalog e.handlers
    (e.catalog.idsFor signal.trigger) (e.stage.take signal queue).2
  obtain ⟨grows, noted'⟩ := scans.keeps
  obtain ⟨firings, processed⟩ := filterMap_journal (noted.trans noted')
  rw [perform_processNext_scan popped passed]
  constructor
  · exact taken
  · exact numbering
  · exact due
  · rw [world] at grows
    exact grows
  · rfl
  · exact processed
  · intro shut
    rw [gate] at passed
    exact absurd (shut.symm.trans passed) Bool.false_ne_true
  · intro _
    have firings : _ = fired := firings
    rw [← firings] at scans
    exact ⟨_, _, world, scans, rfl, rfl⟩

/-- Processing a queue that is not empty takes the signal that is due, and fires in order just the
events listed for its trigger that may fire when their turn comes, up to the first that waits. -/
theorem perform_processNext_processed (e : Engine ν) (pending : e.world.queue.isEmpty = false) :
    ∃ signal queue, e.Processed signal queue (e.perform .processNext) := by
  obtain ⟨⟨signal, queue⟩, popped⟩ :=
    Option.isSome_iff_exists.1 (e.world.queue.isSome_pop pending)
  refine ⟨signal, queue, ?_⟩
  cases passed : (e.stage.take signal queue).1 with
  | false => exact processed_shut popped passed
  | true => exact processed_scan popped passed

/-- Of two pending signals the later one is processed first if its priority is higher. -/
theorem perform_processNext_processed_dawn :
    let e : Engine Unit :=
      { config := {}
        catalog := ((Catalog.empty true).register { id := "sunrise", trigger := "dawn" }).2
        handlers := .empty
        world :=
          { store := .empty
            draws := .fixed 0
            queue := (SignalQueue.empty.push "dusk" 1 0).push "dawn" 1 5 } }
    e.world.queue.isEmpty = false ∧
      ∃ signal queue, signal.trigger = "dawn" ∧
        e.Processed signal queue (e.perform .processNext) := by
  intro e
  have pending : e.world.queue.isEmpty = false := rfl
  have first : e.world.queue.pending.head?.map Signal.trigger = some "dawn" := rfl
  obtain ⟨signal, queue, processed⟩ := perform_processNext_processed e pending
  rw [processed.taken] at first
  exact ⟨pending, signal, queue, Option.some.inj first, processed⟩

end Engine

end StoryEngine
