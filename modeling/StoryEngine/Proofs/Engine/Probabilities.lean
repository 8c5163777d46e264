import StoryEngine.Proofs.Engine.Processing
import StoryEngine.Proofs.Number.Order

/-!
# Probabilities in engines

Only numbers from zero to one enter an engine as probabilities: those of pending signals and of
registered events are such numbers at all times. Any other is refused, and a refusal leaves the
engine as it was.

Specification: `SPEC_FULL.md` §3 (invariants) and §10.2 (`InvalidProbability`).
-/

namespace StoryEngine

variable {ν : Type}

/-! ### Probabilities -/

/-- A number from zero to one. -/
structure IsProbability (p : Float) : Prop where
  isNumber : p.isNaN = false
  nonneg : 0 ≤ p
  le_one : p ≤ 1

/-- What is no number, or lies outside the range from zero to one. -/
def OutOfRange (p : Float) : Prop :=
  p.isNaN = true ∨ p < 0 ∨ 1 < p

private theorem isProbability_iff {p : Float} : IsProbability p ↔ 0 ≤ p ∧ p ≤ 1 := by
  constructor
  · exact fun valid ↦ ⟨valid.nonneg, valid.le_one⟩
  · rintro ⟨nonneg, le⟩
    refine ⟨Bool.eq_false_iff.2 fun isNaN ↦ ?_, nonneg, le⟩
    exact Number.not_le.2 (.inl isNaN) le

private theorem not_isProbability {p : Float} : ¬ IsProbability p ↔ OutOfRange p := by
  have numbers : (0 : Float).isNaN = false ∧ (1 : Float).isNaN = false := by decide +kernel
  rw [isProbability_iff, Classical.not_and_iff_not_or_not, Number.not_le, Number.not_le, numbers.1,
    numbers.2]
  simp only [Bool.false_eq_true, false_or]
  exact or_or_distrib_left.symm

/-- Just the numbers from zero to one are admitted. -/
theorem admitProbability_eq_ok {subject : Subject} {p : Float} :
    admitProbability subject p = .ok () ↔ IsProbability p := by
  rw [isProbability_iff, admitProbability]
  split <;> simp [*]

/-- What is refused is out of range, and the refusal names the subject and the value. -/
theorem admitProbability_eq_error {subject : Subject} {p : Float} {refusal : Refusal} :
    admitProbability subject p = .error refusal ↔ OutOfRange p ∧ refusal = ⟨subject, p⟩ := by
  rw [← not_isProbability, isProbability_iff, admitProbability]
  split <;> simp [*, eq_comm]

/-! ### Engines that keep only probabilities -/

/-- Every pending signal has a probability. -/
def SignalQueue.Proper (q : SignalQueue) : Prop :=
  ∀ s ∈ q.pending, IsProbability s.probability

/-- Every definition has a probability. -/
def Catalog.Proper (c : Catalog) : Prop :=
  ∀ id e, c.find? id = some e → IsProbability e.probability

/-- Every pending signal and every definition has a probability. -/
structure Engine.Proper (e : Engine ν) : Prop where
  pending : e.world.queue.Proper
  defined : e.catalog.Proper

namespace SignalQueue

private theorem Proper.push {q : SignalQueue} (proper : q.Proper) (trigger : String) {p : Float}
    (valid : IsProbability p) (priority : Int32) : (q.push trigger p priority).Proper := by
  intro s member
  rcases List.mem_cons.1 ((insert_perm _ _).mem_iff.1 member) with rfl | member
  · exact valid
  · exact proper s member

private theorem Proper.pop {q rest : SignalQueue} {s : Signal} (proper : q.Proper)
    (popped : q.pop? = some (s, rest)) : rest.Proper := by
  intro t member
  apply proper
  rw [(pending_pop popped).1]
  exact List.mem_cons_of_mem s member

end SignalQueue

namespace Catalog

private theorem Proper.register {c : Catalog} (proper : c.Proper) {e : Event}
    (valid : IsProbability e.probability) : (c.register e).2.Proper := by
  intro id event found
  rw [find?_register] at found
  split at found
  · cases found
    exact valid
  · exact proper id event found

private theorem Proper.unregister {c : Catalog} (proper : c.Proper) (id : String) :
    (c.unregister id).2.Proper := by
  intro other event found
  rw [find?_unregister] at found
  split at found
  · cases found
  · exact proper other event found

end Catalog

/-! ### Handlers and processing -/

private theorem World.emit_proper {w : World} (proper : w.queue.Proper) (id : String) (p : Float)
    (priority : Int32) : (w.emit id p priority).2.queue.Proper := by
  unfold emit SignalQueue.enqueue
  cases admitted : admitProbability (.trigger id) p with
  | error refusal => exact proper
  | ok => exact proper.push id (admitProbability_eq_ok.1 admitted) priority

private theorem Scene.frame_proper :
    Frame fun s t : Scene ν ↦ s.world.queue.Proper → t.world.queue.Proper where
  refl s proper := proper
  trans first second proper := second (first proper)
  call s c proper := by
    cases c with
    | emit id p priority => exact World.emit_proper proper id p priority
    | _ => exact proper
  unhandled s id proper := proper

private theorem Scene.play_proper (handlers : Handlers ν) {s : Scene ν}
    (proper : s.world.queue.Proper) :
    (s.play handlers).world.queue.Proper := by
  refine frame_proper.performActions ?_ ?_ handlers s.run.remaining s proper
  · intro s id index action place proper
    exact proper
  · intro s id index action proper
    exact proper

namespace Stage

private theorem kept_proper (catalog : Catalog) (handlers : Handlers ν) :
    Kept catalog handlers (fun s ↦ s.world.queue.Proper) fun _ s ↦ s.world.queue.Proper where
  taken {s signal queue} popped proper := by
    rw [(s.take_eq signal queue).2.1]
    exact proper.pop popped
  tested {trigger s id e} _ _ proper := by
    obtain ⟨draws, -, world⟩ := (s.admits_spec e).2.world
    rw [world]
    exact proper
  fired {trigger s id e} _ _ _ proper := by
    obtain ⟨draws, -, world⟩ := (s.admits_spec e).2.world
    apply Scene.play_proper
    show (s.admits e).2.world.queue.Proper
    rw [world]
    exact proper
  scanned proper := proper
  shut trigger proper := proper
  capped cap pending proper := proper

private theorem resume_proper (handlers : Handlers ν) (run : Run) (choice : Option Nat)
    {s : Stage ν}
    (proper : s.world.queue.Proper) : (s.resume handlers run choice).2.world.queue.Proper := by
  unfold resume
  split
  · exact Scene.play_proper handlers proper
  · exact proper

end Stage

/-! ### Commands -/

namespace Engine

variable {e : Engine ν}

private theorem Proper.emit (proper : e.Proper) (id : String) (p : Float) (priority : Int32) :
    (e.emit id p priority).engine.Proper := by
  have kept := World.emit_proper proper.pending id p priority
  unfold Engine.emit
  split
  · exact proper
  · rename_i made
    rw [made] at kept
    exact ⟨kept, proper.defined⟩

private theorem Proper.register (proper : e.Proper) (event : Event) :
    (e.register event).engine.Proper := by
  unfold Engine.register
  split
  · exact proper
  · rename_i admitted
    constructor
    · dsimp only
      repeat' split
      all_goals exact proper.pending
    · exact proper.defined.register (admitProbability_eq_ok.1 admitted)

private theorem Proper.unregister (proper : e.Proper) (id : String) :
    (e.unregister id).engine.Proper := by
  have kept := proper.defined.unregister id
  unfold Engine.unregister
  split
  · exact proper
  · rename_i removed
    rw [removed] at kept
    exact ⟨proper.pending, kept⟩

/-- Whatever the host asks for, only probabilities are kept. -/
theorem Proper.perform (proper : e.Proper) (c : Command ν) : (e.perform c).engine.Proper := by
  have kept := Stage.kept_proper e.catalog e.handlers
  cases c with
  | emit id p priority => exact proper.emit id p priority
  | processNext => exact ⟨kept.processNext (s := e.stage) proper.pending, proper.defined⟩
  | processPending => exact ⟨kept.processPending _ (s := e.stage) proper.pending, proper.defined⟩
  | resume run choice =>
    exact ⟨Stage.resume_proper e.handlers run choice (s := e.stage) proper.pending, proper.defined⟩
  | register event => exact proper.register event
  | unregister id => exact proper.unregister id
  | restart => exact ⟨List.forall_mem_nil _, proper.defined⟩
  | _ => exact ⟨proper.pending, proper.defined⟩

/-- The engine after a call that a handler makes during a run. -/
def called (e : Engine ν) (run : Run) (c : Call ν) : Engine ν :=
  let scene : Scene ν := { e.stage with run }
  { e with world := ((scene.note (.called c)).answer c).2.world }

/-- The engines of games: new ones, and those that any command of the host or any call of a handler
makes of one. -/
inductive Reachable : Engine ν → Prop
  | created (config : Config) (draws : Option Draws) (store : Store) (handlers : Handlers ν) :
      Reachable (.create config draws store handlers)
  | commanded {e : Engine ν} (reachable : Reachable e) (c : Command ν) :
      Reachable (e.perform c).engine
  | called {e : Engine ν} (reachable : Reachable e) (run : Run) (c : Call ν) :
      Reachable (e.called run c)

private theorem Reachable.proper (reachable : e.Reachable) : e.Proper := by
  induction reachable with
  | created config draws store handlers =>
    refine ⟨List.forall_mem_nil _, fun id event found ↦ ?_⟩
    cases (Catalog.find?_empty config.dedupe id).symm.trans found
  | commanded reachable c ih => exact ih.perform c
  | @called e reachable run c ih =>
    exact ⟨Scene.frame_proper.call { e.stage with run } c ih.pending, ih.defined⟩

end Engine

/-! ### Refusals -/

variable {e : Engine ν} {s : Scene ν} {w : World} {id : String} {p : Float} {priority : Int32}
  {event : Event} {refusal : Refusal}

private theorem World.emit_refused : (w.emit id p priority).1 = .error refusal ↔
    OutOfRange p ∧ refusal = ⟨.trigger id, p⟩ := by
  rw [← admitProbability_eq_error, emit, SignalQueue.enqueue]
  cases admitProbability (.trigger id) p <;> simp

private theorem World.emit_of_refused (refused : (w.emit id p priority).1 = .error refusal) :
    (w.emit id p priority).2 = w := by
  unfold emit at refused ⊢
  split at refused
  · cases refused
  · rfl

private theorem Scene.emit_of_refused (refused : (s.world.emit id p priority).1 = .error refusal) :
    (s.answer (.emit id p priority)).2 = s := by
  show s.withWorld (s.world.emit id p priority).2 = s
  rw [World.emit_of_refused refused]
  rfl

namespace Engine

private theorem emit_refused : (e.emit id p priority).answer = .error refusal ↔
    OutOfRange p ∧ refusal = ⟨.trigger id, p⟩ := by
  rw [← admitProbability_eq_error, Engine.emit, World.emit, SignalQueue.enqueue]
  cases admitProbability (.trigger id) p <;> simp

private theorem emit_of_refused (refused : (e.emit id p priority).answer = .error refusal) :
    e.emit id p priority = ⟨.error refusal, e, #[]⟩ := by
  unfold Engine.emit at refused ⊢
  split at refused
  · cases refused
    rfl
  · cases refused

private theorem register_refused : (e.register event).answer = .error refusal ↔
    OutOfRange event.probability ∧ refusal = ⟨.event event.id, event.probability⟩ := by
  rw [← admitProbability_eq_error, Engine.register]
  cases admitProbability (.event event.id) event.probability <;> simp

private theorem register_of_refused (refused : (e.register event).answer = .error refusal) :
    e.register event = ⟨.error refusal, e, #[]⟩ := by
  unfold Engine.register at refused ⊢
  split at refused
  · cases refused
    rfl
  · cases refused

end Engine

/-- What comes of asking for something with `p` as its probability: the answer, and the state after
it beside the one before. -/
structure AsksWith {σ ω : Type} (subject : Subject) (p : Float) (answer : Except Refusal ω)
    (after before : σ) : Prop where
  /-- It is refused just if `p` is no number from zero to one, and the refusal names the subject and
  the value. -/
  refused_iff : ∀ refusal, answer = .error refusal ↔ OutOfRange p ∧ refusal = ⟨subject, p⟩
  /-- A refusal leaves the state as it was. -/
  unchanged : ∀ refusal, answer = .error refusal → after = before

/-- How the engines whose handlers keep values of a type guard their probabilities. -/
structure Engine.GuardsProbabilities (ν : Type) : Prop where
  /-- In every engine of a game the pending signals have numbers from zero to one as their
  probabilities. -/
  pending : ∀ e : Engine ν, e.Reachable →
    ∀ s ∈ e.world.queue.pending, IsProbability s.probability
  /-- So have the registered events. -/
  defined : ∀ e : Engine ν, e.Reachable →
    ∀ id event, e.catalog.find? id = some event → IsProbability event.probability
  /-- The host asks for a trigger. -/
  emit : ∀ (e : Engine ν) (id : String) (p : Float) (priority : Int32),
    let reply := e.perform (.emit id p priority)
    AsksWith (ω := Unit) (.trigger id) p reply.answer (reply.engine, reply.journal) (e, #[])
  /-- A handler asks for a trigger. -/
  call_emit : ∀ (s : Scene ν) (id : String) (p : Float) (priority : Int32),
    let outcome := s.answer (.emit id p priority)
    AsksWith (ω := Nat) (.trigger id) p outcome.1 outcome.2 s
  /-- The host asks for the registration of an event. -/
  register : ∀ (e : Engine ν) (event : Event),
    let reply := e.perform (.register event)
    AsksWith (ω := Unit) (.event event.id) event.probability reply.answer
      (reply.engine, reply.journal) (e, #[])

/-- Only numbers from zero to one are probabilities in an engine, and asking with any other value is
refused and changes nothing. -/
theorem Engine.probabilities_proper : GuardsProbabilities ν where
  pending e reachable := reachable.proper.pending
  defined e reachable := reachable.proper.defined
  emit e id p priority := by
    refine ⟨fun refusal ↦ emit_refused, fun refusal refused ↦ ?_⟩
    rw [show e.perform (.emit id p priority) = _ from emit_of_refused refused]
  call_emit s id p priority :=
    ⟨fun refusal ↦ World.emit_refused, fun refusal ↦ Scene.emit_of_refused⟩
  register e event := by
    refine ⟨fun refusal ↦ register_refused, fun refusal refused ↦ ?_⟩
    rw [show e.perform (.register event) = _ from register_of_refused refused]

/-- A handler asks for a trigger after the host has registered an event and asked for the trigger.
What is no number, and a number above one, are refused then, also for the event that is there. -/
theorem Engine.probabilities_proper_asked :
    let start : Engine Unit := create {} (some (.fixed 0.5)) .empty .empty
    let event : Event := { id := "E", trigger := "T", probability := 0.5 }
    let asked := ((start.perform (.register event)).engine.perform (.emit "T" 1 0)).engine
    let e := asked.called (.start event) (.emit "T" 0.25 2)
    let again := e.perform (.emit "T" Number.nan 0)
    let replaced := e.perform (.register { event with probability := 1.5 })
    e.Reachable ∧ e.world.queue.pending = [⟨"T", 0.25, 2, 1⟩, ⟨"T", 1, 0, 0⟩] ∧
      (∀ s ∈ e.world.queue.pending, IsProbability s.probability) ∧
      (e.catalog.find? "E").map Event.probability = some 0.5 ∧ IsProbability 0.5 ∧
      again.answer = (.error ⟨.trigger "T", Number.nan⟩ : Except Refusal Unit) ∧
      (again.engine, again.journal) = (e, #[]) ∧
      replaced.answer = (.error ⟨.event "E", 1.5⟩ : Except Refusal Unit) ∧
      (replaced.engine, replaced.journal) = (e, #[]) := by
  intro start event asked e again replaced
  have reachable : e.Reachable :=
    .called (.commanded (.commanded (.created {} _ .empty .empty) _) _) _ _
  have found : (e.catalog.find? "E").map Event.probability = some 0.5 := by decide +kernel
  have guards := probabilities_proper (ν := Unit)
  have emit := guards.emit e "T" Number.nan 0
  have refused := (emit.refused_iff _).2 ⟨.inl (by decide +kernel), rfl⟩
  have register := guards.register e { event with probability := 1.5 }
  have refused' := (register.refused_iff _).2 ⟨.inr (.inr (by decide +kernel)), rfl⟩
  refine ⟨reachable, by decide +kernel, guards.pending e reachable, found, ?_, refused,
    emit.unchanged _ refused, refused', register.unchanged _ refused'⟩
  obtain ⟨event', there, same⟩ := Option.map_eq_some_iff.1 found
  exact same ▸ guards.defined e reachable "E" event' there

end StoryEngine
