import StoryEngine.Proofs.Expression.Lexing
import StoryEngine.Proofs.Expression.Outline
import StoryEngine.Proofs.Engine.Batches
import StoryEngine.Proofs.Engine.Disabled

/-!
# Conditions that fail

A condition that cannot be evaluated once cannot be evaluated ever, whatever the game answers and
whatever is drawn. Its event never fires, and is passed over as if the condition were false: the
scan goes on to the next event, and no failure comes out of a command.

Specification: `SPEC_FULL.md` §7 and §8 (fail-closed conditions).
-/

namespace StoryEngine

open Expression (Query Tree)

variable {ν : Type}

/-! ### Failing conditions -/

namespace Condition

/-- The condition cannot be evaluated, for some answers of the game and some draws. -/
def Fails (c : Condition) : Prop :=
  ∃ query draws failure, (Expression.evaluate c.expression query draws).1 = .error failure

/-- The condition is false everywhere, and makes the draws that another makes. -/
def StandsFor (stand c : Condition) : Prop :=
  ∀ query draws, ∃ value, value.isTrue = false ∧
    Expression.evaluate stand.expression query draws =
      (.ok value, (Expression.evaluate c.expression query draws).2)

variable {c stand : Condition} {query : Query} {draws after : Draws}

private theorem Fails.missed (fails : c.Fails) (query : Query) (draws : Draws) :
    c.Missed query draws (Expression.evaluate c.expression query draws).2 := by
  obtain ⟨query', draws', failure, failed⟩ := fails
  have failed := Expression.evaluate_error failed query draws
  refine ⟨_, rfl, ?_⟩
  intro value impossible
  cases failed.symm.trans impossible

private theorem StandsFor.missed (stands : stand.StandsFor c) (query : Query) (draws : Draws) :
    stand.Missed query draws (Expression.evaluate c.expression query draws).2 := by
  obtain ⟨value, untrue, evaluated⟩ := stands query draws
  refine ⟨_, evaluated, ?_⟩
  intro value' same
  cases same
  exact untrue

private theorem Missed.unique {other : Draws} (missed : c.Missed query draws after)
    (again : c.Missed query draws other) : after = other := by
  obtain ⟨result, evaluated, -⟩ := missed
  obtain ⟨result', evaluated', -⟩ := again
  exact congrArg Prod.snd (evaluated.symm.trans evaluated')

private theorem Missed.not_met {other : Draws} (missed : c.Missed query draws after) :
    ¬ c.Met query draws other := by
  rintro ⟨value, evaluated, holds⟩
  obtain ⟨result, evaluated', fails⟩ := missed
  have same := congrArg Prod.fst (evaluated'.symm.trans evaluated)
  rw [fails value same] at holds
  cases holds

end Condition

section

variable {query : Query} {c stand : Condition} {draws left : Draws}

/-- Of conditions one of which fails, one is always missed. -/
theorem Condition.Fails.oneMissed (fails : c.Fails) {cs : List Condition} (member : c ∈ cs)
    (query : Query) (draws : Draws) : ∃ left, OneMissed query cs draws left := by
  induction cs generalizing draws with
  | nil => cases member
  | cons first rest ih =>
    obtain ⟨between, met | missed⟩ := first.met_or_missed query draws
    · rcases List.mem_cons.1 member with rfl | later
      · exact absurd met (fails.missed query draws).not_met
      · obtain ⟨left, missed⟩ := ih later between
        exact ⟨left, .later met missed⟩
    · exact ⟨between, .here missed⟩

/-- It makes no difference to the draws if a condition is false instead of failing. -/
theorem OneMissed.standIn {before later : List Condition}
    (missed : OneMissed query (before ++ c :: later) draws left) (fails : c.Fails)
    (stands : stand.StandsFor c) : OneMissed query (before ++ stand :: later) draws left := by
  induction before generalizing draws with
  | nil =>
    cases missed with
    | here missed =>
      rw [missed.unique (fails.missed query draws)]
      exact .here (stands.missed query draws)
    | later met others => exact absurd met (fails.missed query draws).not_met
  | cons first rest ih =>
    cases missed with
    | here missed => exact .here missed
    | later met others => exact .later met (ih others)

end

/-- One event is the other but for a condition that fails, in the place of which it has one that is
false. -/
def Event.StandsFor (other event : Event) : Prop :=
  ∃ before c later stand, event.conditions = before ++ c :: later ∧ c.Fails ∧
    stand.StandsFor c ∧ other = { event with conditions := before ++ stand :: later }

/-! ### Tests -/

section

variable {event other : Event} {c : Condition}

private theorem Condition.Fails.not_admits (fails : c.Fails) (member : c ∈ event.conditions)
    (w : World) : ¬ w.Admits event := by
  rintro ⟨-, draws, met, -⟩
  obtain ⟨left, missed⟩ := fails.oneMissed member w.query w.draws
  exact missed.not_allMet met

namespace Stage

private theorem admits_failing (fails : c.Fails) (member : c ∈ event.conditions) (s : Stage ν) :
    (s.admits event).1 = false :=
  Bool.eq_false_iff.2 (mt (s.admits_spec event).1.1 (fails.not_admits member s.world))

/-- A test comes to the same if a condition is false instead of failing. -/
theorem admits_standIn (stands : other.StandsFor event) (s : Stage ν) :
    (s.admits event).1 = false ∧ (s.admits other).1 = false ∧
      (s.admits other).2.world = (s.admits event).2.world := by
  obtain ⟨before, c, later, stand, conditions, fails, stands, rfl⟩ := stands
  by_cases offered : s.world.Offers event
  · have member : c ∈ event.conditions := by simp [conditions]
    obtain ⟨left, missed⟩ := fails.oneMissed member s.world.query s.world.draws
    have missed' : OneMissed s.world.query (before ++ stand :: later) s.world.draws left := by
      rw [conditions] at missed
      exact missed.standIn fails stands
    obtain ⟨refused, world, -⟩ := admits_missed offered missed
    obtain ⟨refused', world', -⟩ :=
      admits_missed (s := s) (e := { event with conditions := before ++ stand :: later })
        offered missed'
    exact ⟨refused, refused', world'.trans world.symm⟩
  · obtain ⟨refused, world, -⟩ := admits_barred offered
    obtain ⟨refused', world', -⟩ :=
      admits_barred (s := s) (e := { event with conditions := before ++ stand :: later }) offered
    exact ⟨refused, refused', world'.trans world.symm⟩

/-! ### Processing -/

variable {catalog : Catalog} (handlers : Handlers ν)

/-- A scan goes on after an event with a condition that fails. -/
theorem scan_failing (fails : c.Fails) (member : c ∈ event.conditions) {id : String}
    (registered : catalog.find? id = some event) (rest : List String) (s : Stage ν) :
    s.scan catalog handlers (id :: rest) = (s.admits event).2.scan catalog handlers rest := by
  rw [scan_cons, registered]
  dsimp only
  rw [admits_failing fails member, if_neg Bool.false_ne_true]

private theorem scan_standIn (stands : other.StandsFor event)
    (registered : catalog.find? event.id = some event) (ids : List String) (s : Stage ν) :
    (s.scan (catalog.define other) handlers ids).1 = (s.scan catalog handlers ids).1 ∧
      (s.scan (catalog.define other) handlers ids).2.world =
        (s.scan catalog handlers ids).2.world := by
  have same : other.id = event.id := by
    obtain ⟨before, c, later, stand, -, -, -, rfl⟩ := stands
    rfl
  induction ids generalizing s with
  | nil => exact ⟨rfl, rfl⟩
  | cons id rest ih =>
    rw [scan_cons, scan_cons, Catalog.find?_define]
    by_cases own : other.id = id
    · obtain ⟨refused, refused', world⟩ := s.admits_standIn stands
      rw [if_pos own, ← own, same, registered]
      dsimp only
      rw [refused, refused', if_neg Bool.false_ne_true, if_neg Bool.false_ne_true]
      -- the tests left two stages, but of one world, so the rest is scanned alike
      obtain ⟨answers, leaves⟩ := ih (s.admits other).2
      obtain ⟨answers', leaves'⟩ :=
        scan_world catalog handlers world rest
      exact ⟨answers.trans answers', leaves.trans leaves'⟩
    · rw [if_neg own]
      cases catalog.find? id with
      | none => exact ih s
      | some e =>
        dsimp only
        by_cases admitted : (s.admits e).1 = true
        · simp only [if_pos admitted]
          by_cases waits : ((s.admits e).2.fire handlers e).1.isWaiting = true
          · simp only [if_pos waits]
            exact ⟨trivial, trivial⟩
          · simp only [if_neg waits]
            exact ih _
        · simp only [if_neg admitted]
          exact ih _

private theorem processNext_standIn (stands : other.StandsFor event)
    (registered : catalog.find? event.id = some event) (s : Stage ν) :
    (s.processNext (catalog.define other) handlers).1 = (s.processNext catalog handlers).1 ∧
      (s.processNext (catalog.define other) handlers).2.world =
        (s.processNext catalog handlers).2.world := by
  cases popped : s.world.queue.pop? with
  | none =>
    rw [processNext, processNext, popped]
    exact ⟨rfl, rfl⟩
  | some taken =>
    obtain ⟨signal, queue⟩ := taken
    rw [processNext_pop popped, processNext_pop popped, Catalog.idsFor_define]
    by_cases passed : (s.take signal queue).1 = true
    · simp only [if_pos passed]
      exact scan_standIn handlers stands registered _ _
    · simp only [if_neg passed]
      exact ⟨trivial, trivial⟩

private theorem processUpTo_standIn (stands : other.StandsFor event)
    (registered : catalog.find? event.id = some event) (n : Nat) (s : Stage ν) :
    (s.processUpTo (catalog.define other) handlers n).1 = (s.processUpTo catalog handlers n).1 ∧
      (s.processUpTo (catalog.define other) handlers n).2.world =
        (s.processUpTo catalog handlers n).2.world := by
  induction n generalizing s with
  | zero => exact ⟨rfl, rfl⟩
  | succ n ih =>
    cases pending : s.world.queue.isEmpty with
    | true =>
      rw [processUpTo_of_isEmpty pending, processUpTo_of_isEmpty pending]
      exact ⟨rfl, rfl⟩
    | false =>
      obtain ⟨answers, leaves⟩ := processNext_standIn handlers stands registered s
      rw [processUpTo_succ pending, processUpTo_succ pending]
      rcases made' : s.processNext (catalog.define other) handlers with ⟨answer', t'⟩
      rcases made : s.processNext catalog handlers with ⟨answer, t⟩
      rw [made', made] at answers leaves
      obtain rfl : answer' = answer := answers
      cases answer' with
      | some run => exact ⟨rfl, leaves⟩
      | none =>
        obtain ⟨answers, leaves'⟩ := ih t'
        obtain ⟨answers', leaves''⟩ :=
          processUpTo_world catalog handlers leaves n
        exact ⟨answers.trans answers', leaves'.trans leaves''⟩

/-! ### Firings -/

/-- The journal holds no firing of an event. -/
def Unfired (event : Event) (s : Stage ν) : Prop :=
  event ∉ s.journal.toList.filterMap Entry.fired?

private theorem Unfired.notes {s t : Stage ν} {fired : List Event} {processed : List String}
    (unfired : s.Unfired event) (noted : Notes fired processed s t) (others : event ∉ fired) :
    t.Unfired event := by
  obtain ⟨notes, journal, rfl, -⟩ := noted
  unfold Unfired
  rw [journal, List.filterMap_append]
  intro member
  rcases List.mem_append.1 member with member | member
  · exact unfired member
  · exact others member

/-- Processing never fires an event that no world admits. -/
theorem kept_unfired (catalog : Catalog) (handlers : Handlers ν)
    (never : ∀ w : World, ¬ w.Admits event) :
    Kept catalog handlers (Unfired event) fun _ ↦ Unfired event where
  taken {s signal queue} _ unfired := unfired.notes (s.take_eq signal queue).2.2 (by simp)
  tested {_ s _ e} _ _ unfired := unfired.notes (s.admits_spec e).2.quiet (by simp)
  fired {_ s _ e} _ _ admitted unfired := by
    have tested := unfired.notes (s.admits_spec e).2.quiet (by simp)
    apply tested.notes (fire_keeps handlers _ e).2
    intro same
    cases List.mem_singleton.1 same
    exact never _ admitted
  scanned unfired := unfired
  shut {s} trigger unfired :=
    unfired.notes (notes_note s (.logged (.gateFailed trigger))) List.not_mem_nil
  capped {s} cap pending unfired :=
    unfired.notes (notes_note s (.logged (.stoppedAtCap cap pending))) List.not_mem_nil

end Stage

namespace Engine

private theorem perform_unfired (never : ∀ w : World, ¬ w.Admits event) (e : Engine ν)
    (c : Command ν) : .logged (.firing event) ∉ (e.perform c).journal := by
  have unfired : event ∉ (e.perform c).journal.toList.filterMap Entry.fired? := by
    have start : e.stage.Unfired event := List.not_mem_nil
    have calm (idle : c.IsIdle) : event ∉ (e.perform c).journal.toList.filterMap Entry.fired? := by
      rw [(e.perform_isCalm idle).1]
      exact List.not_mem_nil
    cases c with
    | processNext => exact (Stage.kept_unfired e.catalog e.handlers never).processNext start
    | processPending =>
      exact (Stage.kept_unfired e.catalog e.handlers never).processPending _ start
    | restart => exact List.not_mem_nil
    | _ => exact calm trivial
  intro fired
  exact unfired (List.mem_filterMap.2 ⟨_, Array.mem_toList_iff.2 fired, rfl⟩)

/-- Commands that perform actions come to the same if a condition is false instead of failing. -/
theorem perform_standIn (stands : other.StandsFor event) {e : Engine ν}
    (registered : e.catalog.find? event.id = some event) {c : Command ν} (performs : ¬ c.IsPlain) :
    ((e.redefine other).perform c).answer = (e.perform c).answer ∧
      ((e.redefine other).perform c).engine = (e.perform c).engine.redefine other := by
  cases c with
  | processNext =>
    obtain ⟨answers, leaves⟩ :=
      Stage.processNext_standIn e.handlers stands registered e.stage
    exact ⟨answers, congrArg (fun world ↦ { e.redefine other with world }) leaves⟩
  | processPending =>
    let cap := e.config.maxTriggers.toNat
    obtain ⟨answers, leaves⟩ :=
      Stage.processUpTo_standIn e.handlers stands registered cap e.stage
    obtain ⟨answer, engine⟩ := e.processWithin_outcome cap
    obtain ⟨answer', engine'⟩ := (e.redefine other).processWithin_outcome cap
    refine ⟨answer'.trans (answers.trans answer.symm), ?_⟩
    show ((e.redefine other).processWithin cap).engine = (e.processWithin cap).engine.redefine other
    rw [engine, engine']
    exact congrArg (fun world ↦ { e.redefine other with world }) leaves
  | resume run choice => exact ⟨rfl, rfl⟩
  | _ => exact absurd trivial performs

end Engine

private theorem Chronicle.after_unfired (never : ∀ w : World, ¬ w.Admits event) (h : Chronicle ν)
    (commands : List (Command ν)) (unfired : .noted (.logged (.firing event)) ∉ h.history) :
    .noted (.logged (.firing event)) ∉ (h.after commands).history := by
  induction commands generalizing h with
  | nil => exact unfired
  | cons c rest ih =>
    apply ih
    intro member
    rcases List.mem_append.1 member with earlier | later
    · exact unfired earlier
    · rcases List.mem_cons.1 later with impossible | later
      · cases impossible
      · obtain ⟨entry, noted, same⟩ := List.mem_map.1 later
        cases same
        exact h.engine.perform_unfired never c (Array.mem_toList_iff.1 noted)

end

/-! ### Answers -/

/-- A run stays a run of its event. -/
theorem Scene.event_play (handlers : Handlers ν) (s : Scene ν) :
    (s.play handlers).run.event = s.run.event := by
  have frame : Frame fun s t : Scene ν ↦ t.run.event = s.run.event :=
    { refl := fun s ↦ rfl
      trans := fun first second ↦ second.trans first
      call := fun s c ↦ (frame_acts.call s c).event
      unhandled := fun s id ↦ rfl }
  apply frame.performActions
  · intro s id index action place
    rfl
  · intro s id index action
    rfl

private theorem Engine.event_resume (e : Engine ν) (run : Run) (choice : Option Nat) :
    ((e.perform (.resume run choice)).answer : Run).event = run.event := by
  show (e.stage.resume e.handlers run choice).1.event = run.event
  unfold Stage.resume
  split
  · exact Scene.event_play e.handlers _
  · rfl

private theorem Engine.answer_processPending (e : Engine ν) {run : Run}
    (answers : (e.perform .processPending).answer = some run) : run.phase = .waiting := by
  obtain ⟨served, batch⟩ := e.batch_processWithin e.config.maxTriggers.toNat
  exact batch.waiting run answers

private theorem Engine.answer_processNext (e : Engine ν) {run : Run}
    (answers : (e.perform .processNext).answer = some run) : run.phase = .waiting := by
  obtain ⟨served, batch⟩ := e.batch_processWithin 1
  exact batch.waiting run (e.processWithin_one.1.trans answers)

/-- How an event is passed over. It does not fire, whatever is done with any engine; a scan goes on
after its test, which changes the draws alone; the answers of commands are runs, as they always
are; and all of this is as if the event had a condition that is false. -/
structure Event.PassedOver (ν : Type) (event : Event) : Prop where
  unfired : ∀ (e : Engine ν) (commands : List (Command ν)),
    .noted (.logged (.firing event)) ∉ ((⟨e, []⟩ : Chronicle ν).after commands).history
  scanned : ∀ (catalog : Catalog) (handlers : Handlers ν) (id : String),
    catalog.find? id = some event → ∀ (rest : List String) (s : Stage ν),
      s.scan catalog handlers (id :: rest) = (s.admits event).2.scan catalog handlers rest ∧
        Stage.Tested event s (s.admits event).2
  waiting : ∀ (e : Engine ν) (run : Run),
    (e.perform .processNext).answer = some run ∨ (e.perform .processPending).answer = some run →
      run.phase = .waiting
  resumed : ∀ (e : Engine ν) (run : Run) (choice : Option Nat),
    ((e.perform (.resume run choice)).answer : Run).event = run.event
  untrue : ∀ other : Event, other.StandsFor event → ∀ e : Engine ν,
    e.catalog.find? event.id = some event → ∀ c : Command ν, ¬ c.IsPlain →
      ((e.redefine other).perform c).answer = (e.perform c).answer ∧
        ((e.redefine other).perform c).engine = (e.perform c).engine.redefine other

/-- An event with a condition that cannot be evaluated, for some answers of the game and some draws,
is passed over, and so never fires. -/
theorem Event.passedOver_of_fails {event : Event} {c : Condition} (fails : c.Fails)
    (member : c ∈ event.conditions) : event.PassedOver ν where
  unfired e commands := by
    apply Chronicle.after_unfired (fails.not_admits member)
    exact List.not_mem_nil
  scanned _ handlers _ registered rest s := by
    constructor
    · exact Stage.scan_failing handlers fails member registered rest s
    · exact (s.admits_spec event).2
  waiting e _ answers := by
    rcases answers with answers | answers
    · exact e.answer_processNext answers
    · exact e.answer_processPending answers
  resumed := Engine.event_resume
  untrue _ stands _ registered _ performs := Engine.perform_standIn stands registered performs

/-- A draw cannot be added to a text; the draw is made all the same, as it is where the condition is
false. -/
theorem Event.passedOver_of_fails_storm :
    let failing : Condition := { expression := "randi ( ) + 'a'" }
    let untrue : Condition := { expression := "randi ( ) && false" }
    let storm : Event := { id := "storm", conditions := [{}, failing] }
    failing.Fails ∧ failing ∈ storm.conditions ∧
      Event.StandsFor { storm with conditions := [{}, untrue] } storm ∧ storm.PassedOver Unit := by
  intro failing untrue storm
  let draw : Tree :=
    .call ⟨'r', ['a', 'n', 'd', 'i'], rfl, List.all_eq_true.1 (by decide)⟩ []
  have failed (query : Query) (draws : Draws) :
      Expression.evaluate failing.expression query draws =
        (.error (.notANumber "a"), draws.next.2) := by
    let sum : Tree := .binary ⟨.add, by decide⟩ draw (.text ⟨'\'', ['a'], rfl, by decide⟩)
    have source : sum.source = failing.expression := by decide
    obtain ⟨stop, read⟩ := sum.lex_source
    rw [source] at read
    simp only [Expression.evaluate, read]
    rfl
  have fails : failing.Fails := by
    let w : World := { store := .empty, draws := .fixed 0 }
    exact ⟨w.query, w.draws, _, congrArg Prod.fst (failed _ _)⟩
  have stands : untrue.StandsFor failing := by
    let both : Tree := .binary ⟨.and, by decide⟩ draw (.bool false)
    have source : both.source = untrue.expression := by decide
    intro query draws
    rw [failed]
    obtain ⟨stop, read⟩ := both.lex_source
    rw [source] at read
    simp only [Expression.evaluate, read]
    exact ⟨.bool ((Expression.Value.number _).isTrue && false), Bool.and_false _, rfl⟩
  have member : failing ∈ storm.conditions := by decide
  exact ⟨fails, member, ⟨[{}], failing, [], untrue, rfl, fails, stands, rfl⟩,
    passedOver_of_fails fails member⟩

end StoryEngine
