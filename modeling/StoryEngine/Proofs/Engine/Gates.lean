import StoryEngine.Engine.Firing

/-!
# Gates

What must hold for an event to fire, said apart from how it is found out, and the draws that are
left once it has been found out. Whatever the answer, a test changes nothing but the draws.
-/

namespace StoryEngine

open Expression (Query)

/-! ### Conditions -/

/-- The value of a condition counts as true; `after` are the draws that its evaluation leaves. -/
def Condition.Met (c : Condition) (query : Query) (draws after : Draws) : Prop :=
  ∃ value, Expression.evaluate c.expression query draws = (.ok value, after) ∧
    value.isTrue = true

/-- The value of a condition does not count as true, or there is none. -/
def Condition.Missed (c : Condition) (query : Query) (draws after : Draws) : Prop :=
  ∃ result, Expression.evaluate c.expression query draws = (result, after) ∧
    ∀ value, result = .ok value → value.isTrue = false

/-- All conditions are met, each at the draws that the ones before it leave. -/
inductive AllMet (query : Query) : List Condition → Draws → Draws → Prop
  | nil {draws} : AllMet query [] draws draws
  | cons {c rest draws between after} (met : c.Met query draws between)
      (others : AllMet query rest between after) : AllMet query (c :: rest) draws after

/-- A condition is missed and all before it are met; those after it are not evaluated. -/
inductive OneMissed (query : Query) : List Condition → Draws → Draws → Prop
  | here {c rest draws after} (missed : c.Missed query draws after) :
      OneMissed query (c :: rest) draws after
  | later {c rest draws between after} (met : c.Met query draws between)
      (others : OneMissed query rest between after) : OneMissed query (c :: rest) draws after

section

variable {query : Query} {c : Condition} {cs : List Condition} {draws after : Draws}

/-- A condition is met or missed, whatever the game answers and whatever is drawn. -/
theorem Condition.met_or_missed (c : Condition) (query : Query) (draws : Draws) :
    ∃ after, c.Met query draws after ∨ c.Missed query draws after := by
  rcases evaluated : Expression.evaluate c.expression query draws with ⟨result, after⟩
  refine ⟨after, ?_⟩
  cases result with
  | error e =>
    right
    refine ⟨.error e, evaluated, ?_⟩
    intro value impossible
    cases impossible
  | ok value =>
    cases holds : value.isTrue with
    | true => exact .inl ⟨value, evaluated, holds⟩
    | false =>
      right
      refine ⟨.ok value, evaluated, ?_⟩
      intro value' same
      cases same
      exact holds

private theorem Condition.Met.evaluate (met : c.Met query draws after) :
    c.evaluate query draws = (.ok true, after) := by
  obtain ⟨value, evaluated, holds⟩ := met
  rw [Condition.evaluate, evaluated, ← holds]
  rfl

private theorem Condition.Missed.evaluate (missed : c.Missed query draws after) :
    ∃ finding, finding ≠ .ok true ∧ c.evaluate query draws = (finding, after) := by
  obtain ⟨result, evaluated, fails⟩ := missed
  refine ⟨result.map Expression.Value.isTrue, ?_, ?_⟩
  · intro holds
    cases result with
    | error e => cases holds
    | ok value =>
      have : value.isTrue = true := Except.ok.inj holds
      rw [fails value rfl] at this
      cases this
  · rw [Condition.evaluate, evaluated]

private theorem allMet_or_oneMissed (query : Query) (cs : List Condition) (draws : Draws) :
    ∃ after, AllMet query cs draws after ∨ OneMissed query cs draws after := by
  induction cs generalizing draws with
  | nil => exact ⟨draws, .inl .nil⟩
  | cons c rest ih =>
    obtain ⟨between, met | missed⟩ := c.met_or_missed query draws
    · obtain ⟨after, others | others⟩ := ih between
      · exact ⟨after, .inl (.cons met others)⟩
      · exact ⟨after, .inr (.later met others)⟩
    · exact ⟨between, .inr (.here missed)⟩

private theorem AllMet.verdict (met : AllMet query cs draws after) :
    (Verdict.ofConditions query cs draws).holds = true ∧
      (Verdict.ofConditions query cs draws).draws = after := by
  induction met with
  | nil => exact ⟨rfl, rfl⟩
  | cons met others ih =>
    rw [Verdict.ofConditions, met.evaluate]
    exact ih

private theorem OneMissed.verdict (missed : OneMissed query cs draws after) :
    (Verdict.ofConditions query cs draws).holds = false ∧
      (Verdict.ofConditions query cs draws).draws = after := by
  induction missed with
  | here missed =>
    obtain ⟨finding, fails, evaluated⟩ := missed.evaluate
    rw [Verdict.ofConditions, evaluated]
    rcases finding with e | _ | _
    · exact ⟨rfl, rfl⟩
    · exact ⟨rfl, rfl⟩
    · exact absurd rfl fails
  | later met others ih =>
    rw [Verdict.ofConditions, met.evaluate]
    exact ih

private theorem AllMet.unique {other : Draws} (met : AllMet query cs draws after)
    (again : AllMet query cs draws other) : after = other :=
  met.verdict.2.symm.trans again.verdict.2

/-- Where a condition is missed, not all are met. -/
theorem OneMissed.not_allMet {other : Draws} (missed : OneMissed query cs draws after) :
    ¬ AllMet query cs draws other := by
  intro met
  have holds := met.verdict.1
  rw [missed.verdict.1] at holds
  cases holds

end

/-! ### Events -/

/-- An event is neither disabled nor used up. -/
def World.Offers (w : World) (e : Event) : Prop :=
  w.flags.isEnabled e.id = true ∧ ¬ (e.once = true ∧ w.flags.hasOccurred e.id = true)

/-- An event may fire: it is offered, all its conditions are met, and its own gate lets it pass
at the draws that they leave. -/
def World.Admits (w : World) (e : Event) : Prop :=
  w.Offers e ∧ ∃ draws, AllMet w.query e.conditions w.draws draws ∧
    (draws.roll e.probability).1 = true

/-- The draws that are left once it is known whether an event may fire: the conditions come
first, and the gate of the event is tried only if all of them are met. -/
inductive World.Leaves (w : World) (e : Event) : Draws → Prop
  | barred (barred : ¬ w.Offers e) : Leaves w e w.draws
  | missed {draws} (offered : w.Offers e) (missed : OneMissed w.query e.conditions w.draws draws) :
      Leaves w e draws
  | rolled {draws} (offered : w.Offers e) (met : AllMet w.query e.conditions w.draws draws) :
      Leaves w e (draws.roll e.probability).2

/-- The event of a record that an event fires. -/
def Entry.fired? {ν : Type} : Entry ν → Option Event
  | .logged (.firing event) => some event
  | _ => none

/-- The trigger of a record that a trigger is processed. -/
def Entry.processed? {ν : Type} : Entry ν → Option String
  | .logged (.processing trigger) => some trigger
  | _ => none

/-- The call of an entry. -/
def Entry.call? {ν : Type} : Entry ν → Option (Call ν)
  | .called c => some c
  | _ => none

/-- The calls among some entries, in order. -/
def Entry.calls {ν : Type} (entries : List (Entry ν)) : List (Call ν) :=
  entries.filterMap call?

namespace Stage

variable {ν : Type} {s t u : Stage ν}

/-- What the journal says of the events that fired and the triggers that were processed between
two stages. -/
def Notes (fired : List Event) (processed : List String) (s t : Stage ν) : Prop :=
  ∃ notes, t.journal.toList = s.journal.toList ++ notes ∧
    notes.filterMap Entry.fired? = fired ∧ notes.filterMap Entry.processed? = processed

/-- Between two stages no event fired and no trigger was processed. -/
abbrev Quiet (s t : Stage ν) : Prop := Notes [] [] s t

/-- A stage with the same journal has noted nothing. -/
theorem Notes.of_eq (same : t.journal = s.journal) : Quiet s t := by
  refine ⟨[], ?_, rfl, rfl⟩
  rw [same, List.append_nil]

/-- What is noted one after another is noted together. -/
theorem Notes.trans {fired later : List Event} {processed next : List String}
    (first : Notes fired processed s t) (second : Notes later next t u) :
    Notes (fired ++ later) (processed ++ next) s u := by
  obtain ⟨notes, journal, rfl, rfl⟩ := first
  obtain ⟨notes', journal', rfl, rfl⟩ := second
  refine ⟨notes ++ notes', ?_, List.filterMap_append, List.filterMap_append⟩
  rw [journal', journal, List.append_assoc]

/-- Noting an entry adds the firing or the processing that it is. -/
theorem notes_note (s : Stage ν) (entry : Entry ν) :
    Notes entry.fired?.toList entry.processed?.toList s (s.note entry) := by
  refine ⟨[entry], Array.toList_push, ?_, ?_⟩
  · rw [List.filterMap_cons]
    cases entry.fired? <;> rfl
  · rw [List.filterMap_cons]
    cases entry.processed? <;> rfl

/-- A test of an event ends with the draws that it leaves, and nothing else has changed. -/
structure Tested (e : Event) (s t : Stage ν) : Prop where
  world : ∃ draws, s.world.Leaves e draws ∧ t.world = { s.world with draws }
  quiet : Quiet s t

private theorem world_noteFinding (id : String) (s : Stage ν)
    (finding : Condition × Except Expression.Failure Bool) :
    (s.noteFinding id finding).world = s.world ∧ Quiet s (s.noteFinding id finding) := by
  rcases finding with ⟨c, e | held⟩
  · exact ⟨rfl, (notes_note s _).trans (notes_note _ _)⟩
  · exact ⟨rfl, notes_note s _⟩

private theorem foldl_noteFinding (id : String)
    (findings : List (Condition × Except Expression.Failure Bool)) (s : Stage ν) :
    (findings.foldl (noteFinding id) s).world = s.world ∧
      Quiet s (findings.foldl (noteFinding id) s) := by
  induction findings generalizing s with
  | nil => exact ⟨rfl, .of_eq rfl⟩
  | cons finding rest ih =>
    obtain ⟨world, quiet⟩ := world_noteFinding id s finding
    obtain ⟨world', quiet'⟩ := ih (s.noteFinding id finding)
    exact ⟨world'.trans world, quiet.trans quiet'⟩

private theorem test_eq (s : Stage ν) (e : Event) :
    let verdict := Verdict.ofConditions s.world.query e.conditions s.world.draws
    (s.test e).1 = verdict.holds ∧
      (s.test e).2.world = { s.world with draws := verdict.draws } ∧ Quiet s (s.test e).2 := by
  intro verdict
  obtain ⟨world, quiet⟩ := foldl_noteFinding e.id verdict.findings s
  refine ⟨rfl, ?_, quiet⟩
  unfold test
  dsimp only
  rw [world]

private theorem roll_eq (s : Stage ν) (subject : Subject) (p : Float) :
    (s.roll subject p).1 = (s.world.draws.roll p).1 ∧
      (s.roll subject p).2.world = { s.world with draws := (s.world.draws.roll p).2 } ∧
      Quiet s (s.roll subject p).2 :=
  ⟨rfl, rfl, notes_note _ _⟩

/-- An event that is disabled or used up is not admitted, and nothing is drawn for it. -/
theorem admits_barred {e : Event} (barred : ¬ s.world.Offers e) :
    (s.admits e).1 = false ∧ (s.admits e).2.world = s.world ∧ Quiet s (s.admits e).2 := by
  unfold admits
  by_cases enabled : s.world.flags.isEnabled e.id = true
  · have used : (e.once && s.world.flags.hasOccurred e.id) = true := by
      by_cases used : e.once = true ∧ s.world.flags.hasOccurred e.id = true
      · rw [used.1, used.2]
        rfl
      · exact absurd ⟨enabled, used⟩ barred
    rw [enabled, used]
    exact ⟨rfl, rfl, notes_note s _⟩
  · rw [Bool.eq_false_iff.2 enabled]
    exact ⟨rfl, rfl, notes_note s _⟩

/-- An event that is neither disabled nor used up is admitted if its conditions and its gate let it.
-/
theorem admits_offered {e : Event} (offered : s.world.Offers e) :
    s.admits e =
      if (s.test e).1 = true then
        if ((s.test e).2.roll (.event e.id) e.probability).1 = true then
          (true, ((s.test e).2.roll (.event e.id) e.probability).2)
        else (false, ((s.test e).2.roll (.event e.id) e.probability).2.log
          (.skipped e.id .probabilityGate))
      else (false, (s.test e).2.log (.skipped e.id .conditionsNotMet)) := by
  obtain ⟨enabled, fresh⟩ := offered
  have unused : (e.once && s.world.flags.hasOccurred e.id) = false := by
    rw [Bool.eq_false_iff]
    intro used
    exact fresh (by rwa [Bool.and_eq_true] at used)
  unfold admits
  rw [enabled, unused]
  rcases s.test e with ⟨held, t⟩
  cases held with
  | false => rfl
  | true => rfl

/-- An event with a condition that is missed is not admitted; only the draws move on. -/
theorem admits_missed {e : Event} {draws : Draws} (offered : s.world.Offers e)
    (missed : OneMissed s.world.query e.conditions s.world.draws draws) :
    (s.admits e).1 = false ∧ (s.admits e).2.world = { s.world with draws } ∧
      Quiet s (s.admits e).2 := by
  obtain ⟨fails, left⟩ := missed.verdict
  obtain ⟨held, world, quiet⟩ := s.test_eq e
  rw [fails] at held
  rw [left] at world
  rw [admits_offered offered, held, if_neg Bool.false_ne_true]
  exact ⟨rfl, world, quiet.trans (notes_note _ _)⟩

private theorem admits_met {e : Event} {draws : Draws} (offered : s.world.Offers e)
    (met : AllMet s.world.query e.conditions s.world.draws draws) :
    (s.admits e).1 = (draws.roll e.probability).1 ∧
      (s.admits e).2.world = { s.world with draws := (draws.roll e.probability).2 } ∧
      Quiet s (s.admits e).2 := by
  obtain ⟨holds, left⟩ := met.verdict
  obtain ⟨held, world, quiet⟩ := s.test_eq e
  obtain ⟨passed, world', quiet'⟩ := (s.test e).2.roll_eq (.event e.id) e.probability
  rw [holds] at held
  rw [left] at world
  rw [world] at passed world'
  rw [admits_offered offered, held, if_pos rfl, passed]
  by_cases passes : (draws.roll e.probability).1 = true
  · rw [if_pos passes]
    exact ⟨passes.symm, world', quiet.trans quiet'⟩
  · rw [if_neg passes]
    exact ⟨(Bool.eq_false_iff.2 passes).symm, world',
      (quiet.trans quiet').trans (notes_note _ _)⟩

/-- The test of an event finds out whether it may fire. -/
theorem admits_spec (s : Stage ν) (e : Event) :
    ((s.admits e).1 = true ↔ s.world.Admits e) ∧ Tested e s (s.admits e).2 := by
  by_cases offered : s.world.Offers e
  · obtain ⟨draws, met | missed⟩ :=
      allMet_or_oneMissed s.world.query e.conditions s.world.draws
    · obtain ⟨admitted, world, quiet⟩ := admits_met offered met
      refine ⟨?_, ⟨_, .rolled offered met, world⟩, quiet⟩
      rw [admitted]
      constructor
      · intro passes
        exact ⟨offered, draws, met, passes⟩
      · rintro ⟨-, other, met', passes⟩
        rwa [met.unique met']
    · obtain ⟨refused, world, quiet⟩ := admits_missed offered missed
      refine ⟨?_, ⟨draws, .missed offered missed, world⟩, quiet⟩
      rw [refused]
      constructor
      · intro impossible
        cases impossible
      · rintro ⟨-, other, met, -⟩
        exact absurd met missed.not_allMet
  · obtain ⟨refused, world, quiet⟩ := admits_barred offered
    refine ⟨?_, ⟨_, .barred offered, world⟩, quiet⟩
    rw [refused]
    constructor
    · intro impossible
      cases impossible
    · intro admitted
      exact absurd admitted.1 offered

end Stage

end StoryEngine
