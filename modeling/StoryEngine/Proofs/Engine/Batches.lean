import StoryEngine.Proofs.Engine.Journal

/-!
# Batches

Processing the pending triggers is processing one after another: up to the first run that waits,
until none is left, or as often as the cap allows. It may therefore be split at any number of
triggers, and what handlers queue meanwhile is processed like what was pending before.

Specification: `SPEC_FULL.md` §10.5 (`process_pending_triggers`).
-/

namespace StoryEngine

variable {ν : Type}

/-! ### Splitting -/

namespace Stage

variable {catalog : Catalog} {handlers : Handlers ν}

/-- Processing may be interrupted after any number of triggers, and goes on unless a run
waits. -/
theorem processUpTo_add (m n : Nat) (s : Stage ν) :
    s.processUpTo catalog handlers (m + n) =
      match s.processUpTo catalog handlers m with
      | (some run, t) => (some run, t)
      | (none, t) => t.processUpTo catalog handlers n := by
  induction m generalizing s with
  | zero =>
    rw [Nat.zero_add]
    rfl
  | succ m ih =>
    rw [Nat.add_right_comm]
    cases pending : s.world.queue.isEmpty with
    | true =>
      rw [processUpTo_of_isEmpty pending, processUpTo_of_isEmpty pending]
      exact (processUpTo_of_isEmpty pending n).symm
    | false =>
      rw [processUpTo_succ pending, processUpTo_succ pending]
      rcases s.processNext catalog handlers with ⟨answer, t⟩
      cases answer with
      | none => exact ih t
      | some run => rfl

end Stage

/-! ### The warning at the cap -/

/-- A warning that processing has stopped at its cap. -/
def Entry.isCapWarning : Entry ν → Bool
  | .logged (.stoppedAtCap ..) => true
  | _ => false

namespace Stage

variable {s : Stage ν}

/-- The journal holds no warning that processing has stopped at its cap. -/
def Unwarned (s : Stage ν) : Prop :=
  ∀ entry ∈ s.journal, entry.isCapWarning = false

private theorem Unwarned.note (unwarned : s.Unwarned) {entry : Entry ν}
    (other : entry.isCapWarning = false) : (s.note entry).Unwarned := by
  intro entry' member
  rcases Array.mem_push.1 member with member | rfl
  · exact unwarned entry' member
  · exact other

private theorem Unwarned.test (unwarned : s.Unwarned) (e : Event) : (s.test e).2.Unwarned := by
  have noted (findings : List (Condition × Except Expression.Failure Bool)) {s : Stage ν}
      (unwarned : s.Unwarned) : (findings.foldl (noteFinding e.id) s).Unwarned := by
    induction findings generalizing s with
    | nil => exact unwarned
    | cons finding rest ih =>
      apply ih
      rcases finding with ⟨c, failure | held⟩
      · have failed : (s.log (.conditionFailed c failure)).Unwarned :=
          unwarned.note rfl
        exact failed.note rfl
      · exact unwarned.note rfl
  exact noted _ unwarned

private theorem Unwarned.admits (unwarned : s.Unwarned) (e : Event) : (s.admits e).2.Unwarned := by
  have skipped {s : Stage ν} (unwarned : s.Unwarned) (reason : SkipReason) :
      (s.log (.skipped e.id reason)).Unwarned := unwarned.note rfl
  have rolled : ((s.test e).2.roll (.event e.id) e.probability).2.Unwarned :=
    (unwarned.test e).note rfl
  unfold Stage.admits
  split
  · exact skipped unwarned _
  · split
    · exact skipped unwarned _
    · dsimp only
      split
      · exact skipped (unwarned.test e) _
      · split
        · exact rolled
        · exact skipped rolled _

end Stage

/-- Handlers cannot warn that processing has stopped at its cap. -/
theorem Scene.frame_unwarned :
    Frame fun s t : Scene ν ↦ s.toStage.Unwarned → t.toStage.Unwarned where
  refl s unwarned := unwarned
  trans first second unwarned := second (first unwarned)
  call s c unwarned := by
    have noted : (s.note (.called c)).toStage.Unwarned :=
      Stage.Unwarned.note unwarned rfl
    cases c <;> exact noted
  unhandled s id unwarned := Stage.Unwarned.note unwarned rfl

namespace Stage

variable {s : Stage ν}

private theorem Unwarned.fire (unwarned : s.Unwarned) (handlers : Handlers ν) (e : Event) :
    (s.fire handlers e).2.Unwarned := by
  have fires : (s.log (.firing e)).Unwarned := unwarned.note rfl
  refine Scene.frame_unwarned.performActions ?_ ?_ handlers _ _ fires
  · intro s id index action place unwarned
    exact Unwarned.note unwarned rfl
  · intro s id index action unwarned
    exact Unwarned.note unwarned rfl

variable (catalog : Catalog) (handlers : Handlers ν)

private theorem Unwarned.scan (unwarned : s.Unwarned) (ids : List String) :
    (s.scan catalog handlers ids).2.Unwarned := by
  induction ids generalizing s with
  | nil => exact unwarned
  | cons id rest ih =>
    rw [scan_cons]
    cases catalog.find? id with
    | none => exact ih unwarned
    | some e =>
      have tested := unwarned.admits e
      dsimp only
      split
      · split
        · exact tested.fire handlers e
        · exact ih (tested.fire handlers e)
      · exact ih tested

private theorem Unwarned.processNext (unwarned : s.Unwarned) :
    (s.processNext catalog handlers).2.Unwarned := by
  cases popped : s.world.queue.pop? with
  | none =>
    rw [Stage.processNext, popped]
    exact unwarned
  | some taken =>
    obtain ⟨signal, queue⟩ := taken
    have processing : (s.log (.processing signal.trigger)).Unwarned :=
      unwarned.note rfl
    have taken : (s.take signal queue).2.Unwarned :=
      processing.note rfl
    rw [processNext_pop popped]
    split
    · exact taken.scan catalog handlers _
    · exact taken.note rfl

private theorem Unwarned.processUpTo (unwarned : s.Unwarned) (n : Nat) :
    (s.processUpTo catalog handlers n).2.Unwarned := by
  induction n generalizing s with
  | zero => exact unwarned
  | succ n ih =>
    cases pending : s.world.queue.isEmpty with
    | true =>
      rw [processUpTo_of_isEmpty pending]
      exact unwarned
    | false =>
      have next := unwarned.processNext catalog handlers
      rw [processUpTo_succ pending]
      rcases made : s.processNext catalog handlers with ⟨answer, t⟩
      rw [made] at next
      cases answer with
      | none => exact ih next
      | some run => exact next

end Stage

/-! ### One trigger after another -/

/-- A queue from which some signals have been taken: the others are still pending, and signals may
have been added, with new numbers. -/
def SignalQueue.Yields (q : SignalQueue) (served : List Signal) (r : SignalQueue) : Prop :=
  q.nextSequence ≤ r.nextSequence ∧
    ∃ added, (served ++ r.pending).Perm (q.pending ++ added) ∧
      ∀ s ∈ added, q.nextSequence ≤ s.sequence

private theorem SignalQueue.Yields.refl (q : SignalQueue) : q.Yields [] q :=
  ⟨Nat.le_refl _, [], by simp, by simp⟩

private theorem SignalQueue.Yields.cons {q r t : SignalQueue} {signal : Signal}
    {served : List Signal}
    (taken : q.pending = signal :: r.pending) (numbering : r.nextSequence = q.nextSequence)
    {between : SignalQueue} (grows : r.Grows between) (yields : between.Yields served t) :
    q.Yields (signal :: served) t := by
  obtain ⟨le, added, perm, new⟩ := grows
  obtain ⟨le', added', perm', new'⟩ := yields
  rw [numbering] at le new
  refine ⟨Nat.le_trans le le', added ++ added', ?_, ?_⟩
  · rw [taken, List.cons_append, List.cons_append, ← List.append_assoc]
    exact (perm'.trans (perm.append_right added')).cons signal
  · intro s member
    rcases List.mem_append.1 member with member | member
    · exact new s member
    · exact Nat.le_trans le (new' s member)

namespace Engine

/-- Processes pending triggers up to a cap, whatever the settings say. -/
def processWithin (e : Engine ν) (cap : Nat) : Reply ν (Option Run) :=
  e.reply (e.stage.processPending e.catalog e.handlers cap)

/-- Processes one trigger. -/
def processOne (e : Engine ν) : Reply ν (Option Run) :=
  e.perform .processNext

/-- Signals are taken and processed one at a time, up to some point or to the first run that
waits. -/
inductive Serves : Engine ν → List Signal → Reply ν (Option Run) → Prop
  | done {e} : Serves e [] ⟨none, e, #[]⟩
  | next {e signal queue served reply} (taken : e.world.queue.pop? = some (signal, queue))
      (calm : e.processOne.answer = none) (others : Serves e.processOne.engine served reply) :
      Serves e (signal :: served)
        { reply with journal := e.processOne.journal ++ reply.journal }
  | waits {e signal queue run} (taken : e.world.queue.pop? = some (signal, queue))
      (waits : e.processOne.answer = some run) : Serves e [signal] e.processOne

variable {e : Engine ν} {served : List Signal} {reply : Reply ν (Option Run)}

private theorem processed_pop {signal : Signal} {queue : SignalQueue}
    (popped : e.world.queue.pop? = some (signal, queue)) :
    e.Processed signal queue e.processOne := by
  cases passed : (e.stage.take signal queue).1 with
  | false => exact processed_shut popped passed
  | true => exact processed_scan popped passed

/-- The run that processing a trigger answers waits. -/
theorem Processed.waiting {signal : Signal} {queue : SignalQueue} {run : Run}
    (processed : e.Processed signal queue reply) (answers : reply.answer = some run) :
    run.phase = .waiting := by
  cases passed : (e.world.draws.roll signal.probability).1 with
  | false =>
    rw [(processed.shut passed).1] at answers
    cases answers
  | true =>
    obtain ⟨s, t, -, scans, -⟩ := processed.scanned passed
    exact (scans.answered answers).1

private theorem Serves.waiting {run : Run} (serves : e.Serves served reply)
    (answers : reply.answer = some run) : run.phase = .waiting := by
  induction serves with
  | done => cases answers
  | next _ _ _ ih => exact ih answers
  | waits taken _ => exact (processed_pop taken).waiting answers

/-- Just the signals that are served are taken from the queue, in the order in which the journal
has them. -/
theorem Serves.accounts (serves : e.Serves served reply) :
    e.world.queue.Yields served reply.engine.world.queue ∧
      reply.journal.toList.filterMap Entry.processed? = served.map Signal.trigger := by
  induction serves with
  | done => exact ⟨.refl _, rfl⟩
  | next taken _ _ ih =>
    have processed := processed_pop taken
    refine ⟨.cons processed.taken processed.numbering processed.pending ih.1, ?_⟩
    rw [Array.toList_append, List.filterMap_append, processed.processed, ih.2]
    rfl
  | waits taken _ =>
    have processed := processed_pop taken
    exact ⟨.cons processed.taken processed.numbering processed.pending (.refl _),
      processed.processed⟩

/-- An engine that goes on from a stage forgets the journal of that stage. -/
private theorem reply_processUpTo (e : Engine ν) (t : Stage ν) (n : Nat) :
    let e' : Engine ν := { e with world := t.world }
    let later := e'.reply (e'.stage.processUpTo e.catalog e.handlers n)
    e.reply (t.processUpTo e.catalog e.handlers n) =
      { later with journal := t.journal ++ later.journal } := by
  intro e' later
  have split : e'.stage.prepend t.journal = t := t.prepend_blank
  rw [← split, Stage.processUpTo_prepend]
  show _ = (⟨_, _, (e'.stage.prepend t.journal).journal ++ _⟩ : Reply ν (Option Run))
  rw [split]
  rfl

/-- Processing up to a number of triggers serves at most so many, and fewer only if a run waits or
none is left. -/
theorem serves_processUpTo (e : Engine ν) (n : Nat) :
    let reply := e.reply (e.stage.processUpTo e.catalog e.handlers n)
    ∃ served, e.Serves served reply ∧ served.length ≤ n ∧
      (reply.answer = none →
        reply.engine.world.queue.isEmpty = true ∨ served.length = n) := by
  intro reply
  -- the rest of the batch is that of the engine after one trigger, which begins a new journal
  induction n generalizing e with
  | zero => exact ⟨[], .done, Nat.le_refl 0, fun _ ↦ .inr rfl⟩
  | succ n ih =>
    cases pending : e.world.queue.isEmpty with
    | true =>
      have same : reply = ⟨none, e, #[]⟩ :=
        congrArg e.reply (Stage.processUpTo_of_isEmpty pending (n + 1))
      rw [same]
      exact ⟨[], .done, Nat.zero_le _, fun _ ↦ .inl pending⟩
    | false =>
      obtain ⟨⟨signal, queue⟩, taken⟩ :=
        Option.isSome_iff_exists.1 (e.world.queue.isSome_pop pending)
      have one : e.processOne = e.reply (e.stage.processNext e.catalog e.handlers) := rfl
      have same : reply = _ := congrArg e.reply (Stage.processUpTo_succ pending n)
      rcases made : e.stage.processNext e.catalog e.handlers with ⟨answer, t⟩
      rw [made] at one same
      cases answer with
      | some run =>
        have same : reply = e.processOne := same.trans one.symm
        have waits : e.processOne.answer = some run := by rw [one]; rfl
        rw [same]
        refine ⟨[signal], .waits taken waits, by simp, ?_⟩
        intro calm
        rw [waits] at calm
        cases calm
      | none =>
        have calm : e.processOne.answer = none := by rw [one]; rfl
        obtain ⟨served, serves, within, exhausted⟩ := ih e.processOne.engine
        have next := Serves.next taken calm serves
        have same := same.trans (e.reply_processUpTo t n)
        rw [one] at next exhausted
        rw [same]
        exact ⟨signal :: served, next, Nat.succ_le_succ within,
          fun calm ↦ (exhausted calm).imp_right (congrArg Nat.succ)⟩

/-! ### Caps -/

/-- Processing within a cap is processing up to so many triggers, with a warning if that leaves
some pending without a run that waits. -/
theorem processWithin_eq (e : Engine ν) (cap : Nat) :
    let reply := e.reply (e.stage.processUpTo e.catalog e.handlers cap)
    e.processWithin cap =
      if reply.answer = none ∧ reply.engine.world.queue.isEmpty = false then
        { reply with
          journal :=
            reply.journal.push (.logged (.stoppedAtCap cap reply.engine.world.queue.size)) }
      else reply := by
  intro reply
  unfold processWithin Stage.processPending
  rcases made : e.stage.processUpTo e.catalog e.handlers cap with ⟨answer, t⟩
  have same : reply = e.reply (answer, t) := congrArg e.reply made
  rw [same]
  cases answer with
  | some run => rfl
  | none =>
    dsimp only
    cases pending : t.world.queue.isEmpty with
    | true =>
      rw [if_pos rfl, if_neg fun impossible ↦ by cases pending.symm.trans impossible.2]
    | false =>
      rw [if_neg Bool.false_ne_true, if_pos ⟨rfl, pending⟩]
      rfl

/-- The answer of processing within a cap, and the engine that it leaves. -/
theorem processWithin_outcome (e : Engine ν) (cap : Nat) :
    (e.processWithin cap).answer = (e.stage.processUpTo e.catalog e.handlers cap).1 ∧
      (e.processWithin cap).engine =
        { e with world := (e.stage.processUpTo e.catalog e.handlers cap).2.world } := by
  rw [processWithin_eq]
  split
  · exact ⟨rfl, rfl⟩
  · exact ⟨rfl, rfl⟩

/-- What processing within a cap comes to: the signals that are served, one at a time, and what is
in the journal of them. It ends at the first run that waits, when none is pending, or at the cap,
and warns if some are pending at the cap. -/
structure Batch (e : Engine ν) (cap : Nat) (served : List Signal)
    (reply : Reply ν (Option Run)) : Prop where
  serves : ∃ journal, e.Serves served ⟨reply.answer, reply.engine, journal⟩
  within : served.length ≤ cap
  exhausted : reply.answer = none →
    reply.engine.world.queue.isEmpty = true ∨ served.length = cap
  waiting : ∀ run, reply.answer = some run → run.phase = .waiting
  yields : e.world.queue.Yields served reply.engine.world.queue
  processed : reply.journal.toList.filterMap Entry.processed? = served.map Signal.trigger
  warns : ∀ number left, .logged (.stoppedAtCap number left) ∈ reply.journal ↔
    reply.answer = none ∧ reply.engine.world.queue.isEmpty = false ∧
      number = cap ∧ left = reply.engine.world.queue.size

private theorem stage_unwarned (e : Engine ν) : e.stage.Unwarned := by
  intro entry member
  cases Array.not_mem_empty entry member

/-- Processing within a cap is a batch of that cap. -/
theorem batch_processWithin (e : Engine ν) (cap : Nat) :
    ∃ served, e.Batch cap served (e.processWithin cap) := by
  obtain ⟨served, serves, within, exhausted⟩ := e.serves_processUpTo cap
  have unwarned : (e.stage.processUpTo e.catalog e.handlers cap).2.Unwarned :=
    e.stage_unwarned.processUpTo e.catalog e.handlers cap
  obtain ⟨yields, processed⟩ := serves.accounts
  refine ⟨served, ?_⟩
  rw [processWithin_eq]
  split
  · rename_i pending
    refine ⟨⟨_, serves⟩, within, exhausted, fun run ↦ serves.waiting, yields, ?_, ?_⟩
    · dsimp only
      rw [Array.toList_push, List.filterMap_append, processed]
      exact List.append_nil _
    · intro number left
      constructor
      · intro member
        rcases Array.mem_push.1 member with member | same
        · exact absurd (unwarned _ member).symm Bool.false_ne_true
        · cases same
          exact ⟨pending.1, pending.2, rfl, rfl⟩
      · rintro ⟨-, -, rfl, rfl⟩
        exact Array.mem_push_self
  · rename_i pending
    refine ⟨⟨_, serves⟩, within, exhausted, fun run ↦ serves.waiting, yields, processed, ?_⟩
    intro number left
    constructor
    · intro member
      exact absurd (unwarned _ member).symm Bool.false_ne_true
    · rintro ⟨calm, left, -, -⟩
      exact absurd ⟨calm, left⟩ pending

/-- Processing within a cap that does not stop at a run that waits goes on with what is left of a
larger cap. -/
theorem processWithin_add (e : Engine ν) (m n : Nat) (calm : (e.processWithin m).answer = none) :
    (e.processWithin (m + n)).answer = ((e.processWithin m).engine.processWithin n).answer ∧
      (e.processWithin (m + n)).engine = ((e.processWithin m).engine.processWithin n).engine := by
  obtain ⟨answer, engine⟩ := e.processWithin_outcome m
  obtain ⟨answers, leaves⟩ := e.processWithin_outcome (m + n)
  rw [answers, leaves, engine]
  rcases made : e.stage.processUpTo e.catalog e.handlers m with ⟨found, t⟩
  rw [answer, made] at calm
  obtain rfl : found = none := calm
  obtain ⟨answer', engine'⟩ := ({ e with world := t.world } : Engine ν).processWithin_outcome n
  have later := e.reply_processUpTo t n
  rw [Stage.processUpTo_add, made]
  exact ⟨(congrArg Reply.answer later).trans answer'.symm,
    (congrArg Reply.engine later).trans engine'.symm⟩

/-- A larger cap makes no difference once a run waits. -/
theorem processWithin_waits (e : Engine ν) (m n : Nat) {run : Run}
    (waits : (e.processWithin m).answer = some run) :
    e.processWithin (m + n) = e.processWithin m := by
  have waits := (e.processWithin_outcome m).1.symm.trans waits
  unfold processWithin Stage.processPending
  rw [Stage.processUpTo_add]
  rcases made : e.stage.processUpTo e.catalog e.handlers m with ⟨found, t⟩
  rw [made] at waits
  obtain rfl : found = some run := waits
  rfl

/-- Processing one trigger is processing within the cap of one. -/
theorem processWithin_one (e : Engine ν) :
    (e.processWithin 1).answer = (e.perform .processNext).answer ∧
      (e.processWithin 1).engine = (e.perform .processNext).engine := by
  obtain ⟨answer, engine⟩ := e.processWithin_outcome 1
  have one : e.stage.processUpTo e.catalog e.handlers 1 =
      e.stage.processNext e.catalog e.handlers := by
    cases pending : e.world.queue.isEmpty with
    | true =>
      rw [Stage.processUpTo_of_isEmpty pending, Stage.processNext_of_isEmpty pending]
    | false =>
      rw [Stage.processUpTo_succ pending]
      rcases e.stage.processNext e.catalog e.handlers with ⟨answer, t⟩
      cases answer with
      | none => rfl
      | some run => rfl
  rw [answer, engine, one]
  exact ⟨rfl, rfl⟩

/-- Processing the pending triggers is processing them one by one within the cap of the settings.
A batch may be split anywhere: a run that waits ends it, and otherwise the rest of the cap is
used on what is left. -/
theorem processPending_splits (e : Engine ν) :
    e.perform .processPending = e.processWithin e.config.maxTriggers.toNat ∧
    (∀ cap, ∃ served, e.Batch cap served (e.processWithin cap)) ∧
    ((e.processWithin 1).answer = (e.perform .processNext).answer ∧
      (e.processWithin 1).engine = (e.perform .processNext).engine) ∧
    ∀ m n,
      (∀ run, (e.processWithin m).answer = some run →
        e.processWithin (m + n) = e.processWithin m) ∧
      ((e.processWithin m).answer = none →
        (e.processWithin (m + n)).answer = ((e.processWithin m).engine.processWithin n).answer ∧
        (e.processWithin (m + n)).engine =
          ((e.processWithin m).engine.processWithin n).engine) := by
  refine ⟨rfl, e.batch_processWithin, e.processWithin_one, ?_⟩
  intro m n
  constructor
  · intro run waits
    exact e.processWithin_waits m n waits
  · intro calm
    exact e.processWithin_add m n calm

end Engine

end StoryEngine
