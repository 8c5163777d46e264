import StoryEngine.Signal.Queue

/-!
# Arrivals

A backlog keeps the pending signals as they arrived, and looks for the one to take: the earliest
of those with the highest priority. A queue, which keeps them as they will be taken, gives the
same answers. What it has accepted and what has been taken from it balance.

Specification: `SPEC_FULL.md` §3 (invariants), §4.2 and §8 (trigger ordering).
-/

namespace StoryEngine

/-- What can be asked of a queue. -/
inductive QueueOp where
  | enqueue (trigger : String) (probability : Float) (priority : Int32)
  | pop
  | peek
  | size
  | clear

namespace QueueOp

/-- What an operation answers. -/
def Answer : QueueOp → Type
  | enqueue .. => Except Refusal Nat
  | pop | peek => Option Signal
  | size => Nat
  | clear => Unit

/-- The answers to operations in turn, given the effect of each. -/
def answers {σ : Type} (effect : σ → (op : QueueOp) → op.Answer × σ) :
    List QueueOp → σ → List ((op : QueueOp) × op.Answer)
  | [], _ => []
  | op :: rest, s => ⟨op, (effect s op).1⟩ :: answers effect rest (effect s op).2

end QueueOp

/-! ### Queues and backlogs -/

/-- The answer of a queue, and the queue afterwards. -/
def SignalQueue.apply (q : SignalQueue) : (op : QueueOp) → op.Answer × SignalQueue
  | .enqueue trigger probability priority =>
      match q.enqueue trigger probability priority with
      | .error e => (.error e, q)
      | .ok (sequence, q) => (.ok sequence, q)
  | .pop =>
      match q.pop? with
      | none => (none, q)
      | some (s, rest) => (some s, rest)
  | .peek => (q.peek?, q)
  | .size => (q.size, q)
  | .clear => ((), q.clear)

/-- The pending signals in the order of their arrival, and how many have been accepted. -/
structure Backlog where
  arrived : List Signal := []
  accepted : Nat := 0

namespace Backlog

/-- No pending signal has a higher priority. -/
def isForemost (b : Backlog) (s : Signal) : Bool :=
  b.arrived.all fun t ↦ t.priority ≤ s.priority

/-- The earliest of the signals with the highest priority. -/
def foremost? (b : Backlog) : Option Signal :=
  b.arrived.find? b.isForemost

/-- The answer of a backlog, and the backlog afterwards. -/
def apply (b : Backlog) : (op : QueueOp) → op.Answer × Backlog
  | .enqueue trigger probability priority =>
      match admitProbability (.trigger trigger) probability with
      | .error e => (.error e, b)
      | .ok () =>
          (.ok b.accepted,
            { arrived := b.arrived ++ [{ trigger, probability, priority, sequence := b.accepted }]
              accepted := b.accepted + 1 })
  | .pop => (b.foremost?, { b with arrived := b.arrived.eraseP b.isForemost })
  | .peek => (b.foremost?, b)
  | .size => (b.arrived.length, b)
  | .clear => ((), {})

private theorem isForemost_iff (b : Backlog) (s : Signal) :
    b.isForemost s = true ↔ ∀ t ∈ b.arrived, t.priority ≤ s.priority := by
  simp [isForemost]

end Backlog

namespace SignalQueue

/-- A queue holds the signals of a backlog, which are numbered as they arrive. -/
structure Holds (q : SignalQueue) (b : Backlog) : Prop where
  same : q.pending.Perm b.arrived
  numbered : b.arrived.Pairwise fun s t ↦ s.sequence < t.sequence
  next : q.nextSequence = b.accepted

variable {q : SignalQueue} {b : Backlog}

private theorem empty_holds : empty.Holds {} :=
  ⟨.refl _, .nil, rfl⟩

private theorem Holds.push (h : q.Holds b) (trigger : String) (probability : Float)
    (priority : Int32) :
    (q.push trigger probability priority).Holds
      { arrived := b.arrived ++ [{ trigger, probability, priority, sequence := b.accepted }]
        accepted := b.accepted + 1 } where
  same := by
    rw [← h.next]
    exact (insert_perm _ _).trans ((h.same.cons _).trans (List.perm_append_singleton _ _).symm)
  numbered := by
    apply List.pairwise_append.2
    refine ⟨h.numbered, List.pairwise_singleton _ _, ?_⟩
    intro s member t last
    cases List.mem_singleton.1 last
    rw [← h.next]
    exact q.numbered s (h.same.mem_iff.2 member)
  next := congrArg (· + 1) h.next

/-- The signal due soonest arrived as the first of those with the highest priority. -/
theorem Holds.split {rest : SignalQueue} {s : Signal} (h : q.Holds b)
    (popped : q.pop? = some (s, rest)) :
    ∃ before after, b.arrived = before ++ s :: after ∧ b.isForemost s = true ∧
      ∀ t ∈ before, ¬ b.isForemost t = true := by
  obtain ⟨pending, -, soonest⟩ := pending_pop popped
  have held : ∀ t, t ∈ b.arrived ↔ t = s ∨ t ∈ rest.pending := by
    intro t
    rw [← h.same.mem_iff, pending, List.mem_cons]
  obtain ⟨before, after, arrived⟩ := List.append_of_mem ((held s).2 (.inl rfl))
  refine ⟨before, after, arrived, ?_, ?_⟩
  · rw [b.isForemost_iff]
    intro t member
    rcases (held t).1 member with rfl | member
    · exact Int32.le_refl _
    · rcases soonest t member with higher | ⟨same, -⟩
      · exact Int32.le_of_lt higher
      · exact same ▸ Int32.le_refl _
  · intro t member foremost
    have numbered := h.numbered
    rw [arrived] at numbered
    have earlier : t.sequence < s.sequence :=
      (List.pairwise_append.1 numbered).2.2 t member s List.mem_cons_self
    have there : t ∈ b.arrived := by
      rw [arrived]
      exact List.mem_append_left _ member
    have under := (b.isForemost_iff t).1 foremost s ((held s).2 (.inl rfl))
    rcases (held t).1 there with rfl | waiting
    · exact Nat.lt_irrefl _ earlier
    · rcases soonest t waiting with higher | ⟨-, later⟩
      · exact Int32.lt_irrefl (Int32.lt_of_lt_of_le higher under)
      · omega

private theorem Holds.pop {rest : SignalQueue} {s : Signal} (h : q.Holds b)
    (popped : q.pop? = some (s, rest)) :
    b.foremost? = some s ∧ rest.Holds { b with arrived := b.arrived.eraseP b.isForemost } := by
  obtain ⟨before, after, arrived, foremost, others⟩ := h.split popped
  obtain ⟨pending, next, -⟩ := pending_pop popped
  have left : b.arrived.eraseP b.isForemost = before ++ after := by
    rw [arrived, List.eraseP_append_right _ others, List.eraseP_cons_of_pos foremost]
  refine ⟨?_, ?_, ?_, next.trans h.next⟩
  · apply List.find?_eq_some_iff_append.2
    refine ⟨foremost, before, after, arrived, ?_⟩
    intro t member
    rw [Bool.not_eq_true', Bool.eq_false_iff]
    exact others t member
  · show rest.pending.Perm (b.arrived.eraseP b.isForemost)
    have same := h.same
    rw [pending, arrived] at same
    rw [left]
    exact (same.trans List.perm_middle).cons_inv
  · exact h.numbered.sublist List.eraseP_sublist

private theorem pending_eq_nil (none : q.pop? = none) : q.pending = [] := by
  cases pending : q.isEmpty with
  | true => exact List.isEmpty_iff.1 pending
  | false =>
    have some := q.isSome_pop pending
    rw [none] at some
    cases some

private theorem Holds.pop_none (h : q.Holds b) (none : q.pop? = none) : b.arrived = [] := by
  have same := h.same
  rw [pending_eq_nil none] at same
  exact same.nil_eq.symm

/-- A queue and a backlog that it holds give the same answer, and the queue holds the backlog
afterwards. -/
theorem Holds.apply (h : q.Holds b) (op : QueueOp) :
    (q.apply op).1 = (b.apply op).1 ∧ (q.apply op).2.Holds (b.apply op).2 := by
  cases op with
  | enqueue trigger probability priority =>
    simp only [SignalQueue.apply, Backlog.apply, enqueue]
    cases admitProbability (.trigger trigger) probability with
    | error e => exact ⟨rfl, h⟩
    | ok => exact ⟨congrArg Except.ok h.next, h.push trigger probability priority⟩
  | pop =>
    simp only [SignalQueue.apply, Backlog.apply]
    cases popped : q.pop? with
    | none =>
      have nothing := h.pop_none popped
      have stays : b.arrived.eraseP b.isForemost = b.arrived := by
        rw [nothing, List.eraseP_nil]
      rw [Backlog.foremost?, stays, nothing]
      refine ⟨rfl, ?_⟩
      rw [← nothing]
      exact h
    | some taken => exact ⟨(h.pop popped).1.symm, (h.pop popped).2⟩
  | peek =>
    refine ⟨?_, h⟩
    show q.peek? = b.foremost?
    cases popped : q.pop? with
    | none =>
      rw [peek?, pending_eq_nil popped, Backlog.foremost?, h.pop_none popped]
      rfl
    | some taken =>
      rw [peek?, (pending_pop popped).1, (h.pop popped).1]
      rfl
  | size => exact ⟨h.same.length_eq, h⟩
  | clear => exact ⟨rfl, empty_holds⟩

private theorem Holds.answers (h : q.Holds b) (ops : List QueueOp) :
    QueueOp.answers SignalQueue.apply ops q = QueueOp.answers Backlog.apply ops b := by
  induction ops generalizing q b with
  | nil => rfl
  | cons op rest ih =>
    obtain ⟨answer, goes⟩ := h.apply op
    rw [QueueOp.answers, QueueOp.answers, answer, ih goes]

end SignalQueue

/-! ### The account of a queue -/

/-- A queue, the signals that it has accepted, and those that have been taken from it, each in
order: since the queue was new or, if it has been, since it was last cleared. -/
structure Ledger where
  queue : SignalQueue := .empty
  accepted : List Signal := []
  taken : List Signal := []

namespace Ledger

/-- The ledger after an operation with an answer, which leaves a queue. -/
def enter (l : Ledger) (queue : SignalQueue) : (op : QueueOp) → op.Answer → Ledger
  | .enqueue trigger probability priority, .ok sequence =>
      { l with
        queue
        accepted := l.accepted ++ [{ trigger, probability, priority, sequence }] }
  | .pop, some s => { l with queue, taken := l.taken ++ [s] }
  | .clear, _ => { queue }
  | _, _ => { l with queue }

/-- The ledger after an operation. -/
def step (l : Ledger) (op : QueueOp) : Ledger :=
  l.enter (l.queue.apply op).2 op (l.queue.apply op).1

/-- The ledger after operations in turn. -/
def after (l : Ledger) (ops : List QueueOp) : Ledger :=
  ops.foldl step l

/-- What has been accepted has been taken or is pending, and was numbered from zero on. -/
structure Balanced (l : Ledger) : Prop where
  account : l.accepted.Perm (l.taken ++ l.queue.pending)
  numbered : l.accepted.map Signal.sequence = List.range l.queue.nextSequence

variable {l : Ledger}

private theorem Balanced.step (balanced : l.Balanced) (op : QueueOp) : (l.step op).Balanced := by
  cases op with
  | enqueue trigger probability priority =>
    simp only [Ledger.step, SignalQueue.apply, SignalQueue.enqueue]
    cases admitProbability (.trigger trigger) probability with
    | error e => exact balanced
    | ok =>
      constructor
      · show (l.accepted ++ [_]).Perm (l.taken ++ SignalQueue.insert _ l.queue.pending)
        have inserted := SignalQueue.insert_perm
          { trigger, probability, priority, sequence := l.queue.nextSequence } l.queue.pending
        apply (List.perm_append_singleton _ _).trans
        apply (balanced.account.cons _).trans
        exact List.perm_middle.symm.trans (inserted.symm.append_left l.taken)
      · show (l.accepted ++ [_]).map Signal.sequence = List.range (l.queue.nextSequence + 1)
        rw [List.map_append, balanced.numbered, List.range_succ]
        rfl
  | pop =>
    simp only [Ledger.step, SignalQueue.apply]
    cases popped : l.queue.pop? with
    | none => exact balanced
    | some taken =>
      obtain ⟨s, rest⟩ := taken
      obtain ⟨pending, next, -⟩ := SignalQueue.pending_pop popped
      constructor
      · show l.accepted.Perm (l.taken ++ [s] ++ rest.pending)
        rw [List.append_assoc, List.singleton_append, ← pending]
        exact balanced.account
      · show l.accepted.map Signal.sequence = List.range rest.nextSequence
        rw [next, balanced.numbered]
  | clear => exact ⟨.refl _, rfl⟩
  | peek => exact balanced
  | size => exact balanced

private theorem Balanced.after (balanced : l.Balanced) (ops : List QueueOp) :
    (l.after ops).Balanced := by
  induction ops generalizing l with
  | nil => exact balanced
  | cons op rest ih => exact ih (balanced.step op)

/-- What a ledger says of its queue. Every accepted signal is taken at most once, unchanged, and
exactly once if all are taken; the one that is shown is the next to be taken, and is greater than
all others that are pending. -/
structure Accounts (l : Ledger) : Prop extends Balanced l where
  distinct : ((l.taken ++ l.queue.pending).map Signal.sequence).Nodup
  size : l.queue.size + l.taken.length = l.accepted.length
  drained : l.queue.isEmpty = true → l.taken.Perm l.accepted
  shown : l.queue.peek? = (l.queue.apply .pop).1
  greatest : ∀ s, l.queue.peek? = some s → ∀ t ∈ l.queue.pending, t = s ∨ compare s t = .gt
  refused : ∀ trigger probability priority, ¬ (0 ≤ probability ∧ probability ≤ 1) →
    l.queue.apply (.enqueue trigger probability priority) =
      (.error ⟨.trigger trigger, probability⟩, l.queue)
  cleared : l.step .clear = {}

end Ledger

namespace SignalQueue

private theorem peek?_eq_pop (q : SignalQueue) : q.peek? = (q.apply .pop).1 := by
  rcases q with ⟨_ | ⟨s, rest⟩, nextSequence, ordered, numbered⟩
  · rfl
  · rfl

private theorem apply_refused (q : SignalQueue) {trigger : String} {probability : Float}
    {priority : Int32} (improper : ¬ (0 ≤ probability ∧ probability ≤ 1)) :
    q.apply (.enqueue trigger probability priority) =
      (.error ⟨.trigger trigger, probability⟩, q) := by
  simp only [apply, enqueue, admitProbability, if_neg improper]

private theorem greatest_of_peek {q : SignalQueue} {s t : Signal} (shown : q.peek? = some s)
    (pending : t ∈ q.pending) : t = s ∨ compare s t = .gt := by
  obtain ⟨rest, split⟩ := List.head?_eq_some_iff.1 shown
  have ordered := q.ordered
  rw [split] at ordered pending
  rcases List.mem_cons.1 pending with same | later
  · exact .inl same
  · exact .inr (Signal.compare_eq_gt.2 ((List.pairwise_cons.1 ordered).1 t later))

end SignalQueue

namespace Ledger

private theorem Balanced.accounts {l : Ledger} (balanced : l.Balanced) : l.Accounts where
  toBalanced := balanced
  distinct := by
    rw [← (balanced.account.map Signal.sequence).nodup_iff, balanced.numbered]
    exact List.nodup_range
  size := by
    rw [balanced.account.length_eq, List.length_append, Nat.add_comm]
    rfl
  drained empty := by
    have account := balanced.account
    rw [List.isEmpty_iff.1 empty, List.append_nil] at account
    exact account.symm
  shown := l.queue.peek?_eq_pop
  greatest _ shown _ pending := SignalQueue.greatest_of_peek shown pending
  refused _ _ _ improper := l.queue.apply_refused improper
  cleared := rfl

end Ledger

/-- Whatever is asked of a queue, it answers as if the signals were kept in the order of their
arrival and the earliest of the highest priority were looked for; and its account balances. -/
theorem SignalQueue.answers_arrivals (ops : List QueueOp) :
    QueueOp.answers SignalQueue.apply ops .empty = QueueOp.answers Backlog.apply ops {} ∧
      (Ledger.after {} ops).Accounts := by
  constructor
  · exact empty_holds.answers ops
  · have balanced : Ledger.Balanced {} := ⟨.refl _, rfl⟩
    exact (balanced.after ops).accounts

end StoryEngine
