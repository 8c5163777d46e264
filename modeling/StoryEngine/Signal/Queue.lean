import StoryEngine.Probability
import StoryEngine.Signal.Basic

/-!
# Trigger queues

The pending signals, highest priority first and in the order of their arrival within a priority.
Which events a signal concerns is not decided here but when it is taken.

Specification: `SPEC_FULL.md` §4.2. The numbering is by natural numbers and does not wrap; it agrees
with a 64-bit counter as long as fewer than `2 ^ 64` signals are numbered since the queue was
cleared.
-/

namespace StoryEngine

/-- The pending signals in the order in which they will be taken, and the number that the next
one gets, which is larger than those of the pending ones. -/
structure SignalQueue where
  pending : List Signal
  /-- A natural number, which never wraps; it is that of a 64-bit counter only below `2 ^ 64`
  signals numbered since the queue was cleared. -/
  nextSequence : Nat
  ordered : pending.Pairwise Signal.Sooner
  numbered : ∀ s ∈ pending, s.sequence < nextSequence
deriving DecidableEq

namespace SignalQueue

/-- The queue without signals. -/
def empty : SignalQueue := ⟨[], 0, .nil, nofun⟩

/-- Puts a signal before the first one that is due later. -/
def insert (s : Signal) : List Signal → List Signal
  | [] => [s]
  | t :: rest => if compare s t = .gt then s :: t :: rest else t :: insert s rest

/-- Inserting a signal adds it and keeps the others. -/
theorem insert_perm (s : Signal) (pending : List Signal) :
    (insert s pending).Perm (s :: pending) := by
  induction pending with
  | nil => exact .refl _
  | cons t rest ih =>
    simp only [insert]
    split
    · exact .refl _
    · exact (ih.cons t).trans (.swap s t rest)

/-- Inserting a signal with a new number keeps the order. -/
theorem pairwise_insert {s : Signal} {pending : List Signal}
    (ordered : pending.Pairwise Signal.Sooner) (new : ∀ t ∈ pending, t.sequence < s.sequence) :
    (insert s pending).Pairwise Signal.Sooner := by
  induction pending with
  | nil => exact List.pairwise_singleton _ s
  | cons t rest ih =>
    obtain ⟨first, ordered'⟩ := List.pairwise_cons.1 ordered
    unfold insert
    by_cases sooner : s.Sooner t
    · rw [if_pos (Signal.compare_eq_gt.2 sooner)]
      apply List.pairwise_cons.2
      refine ⟨fun u member ↦ ?_, ordered⟩
      rcases List.mem_cons.1 member with rfl | member
      · exact sooner
      · exact sooner.trans (first u member)
    · rw [if_neg (mt Signal.compare_eq_gt.1 sooner)]
      apply List.pairwise_cons.2
      refine ⟨fun u member ↦ ?_, ih ordered' fun u member ↦ new u (List.mem_cons_of_mem t member)⟩
      rcases List.mem_cons.1 ((insert_perm s rest).mem_iff.1 member) with rfl | member
      · have := new t List.mem_cons_self
        exact Signal.Sooner.total (by omega) sooner
      · exact first u member

/-- The queue with a signal that gets the next number. -/
def push (q : SignalQueue) (trigger : String) (probability : Float) (priority : Int32) :
    SignalQueue where
  pending := insert { trigger, probability, priority, sequence := q.nextSequence } q.pending
  nextSequence := q.nextSequence + 1
  ordered := pairwise_insert q.ordered q.numbered
  numbered := by
    intro s member
    rcases List.mem_cons.1 ((insert_perm _ _).mem_iff.1 member) with rfl | member
    · exact Nat.lt_succ_self _
    · exact Nat.lt_succ_of_lt (q.numbered s member)

/-- Adds a signal and gives it the next number. A refused one takes no number. With a 64-bit counter
this is so only below `2 ^ 64` signals since the queue was cleared. -/
def enqueue (q : SignalQueue) (trigger : String) (probability : Float) (priority : Int32) :
    Except Refusal (Nat × SignalQueue) :=
  match admitProbability (.trigger trigger) probability with
  | .error e => .error e
  | .ok () => .ok (q.nextSequence, q.push trigger probability priority)

/-- The signal due next. -/
def peek? (q : SignalQueue) : Option Signal :=
  q.pending.head?

/-- Takes the signal due next. Specification: §4.2 (`pop`). -/
def pop? : SignalQueue → Option (Signal × SignalQueue)
  | ⟨[], _, _, _⟩ => none
  | ⟨s :: rest, nextSequence, ordered, numbered⟩ =>
      some (s, ⟨rest, nextSequence, (List.pairwise_cons.1 ordered).2,
        fun t member ↦ numbered t (List.mem_cons_of_mem s member)⟩)

/-- Takes all signals. -/
def drain (q : SignalQueue) : List Signal × SignalQueue :=
  (q.pending, ⟨[], q.nextSequence, .nil, nofun⟩)

/-- How many signals are pending. -/
def size (q : SignalQueue) : Nat :=
  q.pending.length

/-- Whether no signal is pending. -/
def isEmpty (q : SignalQueue) : Bool :=
  q.pending.isEmpty

/-- Drops all signals and starts numbering again. -/
def clear (_ : SignalQueue) : SignalQueue :=
  empty

/-- A signal is taken if any is pending. -/
theorem isSome_pop (q : SignalQueue) (pending : q.isEmpty = false) : q.pop?.isSome := by
  rcases q with ⟨_ | ⟨s, rest⟩, nextSequence, ordered, numbered⟩
  · cases pending
  · rfl

/-- No signal is taken if none is pending. -/
theorem pop_of_isEmpty (q : SignalQueue) (drained : q.isEmpty = true) : q.pop? = none := by
  rcases q with ⟨_ | ⟨s, rest⟩, nextSequence, ordered, numbered⟩
  · rfl
  · cases drained

/-- The signal taken is the one due soonest, and the others stay. -/
theorem pending_pop {q rest : SignalQueue} {s : Signal} (popped : q.pop? = some (s, rest)) :
    q.pending = s :: rest.pending ∧ rest.nextSequence = q.nextSequence ∧
      ∀ t ∈ rest.pending, s.Sooner t := by
  unfold pop? at popped
  split at popped
  · cases popped
  · rename_i ordered _
    cases popped
    exact ⟨rfl, rfl, (List.pairwise_cons.1 ordered).1⟩

end SignalQueue

end StoryEngine
