import StoryEngine.Json

/-!
# Signals

A signal is one occurrence of a trigger that waits to be processed. Signals are ordered by how
soon they are due: a higher priority is greater, and of the same priority the earlier one.

Specification: `SPEC_FULL.md` §3 (trigger entry) and §4.2. The number of a signal is a natural
number; it agrees with a 64-bit counter as long as fewer than `2 ^ 64` signals are numbered.
-/

namespace StoryEngine

/-- A pending occurrence of a trigger. -/
structure Signal where
  trigger : String
  probability : Float
  priority : Int32
  /-- The place in the order of arrival, a natural number; it is that of a 64-bit counter only below
  `2 ^ 64` signals numbered since the queue was cleared. -/
  sequence : Nat
deriving DecidableEq

namespace Signal

/-- The order of signals: the one due sooner is greater. -/
instance : Ord Signal where
  compare s t := (compare s.priority t.priority).then (compare t.sequence s.sequence)

/-- A signal is due sooner than another if its priority is higher or, of the same priority, if it
came earlier. Specification: §3 (trigger entry). -/
def Sooner (s t : Signal) : Prop :=
  t.priority < s.priority ∨ s.priority = t.priority ∧ s.sequence < t.sequence

/-- Two signals are the same signal when neither is due sooner. -/
def same (s t : Signal) : Bool :=
  s.priority == t.priority && s.sequence == t.sequence

/-- Reads a signal, of which all fields are required. -/
def ofJson? (j : Json) : Option Signal := do
  let j := j.record ["trigger_id", "probability", "priority", "sequence"]
  let trigger ← j.field? "trigger_id" Json.string?
  let probability ← j.field? "probability" Json.float?
  let priority ← j.field? "priority" Json.int32?
  let sequence ← j.field? "sequence" Json.nat64?
  return { trigger, probability, priority, sequence }

/-- The greater of two signals is the one due sooner. -/
theorem compare_eq_gt {s t : Signal} : compare s t = .gt ↔ s.Sooner t := by
  show (compare s.priority t.priority).then (compare t.sequence s.sequence) = .gt ↔ _
  rw [Ordering.then_eq_gt, Std.compare_eq_gt, Nat.compare_eq_gt, Std.compare_eq_iff_eq]
  rfl

/-- Being due sooner is transitive. -/
theorem Sooner.trans {s t u : Signal} (first : s.Sooner t) (second : t.Sooner u) :
    s.Sooner u := by
  unfold Sooner at *
  simp only [Int32.lt_iff_toInt_lt, ← Int32.toInt_inj] at *
  omega

/-- Of two signals with different numbers one is due sooner. -/
theorem Sooner.total {s t : Signal} (different : s.sequence ≠ t.sequence)
    (later : ¬ s.Sooner t) : t.Sooner s := by
  unfold Sooner at *
  simp only [Int32.lt_iff_toInt_lt, ← Int32.toInt_inj] at *
  omega

end Signal

end StoryEngine
