import Std.Data.ExtTreeSet
import StoryEngine.Text.Order

/-!
# Event flags

What changes about events while a game runs: which are disabled and which have occurred. Any id
can be flagged, also one that no definition has.

Specification: `SPEC_FULL.md` §4.3 (disabled and occurred sets). Enabling an event that fires only
once and has fired takes it off the disabled ones; it stays used up, as it has occurred.
-/

namespace StoryEngine

/-- The ids of the events that are disabled and of those that have occurred. -/
structure Flags where
  disabled : Std.ExtTreeSet String := ∅
  occurred : Std.ExtTreeSet String := ∅

namespace Flags

/-- Every event enabled, none occurred. -/
def clear : Flags := {}

/-- Enables an event. -/
def enable (f : Flags) (id : String) : Flags :=
  { f with disabled := f.disabled.erase id }

/-- Disables an event. -/
def disable (f : Flags) (id : String) : Flags :=
  { f with disabled := f.disabled.insert id }

/-- Disables several events. -/
def disableAll (f : Flags) (ids : List String) : Flags :=
  ids.foldl disable f

/-- Notes that an event has occurred. -/
def markOccurred (f : Flags) (id : String) : Flags :=
  { f with occurred := f.occurred.insert id }

/-- Whether an event is enabled. -/
def isEnabled (f : Flags) (id : String) : Bool :=
  !f.disabled.contains id

/-- Whether an event has occurred. -/
def hasOccurred (f : Flags) (id : String) : Bool :=
  f.occurred.contains id

/-- In a new game every event is enabled. -/
@[simp] theorem isEnabled_clear (id : String) : clear.isEnabled id = true := by
  simp [clear, isEnabled]

/-- In a new game no event has occurred. -/
@[simp] theorem hasOccurred_clear (id : String) : clear.hasOccurred id = false := by
  simp [clear, hasOccurred]

/-- Enabling an event enables it and keeps the others as they are. -/
@[simp] theorem isEnabled_enable (f : Flags) (id other : String) :
    (f.enable id).isEnabled other = (id == other || f.isEnabled other) := by
  simp [isEnabled, enable, bne, Text.compare_beq_eq]

/-- Enabling an event keeps what has occurred. -/
@[simp] theorem hasOccurred_enable (f : Flags) (id other : String) :
    (f.enable id).hasOccurred other = f.hasOccurred other := rfl

/-- Disabling an event disables it and keeps the others as they are. -/
@[simp] theorem isEnabled_disable (f : Flags) (id other : String) :
    (f.disable id).isEnabled other = (id != other && f.isEnabled other) := by
  simp [isEnabled, disable, bne, Text.compare_beq_eq]

/-- Disabling an event keeps what has occurred. -/
@[simp] theorem hasOccurred_disable (f : Flags) (id other : String) :
    (f.disable id).hasOccurred other = f.hasOccurred other := rfl

/-- Disabling several events disables them and keeps the others as they are. -/
@[simp] theorem isEnabled_disableAll (f : Flags) (ids : List String) (other : String) :
    (f.disableAll ids).isEnabled other = (!ids.contains other && f.isEnabled other) := by
  induction ids generalizing f with
  | nil => simp [disableAll]
  | cons id ids ih =>
    simp only [disableAll, List.foldl_cons] at ih ⊢
    rw [ih, isEnabled_disable, List.contains_cons, bne, Bool.not_or, BEq.comm, Bool.and_assoc,
      Bool.and_left_comm]

/-- Disabling several events keeps what has occurred. -/
@[simp] theorem hasOccurred_disableAll (f : Flags) (ids : List String) (other : String) :
    (f.disableAll ids).hasOccurred other = f.hasOccurred other := by
  induction ids generalizing f with
  | nil => rfl
  | cons id ids ih => exact (ih _).trans (hasOccurred_disable f id other)

/-- Marking an event as occurred keeps what is enabled. -/
@[simp] theorem isEnabled_markOccurred (f : Flags) (id other : String) :
    (f.markOccurred id).isEnabled other = f.isEnabled other := rfl

/-- Marking an event as occurred marks no other. -/
@[simp] theorem hasOccurred_markOccurred (f : Flags) (id other : String) :
    (f.markOccurred id).hasOccurred other = (id == other || f.hasOccurred other) := by
  simp [hasOccurred, markOccurred, Text.compare_beq_eq]

end Flags

end StoryEngine
