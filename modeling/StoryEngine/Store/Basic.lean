import Std.Data.ExtTreeMap
import Std.Data.ExtTreeSet
import StoryEngine.Expression.Query
import StoryEngine.Number.Basic
import StoryEngine.Text.Order

/-!
# Stores

The values of a game: numeric variables with optional limits, counts of items, and active
statuses. A variable with limits is clamped whenever it is written and whenever its limits are;
a count never drops below zero and never passes the end of its range.

Specification: `SPEC_FULL.md` §6 (value store) and §10.5 (`VariableStore`). A count that is taken
may be negative, and then it is added.
-/

namespace StoryEngine

/-- The values of a game, by name. -/
structure Store where
  vars : Std.ExtTreeMap String Float := ∅
  limits : Std.ExtTreeMap String (Float × Float) := ∅
  items : Std.ExtTreeMap String Int64 := ∅
  statuses : Std.ExtTreeSet String := ∅

namespace Store

/-- The store that holds nothing. -/
def empty : Store := {}

/-- The value of a variable that is set. -/
def value? (s : Store) (name : String) : Option Float :=
  s.vars[name]?

/-- The value of a variable; one that is not set counts as zero. -/
def value (s : Store) (name : String) : Float :=
  (s.value? name).getD 0

/-- Whether a variable is set. -/
def isSet (s : Store) (name : String) : Bool :=
  s.vars.contains name

/-- The limits of a variable. -/
def limits? (s : Store) (name : String) : Option (Float × Float) :=
  s.limits[name]?

/-- A value as a variable takes it: within the limits of that variable. -/
def limited (s : Store) (name : String) (x : Float) : Float :=
  match s.limits? name with
  | some (low, high) => Number.clamp low high x
  | none => x

/-- Sets a variable, within its limits. Specification: §10.5. -/
def assign (s : Store) (name : String) (x : Float) : Store :=
  { s with vars := s.vars.insert name (s.limited name x) }

/-- Adds to a variable. -/
def increase (s : Store) (name : String) (delta : Float) : Store :=
  s.assign name (s.value name + delta)

/-- Adds to a variable and moves the sum up to `low` and down to `high`, where they are given. -/
def increaseWithin (s : Store) (name : String) (delta : Float) (low high : Option Float) : Store :=
  let sum := s.value name + delta
  let raised := low.elim sum (Number.larger sum)
  s.assign name (high.elim raised (Number.smaller raised))

/-- Gives a variable limits and leaves its value as it is. -/
def setLimits (s : Store) (name : String) (low high : Float) : Store :=
  { s with limits := s.limits.insert name (low, high) }

/-- Gives a variable limits and moves its value within them. -/
def confine (s : Store) (name : String) (low high : Float) : Store :=
  match s.value? name with
  | some x => (s.setLimits name low high).assign name x
  | none => s.setLimits name low high

/-- The count of an item; one that was never added counts zero. -/
def count (s : Store) (item : String) : Int64 :=
  s.items.getD item 0

/-- Adds to the count of an item; the sum stays in the range of counts and is not negative.
Specification: §10.5. -/
def gain (s : Store) (item : String) (n : Int64) : Store :=
  let sum := Int64.ofIntClamp ((s.count item).toInt + n.toInt)
  { s with items := s.items.insert item (max sum 0) }

/-- Takes from the count of an item, unless it is less than what is to be taken. Specification:
§10.5. -/
def spend (s : Store) (item : String) (n : Int64) : Bool × Store :=
  if s.count item < n then (false, s)
  else (true, s.gain item (Int64.ofIntClamp (-n.toInt)))

/-- Whether a status is active. -/
def isActive (s : Store) (name : String) : Bool :=
  s.statuses.contains name

/-- Activates a status. -/
def activate (s : Store) (name : String) : Store :=
  { s with statuses := s.statuses.insert name }

/-- Ends a status. -/
def deactivate (s : Store) (name : String) : Store :=
  { s with statuses := s.statuses.erase name }

/-- Forgets variables, items and statuses. Limits are rules of the game and stay. Specification:
§10.5 (`reset`). -/
def restart (s : Store) : Store :=
  { s with vars := ∅, items := ∅, statuses := ∅ }

/-- The items of which there are any, with their counts, by name. -/
def heldItems (s : Store) : List (String × Int64) :=
  s.items.toList.filter fun (_, n) ↦ 0 < n

/-- What expressions can ask of a store on its own: no event has occurred. -/
def query (s : Store) : Expression.Query where
  value := s.value
  count := s.count
  isActive := s.isActive
  hasOccurred _ := false

/-- Assigning sets the variable, within its limits, and keeps the others. -/
@[simp] theorem value?_assign (s : Store) (name other : String) (x : Float) :
    (s.assign name x).value? other =
      if name = other then some (s.limited name x) else s.value? other := by
  simp [value?, assign, Std.ExtTreeMap.getElem?_insert]

/-- Assigning keeps the limits. -/
@[simp] theorem limits?_assign (s : Store) (name other : String) (x : Float) :
    (s.assign name x).limits? other = s.limits? other := rfl

/-- Setting limits sets those of the variable and keeps the others. -/
@[simp] theorem limits?_setLimits (s : Store) (name other : String) (low high : Float) :
    (s.setLimits name low high).limits? other =
      if name = other then some (low, high) else s.limits? other := by
  simp [limits?, setLimits, Std.ExtTreeMap.getElem?_insert]

/-- Setting limits keeps the values. -/
@[simp] theorem value?_setLimits (s : Store) (name other : String) (low high : Float) :
    (s.setLimits name low high).value? other = s.value? other := rfl

/-- Confining sets the limits of the variable and keeps the others. -/
@[simp] theorem limits?_confine (s : Store) (name other : String) (low high : Float) :
    (s.confine name low high).limits? other =
      if name = other then some (low, high) else s.limits? other := by
  rw [confine]
  split <;> simp

/-- Confining clamps the value of the variable, if it has one, and keeps the others. -/
@[simp] theorem value?_confine (s : Store) (name other : String) (low high : Float) :
    (s.confine name low high).value? other =
      if name = other then (s.value? name).map (Number.clamp low high) else s.value? other := by
  rw [confine]
  split <;> rename_i held
  · simp [held, limited]
  · by_cases same : name = other
    · subst same
      simp [held]
    · simp [same]

/-- Adding moves the count of the item, within the range of counts, and keeps the others. -/
@[simp] theorem count_gain (s : Store) (item other : String) (n : Int64) :
    (s.gain item n).count other =
      if item = other then max (Int64.ofIntClamp ((s.count item).toInt + n.toInt)) 0
      else s.count other := by
  simp [count, gain, Std.ExtTreeMap.getD_insert]

/-- Activating a status makes it active and keeps the others. -/
@[simp] theorem isActive_activate (s : Store) (name other : String) :
    (s.activate name).isActive other = (name == other || s.isActive other) := by
  simp [isActive, activate, Text.compare_beq_eq]

/-- Deactivating a status makes it inactive and keeps the others. -/
@[simp] theorem isActive_deactivate (s : Store) (name other : String) :
    (s.deactivate name).isActive other = (name != other && s.isActive other) := by
  simp [isActive, deactivate, bne, Text.compare_beq_eq]

end Store

end StoryEngine
