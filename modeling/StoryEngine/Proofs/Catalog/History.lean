import Mathlib.Data.List.Induction
import StoryEngine.Catalog

/-!
# The history of a catalog

Calls that register and unregister events, and what they say by themselves: which definition an
id has after them, and which call brought an id to the trigger where it has been since.
-/

namespace StoryEngine

/-- A call that changes a catalog. -/
inductive CatalogOp where
  | register (event : Event)
  | unregister (id : String)

namespace CatalogOp

/-- The id that a call is about. -/
def id : CatalogOp → String
  | register event => event.id
  | unregister id => id

/-- The definition with which a call leaves its id. -/
def definition? : CatalogOp → Option Event
  | register event => some event
  | unregister _ => none

private theorem eq_register {op : CatalogOp} {e : Event} (defines : op.definition? = some e) :
    op = register e := by
  cases op with
  | register event => exact congrArg register (Option.some.inj defines)
  | unregister id => cases defines

end CatalogOp

namespace Catalog

/-- The definition that a call replaces or removes, and the catalog afterwards. -/
def apply (c : Catalog) : CatalogOp → Option Event × Catalog
  | .register event => c.register event
  | .unregister id => c.unregister id

/-- The catalog after calls in turn. -/
def after (c : Catalog) (ops : List CatalogOp) : Catalog :=
  ops.foldl (fun c op ↦ (c.apply op).2) c

/-- The last call is made on what the calls before it leave. -/
theorem after_snoc (c : Catalog) (ops : List CatalogOp) (op : CatalogOp) :
    c.after (ops ++ [op]) = ((c.after ops).apply op).2 :=
  List.foldl_append

private theorem find?_apply (c : Catalog) (op : CatalogOp) (id : String) :
    (c.apply op).2.find? id = if op.id = id then op.definition? else c.find? id := by
  cases op with
  | register event => exact c.find?_register event id
  | unregister other => exact c.find?_unregister other id

private theorem dedupe_apply (c : Catalog) (op : CatalogOp) : (c.apply op).2.dedupe = c.dedupe := by
  cases op with
  | register event =>
    show (c.enter event _).dedupe = c.dedupe
    unfold enter
    repeat' split
    all_goals simp
  | unregister id =>
    show (c.unregister id).2.dedupe = c.dedupe
    unfold unregister
    split
    · rfl
    · exact c.dedupe_unlist _ _

/-! ### Standing definitions -/

/-- The definition of an id after calls in turn: the one with which the last call about the id
leaves it. -/
def standing? (ops : List CatalogOp) (id : String) : Option Event :=
  (ops.reverse.find? (·.id == id)).bind CatalogOp.definition?

/-- After calls in turn an id has a definition, which is on a certain trigger. -/
def StandsOn (ops : List CatalogOp) (id trigger : String) : Prop :=
  (standing? ops id).map Event.trigger = some trigger

instance (ops : List CatalogOp) (id trigger : String) : Decidable (StandsOn ops id trigger) :=
  inferInstanceAs (Decidable (_ = _))

variable {ops : List CatalogOp} {op : CatalogOp} {id trigger : String}

/-- A call with a number is one of those before the last call, or it is the last. -/
theorem call_snoc {n : Nat} {other : CatalogOp} : (ops ++ [op])[n]? = some other ↔
    ops[n]? = some other ∨ n = ops.length ∧ op = other := by
  grind

private theorem standing?_snoc (ops : List CatalogOp) (op : CatalogOp) (id : String) :
    standing? (ops ++ [op]) id = if op.id = id then op.definition? else standing? ops id := by
  unfold standing?
  rw [List.reverse_append, List.reverse_singleton, List.singleton_append, List.find?_cons]
  by_cases same : op.id = id
  · rw [if_pos same, beq_iff_eq.2 same]
    rfl
  · rw [if_neg same, beq_eq_false_iff_ne.2 same]

/-- An id stands on a trigger if that is the trigger of its standing definition. -/
theorem standsOn_iff : StandsOn ops id trigger ↔
    ∃ e, standing? ops id = some e ∧ e.trigger = trigger :=
  Option.map_eq_some_iff

/-- The last call settles where its own id stands; any other id stands where it did. -/
theorem standsOn_snoc : StandsOn (ops ++ [op]) id trigger ↔
    if op.id = id then op.definition?.map Event.trigger = some trigger
    else StandsOn ops id trigger := by
  unfold StandsOn
  rw [standing?_snoc]
  split
  · exact Iff.rfl
  · exact Iff.rfl

/-- An id stands on one trigger at most. -/
theorem StandsOn.unique {other : String} (here : StandsOn ops id trigger)
    (there : StandsOn ops id other) : trigger = other :=
  Option.some.inj (here.symm.trans there)

/-- A catalog follows the calls that led to it, under a policy. -/
structure Follows (dedupe : Bool) (ops : List CatalogOp) (c : Catalog) : Prop where
  policy : c.dedupe = dedupe
  found : ∀ id, c.find? id = standing? ops id

/-- A new catalog follows the empty list of calls. -/
theorem follows_empty (dedupe : Bool) : Follows dedupe [] (empty dedupe) where
  policy := rfl
  found := find?_empty dedupe

/-- A catalog that follows calls follows them with one more that is made on it. -/
theorem Follows.apply {dedupe : Bool} {c : Catalog} (follows : Follows dedupe ops c)
    (op : CatalogOp) : Follows dedupe (ops ++ [op]) (c.apply op).2 where
  policy := (c.dedupe_apply op).trans follows.policy
  found id := by rw [find?_apply, standing?_snoc, follows.found]

/-! ### Places -/

/-- The call with number `k` brought an id to a trigger where it has been since: it registers the
id there, the id was not there before, and it has been there after every call from then on. -/
structure PlacedAt (ops : List CatalogOp) (id trigger : String) (k : Nat) : Prop where
  call : ∃ e, ops[k]? = some (.register e) ∧ e.id = id ∧ e.trigger = trigger
  before : ¬ StandsOn (ops.take k) id trigger
  since : ∀ n, k < n → n ≤ ops.length → StandsOn (ops.take n) id trigger

namespace PlacedAt

variable {j k : Nat}

/-- A place is the number of a call. -/
theorem lt_length (placed : PlacedAt ops id trigger k) : k < ops.length := by
  obtain ⟨e, there, -⟩ := placed.call
  exact (List.getElem?_eq_some_iff.1 there).1

/-- An id that has a place stands on the trigger. -/
theorem stands (placed : PlacedAt ops id trigger k) : StandsOn ops id trigger := by
  have last := placed.since ops.length placed.lt_length (Nat.le_refl _)
  rwa [List.take_length] at last

private theorem not_lt (first : PlacedAt ops id trigger j) (second : PlacedAt ops id trigger k) :
    ¬ j < k := by
  intro lt
  exact second.before (first.since k lt (Nat.le_of_lt second.lt_length))

/-- An id has one place at most for a trigger. -/
theorem unique (first : PlacedAt ops id trigger j) (second : PlacedAt ops id trigger k) :
    j = k := by
  have := first.not_lt second
  have := second.not_lt first
  omega

/-- An id that stays keeps its place. -/
private theorem snoc (placed : PlacedAt ops id trigger k)
    (stays : StandsOn (ops ++ [op]) id trigger) :
    PlacedAt (ops ++ [op]) id trigger k where
  call := by
    rw [List.getElem?_append_left placed.lt_length]
    exact placed.call
  before := by
    rw [List.take_append_of_le_length (Nat.le_of_lt placed.lt_length)]
    exact placed.before
  since n later within := by
    have total : (ops ++ [op]).length = ops.length + 1 := List.length_append
    by_cases last : n = (ops ++ [op]).length
    · rwa [last, List.take_length]
    · have within : n ≤ ops.length := by omega
      rw [List.take_append_of_le_length within]
      exact placed.since n later within

/-- An id that comes to a trigger is placed there by the last call. -/
theorem last (comes : StandsOn (ops ++ [op]) id trigger) (new : ¬ StandsOn ops id trigger) :
    PlacedAt (ops ++ [op]) id trigger ops.length where
  call := by
    have calls := standsOn_snoc.1 comes
    by_cases same : op.id = id
    · rw [if_pos same] at calls
      obtain ⟨e, defines, there⟩ := Option.map_eq_some_iff.1 calls
      have register := CatalogOp.eq_register defines
      rw [register] at same
      refine ⟨e, ?_, same, there⟩
      rw [List.getElem?_concat_length, register]
    · rw [if_neg same] at calls
      exact absurd calls new
  before := by rwa [List.take_left]
  since n later within := by
    have total : (ops ++ [op]).length = ops.length + 1 := List.length_append
    have last : n = (ops ++ [op]).length := by omega
    rwa [last, List.take_length]

end PlacedAt

/-- An id that stands on a trigger has a place there. -/
theorem exists_placedAt (ops : List CatalogOp) (stands : StandsOn ops id trigger) :
    ∃ k, PlacedAt ops id trigger k := by
  induction ops using List.reverseRecOn with
  | nil => cases stands
  | append_singleton ops op ih =>
    by_cases before : StandsOn ops id trigger
    · obtain ⟨k, placed⟩ := ih before
      exact ⟨k, placed.snoc stands⟩
    · exact ⟨ops.length, .last stands before⟩

/-- The place of an id that was there before the last call is older than that call. -/
theorem PlacedAt.of_snoc {k : Nat} (placed : PlacedAt (ops ++ [op]) id trigger k)
    (stood : StandsOn ops id trigger) : PlacedAt ops id trigger k := by
  obtain ⟨j, older⟩ := exists_placedAt ops stood
  rw [placed.unique (older.snoc placed.stands)]
  exact older

end Catalog

end StoryEngine
