import StoryEngine.Proofs.Catalog.Listing

/-!
# Leftovers

Unregistering an id clears only the list of the trigger that its definition has at that time.
Without `dedupe` a moved event is also listed for the triggers where it was before, and those
entries outlast its definition.

Specification: `SPEC_FULL.md` §9 (open question) and §10.5 (`unregister_event`).
-/

namespace StoryEngine

namespace Catalog

variable {ops : List CatalogOp} {op : CatalogOp} {c : Catalog} {id trigger : String}

/-- The call with number `k` registers an id on a trigger, and no later call unregisters the id
while its definition is on that trigger. -/
structure EntryAt (ops : List CatalogOp) (id trigger : String) (k : Nat) : Prop where
  call : ∃ e, ops[k]? = some (.register e) ∧ e.id = id ∧ e.trigger = trigger
  uncleared : ∀ n, k < n → ops[n]? = some (.unregister id) → ¬ StandsOn (ops.take n) id trigger

/-- An entry of an id for a trigger lingers. -/
def Lingers (ops : List CatalogOp) (id trigger : String) : Prop :=
  ∃ k, EntryAt ops id trigger k

namespace EntryAt

variable {k : Nat}

private theorem lt_length (entry : EntryAt ops id trigger k) : k < ops.length := by
  obtain ⟨e, there, -⟩ := entry.call
  exact (List.getElem?_eq_some_iff.1 there).1

/-- The last call adds an entry if it registers the id on the trigger. -/
private theorem length_iff : EntryAt (ops ++ [op]) id trigger ops.length ↔
    ∃ e, op = .register e ∧ e.id = id ∧ e.trigger = trigger := by
  constructor
  · rintro ⟨⟨e, call, same, there⟩, -⟩
    rw [List.getElem?_concat_length] at call
    exact ⟨e, Option.some.inj call, same, there⟩
  · rintro ⟨e, rfl, same, there⟩
    refine ⟨⟨e, List.getElem?_concat_length, same, there⟩, ?_⟩
    intro n later unregisters
    rcases call_snoc.1 unregisters with earlier | ⟨last, -⟩
    · have within := (List.getElem?_eq_some_iff.1 earlier).1
      omega
    · omega

/-- The last call clears an older entry if it unregisters the id, standing on the trigger. -/
private theorem snoc_iff (older : k < ops.length) : EntryAt (ops ++ [op]) id trigger k ↔
    EntryAt ops id trigger k ∧ ¬ (op = .unregister id ∧ StandsOn ops id trigger) := by
  constructor
  · rintro ⟨call, uncleared⟩
    rw [List.getElem?_append_left older] at call
    refine ⟨⟨call, ?_⟩, ?_⟩
    · intro n later unregisters
      have within := (List.getElem?_eq_some_iff.1 unregisters).1
      rw [← List.take_append_of_le_length (Nat.le_of_lt within)]
      exact uncleared n later (call_snoc.2 (.inl unregisters))
    · rintro ⟨rfl, stands⟩
      apply uncleared ops.length older List.getElem?_concat_length
      rwa [List.take_left]
  · rintro ⟨⟨call, uncleared⟩, kept⟩
    refine ⟨by rwa [List.getElem?_append_left older], ?_⟩
    intro n later unregisters
    rcases call_snoc.1 unregisters with earlier | ⟨last, unregisters⟩
    · have within := (List.getElem?_eq_some_iff.1 earlier).1
      rw [List.take_append_of_le_length (Nat.le_of_lt within)]
      exact uncleared n later earlier
    · rw [last, List.take_left]
      intro stands
      exact kept ⟨unregisters, stands⟩

end EntryAt

private theorem not_lingers_nil : ¬ Lingers [] id trigger := by
  rintro ⟨k, entry⟩
  exact absurd entry.lt_length (Nat.not_lt_zero k)

/-- A registration on the trigger adds an entry that lingers, and one that lingers already is
cleared only when its id is unregistered while it stands on the trigger. -/
private theorem lingers_snoc : Lingers (ops ++ [op]) id trigger ↔
    (∃ e, op = .register e ∧ e.id = id ∧ e.trigger = trigger) ∨
      Lingers ops id trigger ∧ ¬ (op = .unregister id ∧ StandsOn ops id trigger) := by
  constructor
  · rintro ⟨k, entry⟩
    have within := entry.lt_length
    rw [List.length_append, List.length_singleton] at within
    rcases Nat.lt_succ_iff_lt_or_eq.1 within with older | rfl
    · obtain ⟨entry, kept⟩ := (EntryAt.snoc_iff older).1 entry
      exact .inr ⟨⟨k, entry⟩, kept⟩
    · exact .inl (EntryAt.length_iff.1 entry)
  · rintro (registers | ⟨⟨k, entry⟩, kept⟩)
    · exact ⟨ops.length, EntryAt.length_iff.2 registers⟩
    · exact ⟨k, (EntryAt.snoc_iff entry.lt_length).2 ⟨entry, kept⟩⟩

/-! ### Catalogs without `dedupe` -/

/-- A catalog without `dedupe` accrues the entries of the calls that led to it: an id is listed
for each trigger where an entry of it lingers. -/
structure Accrues (ops : List CatalogOp) (c : Catalog) : Prop extends Follows false ops c where
  listed : ∀ trigger id, id ∈ c.idsFor trigger ↔ Lingers ops id trigger

private theorem accrues_empty : Accrues [] (empty false) where
  toFollows := follows_empty false
  listed trigger id := by
    rw [idsFor_empty]
    exact iff_of_false List.not_mem_nil not_lingers_nil

namespace Accrues

private theorem mem_register (accrues : Accrues ops c) (e : Event) (trigger id : String) :
    id ∈ (c.register e).2.idsFor trigger ↔
      (e.id = id ∧ e.trigger = trigger) ∨ Lingers ops id trigger := by
  rw [idsFor_register_of_new (.inl accrues.policy)]
  by_cases there : e.trigger = trigger
  · rw [if_pos there, List.mem_append, List.mem_singleton, there, accrues.listed]
    simp only [and_true]
    rw [or_comm, eq_comm]
  · rw [if_neg there, accrues.listed]
    simp only [there, and_false, false_or]

private theorem mem_unregister (accrues : Accrues ops c) (other trigger id : String) :
    id ∈ (c.unregister other).2.idsFor trigger ↔
      Lingers ops id trigger ∧ ¬ (other = id ∧ StandsOn ops id trigger) := by
  rw [c.idsFor_unregister, accrues.found]
  show id ∈ (if StandsOn ops other trigger then _ else _) ↔ _
  by_cases same : other = id
  · rw [same]
    by_cases stands : StandsOn ops id trigger
    · rw [if_pos stands]
      simp [stands]
    · rw [if_neg stands, accrues.listed]
      simp [stands]
  · split
    · rw [List.mem_filter, accrues.listed]
      simp [same, Ne.symm same]
    · rw [accrues.listed]
      simp [same]

private theorem apply (accrues : Accrues ops c) (op : CatalogOp) :
    Accrues (ops ++ [op]) (c.apply op).2 where
  toFollows := accrues.toFollows.apply op
  listed trigger id := by
    rw [lingers_snoc]
    cases op with
    | register e =>
      refine (accrues.mem_register e trigger id).trans ?_
      simp
    | unregister other =>
      refine (accrues.mem_unregister other trigger id).trans ?_
      simp

end Accrues

private theorem accrues_after (ops : List CatalogOp) : Accrues ops ((empty false).after ops) := by
  induction ops using List.reverseRecOn with
  | nil => exact accrues_empty
  | append_singleton ops op ih =>
    rw [after_snoc]
    exact ih.apply op

/-! ### What unregistering leaves -/

/-- After an id is unregistered it is still listed for a trigger just if the catalog is without
`dedupe`, an entry for the trigger lingers, and the definition was not on the trigger. Registering
the id again adds one more entry to what is left. -/
theorem unregister_leaves (dedupe : Bool) (ops : List CatalogOp) (id : String) :
    let left := (((empty dedupe).after ops).unregister id).2
    (∀ trigger, id ∈ left.idsFor trigger ↔
      dedupe = false ∧ Lingers ops id trigger ∧ ¬ StandsOn ops id trigger) ∧
    ∀ (e : Event) (trigger : String), (left.register { e with id }).2.idsFor trigger =
      left.idsFor trigger ++ if e.trigger = trigger then [id] else [] := by
  intro left
  constructor
  · intro trigger
    cases dedupe with
    | true =>
      have agrees : Agrees ops ((empty true).after ops) := agrees_after ops
      rw [agrees.idsFor_unregister]
      simp
    | false =>
      have accrues : Accrues ops ((empty false).after ops) := accrues_after ops
      rw [accrues.mem_unregister]
      simp
  · intro e trigger
    have new : left.find? id = none := by
      rw [find?_unregister, if_pos rfl]
    rw [idsFor_register_of_new (.inr new)]
    by_cases there : e.trigger = trigger
    · rw [if_pos there, if_pos there, there]
    · rw [if_neg there, if_neg there, List.append_nil]

/-- An event that was registered at dawn and then at dusk is still listed at dawn once it is
unregistered. -/
theorem unregister_leaves_moved :
    let c := (empty false).after
      [.register { id := "tea", trigger := "dawn" }, .register { id := "tea", trigger := "dusk" }]
    (c.unregister "tea").1.isSome = true ∧ "tea" ∈ (c.unregister "tea").2.idsFor "dawn" := by
  decide +kernel

end Catalog

end StoryEngine
