import Mathlib.Algebra.GroupWithZero.Nat
import StoryEngine.Proofs.Catalog.History

/-!
# Listing

With `dedupe` a catalog lists every event for the trigger of its definition, once, and for no
other trigger, in the order in which the events came to their triggers.

Specification: `SPEC_FULL.md` §3 (invariants) and §10.4 (`dedupe_reregistration`).
-/

namespace StoryEngine

namespace Catalog

/-- A catalog agrees with the calls that led to it: each event is listed just for its trigger,
once, and the ids of a list have the order of their places. -/
structure Agrees (ops : List CatalogOp) (c : Catalog) : Prop extends Follows true ops c where
  listed : ∀ trigger id, id ∈ c.idsFor trigger ↔ StandsOn ops id trigger
  distinct : ∀ trigger, (c.idsFor trigger).Nodup
  ordered : ∀ trigger, (c.idsFor trigger).Pairwise fun first second ↦
    ∀ j k, PlacedAt ops first trigger j → PlacedAt ops second trigger k → j < k

variable {ops : List CatalogOp} {c : Catalog} {id trigger : String}

/-- A new catalog agrees with the empty list of calls. -/
theorem agrees_empty : Agrees [] (empty true) where
  toFollows := follows_empty true
  listed trigger id := by
    rw [idsFor_empty]
    constructor
    · intro member
      cases member
    · intro stands
      cases stands
  distinct trigger := by
    rw [idsFor_empty]
    exact .nil
  ordered trigger := by
    rw [idsFor_empty]
    exact .nil

namespace Agrees

private theorem filter_of_not_standsOn (agrees : Agrees ops c)
    (stands : ¬ StandsOn ops id trigger) :
    (c.idsFor trigger).filter (· != id) = c.idsFor trigger := by
  apply List.filter_eq_self.2
  intro other member
  rw [bne_iff_ne]
  rintro rfl
  exact stands ((agrees.listed trigger other).1 member)

/-- Registering puts an id at the end of the list of its trigger, unless it is there, and removes
it from any other list. -/
private theorem idsFor_register (agrees : Agrees ops c) (e : Event) (trigger : String) :
    (c.register e).2.idsFor trigger =
      if e.trigger = trigger then
        if StandsOn ops e.id trigger then c.idsFor trigger else c.idsFor trigger ++ [e.id]
      else (c.idsFor trigger).filter (· != e.id) := by
  cases stands : standing? ops e.id with
  | none =>
    have absent : ¬ StandsOn ops e.id trigger := by simp [StandsOn, stands]
    have new : c.find? e.id = none := (agrees.found e.id).trans stands
    rw [idsFor_register_of_new (.inr new), agrees.filter_of_not_standsOn absent, if_neg absent]
    by_cases here : e.trigger = trigger
    · rw [if_pos here, if_pos here, here]
    · rw [if_neg here, if_neg here]
  | some old =>
    have stood : StandsOn ops e.id trigger ↔ old.trigger = trigger := by simp [StandsOn, stands]
    show (c.enter e (c.find? e.id)).idsFor trigger = _
    rw [agrees.found, stands]
    simp only [enter, agrees.policy, Bool.not_true, Bool.false_eq_true, if_false]
    by_cases stays : old.trigger = e.trigger
    · rw [if_pos stays]
      by_cases here : e.trigger = trigger
      · rw [if_pos here, if_pos (stood.2 (stays.trans here))]
      · rw [if_neg here, agrees.filter_of_not_standsOn]
        rwa [stood, stays]
    · rw [if_neg stays, idsFor_list, idsFor_unlist, idsFor_unlist, if_neg stays]
      by_cases here : e.trigger = trigger
      · have gone : ¬ StandsOn ops e.id trigger := by rwa [stood, ← here]
        rw [if_pos here, if_pos here, if_neg gone, here]
      · rw [if_neg here, if_neg here]
        by_cases there : old.trigger = trigger
        · rw [if_pos there, there]
        · rw [if_neg there, agrees.filter_of_not_standsOn (mt stood.1 there)]

/-- Unregistering removes an id from every list. -/
theorem idsFor_unregister (agrees : Agrees ops c) (id trigger : String) :
    (c.unregister id).2.idsFor trigger = (c.idsFor trigger).filter (· != id) := by
  rw [c.idsFor_unregister, agrees.found]
  split
  · rfl
  · rename_i absent
    exact (agrees.filter_of_not_standsOn absent).symm

/-- A call that puts its id on a trigger adds it at the end of the list, unless it is there; any
other call removes its id from the list. -/
private theorem idsFor_apply (agrees : Agrees ops c) (op : CatalogOp) (trigger : String) :
    (c.apply op).2.idsFor trigger =
      if op.definition?.map Event.trigger = some trigger then
        if StandsOn ops op.id trigger then c.idsFor trigger else c.idsFor trigger ++ [op.id]
      else (c.idsFor trigger).filter (· != op.id) := by
  cases op with
  | register e =>
    simp only [CatalogOp.definition?, Option.map_some, Option.some.injEq]
    exact agrees.idsFor_register e trigger
  | unregister id => exact agrees.idsFor_unregister id trigger

/-! ### One more call -/

private theorem listed_apply (agrees : Agrees ops c) (op : CatalogOp) (trigger id : String) :
    id ∈ (c.apply op).2.idsFor trigger ↔ StandsOn (ops ++ [op]) id trigger := by
  rw [agrees.idsFor_apply, standsOn_snoc]
  by_cases here : op.definition?.map Event.trigger = some trigger
  · rw [if_pos here]
    by_cases same : op.id = id
    · rw [if_pos same, ← same]
      refine iff_of_true ?_ here
      split
      · rename_i stands
        exact (agrees.listed trigger op.id).2 stands
      · exact List.mem_append_right _ (List.mem_singleton_self _)
    · rw [if_neg same, ← agrees.listed trigger id]
      split
      · exact Iff.rfl
      · simp [Ne.symm same]
  · rw [if_neg here, List.mem_filter, agrees.listed, bne_iff_ne]
    by_cases same : op.id = id
    · simp [same, here]
    · simp [same, Ne.symm same]

private theorem distinct_apply (agrees : Agrees ops c) (op : CatalogOp) (trigger : String) :
    ((c.apply op).2.idsFor trigger).Nodup := by
  have distinct := agrees.distinct trigger
  rw [agrees.idsFor_apply]
  split
  · split
    · exact distinct
    · rename_i absent
      rw [← agrees.listed] at absent
      exact (List.perm_append_singleton _ _).nodup_iff.2 (List.nodup_cons.2 ⟨absent, distinct⟩)
  · exact distinct.filter _

/-- The ids of a list keep their places, so their order stays. -/
private theorem ordered_snoc (agrees : Agrees ops c) (op : CatalogOp) (trigger : String) :
    (c.idsFor trigger).Pairwise fun first second ↦ ∀ j k,
      PlacedAt (ops ++ [op]) first trigger j → PlacedAt (ops ++ [op]) second trigger k →
        j < k := by
  apply (agrees.ordered trigger).imp_of_mem
  intro first second here there order j k earlier later
  exact order j k (earlier.of_snoc ((agrees.listed _ _).1 here))
    (later.of_snoc ((agrees.listed _ _).1 there))

private theorem ordered_apply (agrees : Agrees ops c) (op : CatalogOp) (trigger : String) :
    ((c.apply op).2.idsFor trigger).Pairwise fun first second ↦ ∀ j k,
      PlacedAt (ops ++ [op]) first trigger j → PlacedAt (ops ++ [op]) second trigger k →
        j < k := by
  have ordered := agrees.ordered_snoc op trigger
  rw [agrees.idsFor_apply]
  split
  · split
    · exact ordered
    · rename_i absent
      apply List.pairwise_append.2
      refine ⟨ordered, List.pairwise_singleton _ _, ?_⟩
      intro first member second last j k earlier later
      cases List.mem_singleton.1 last
      have older := earlier.of_snoc ((agrees.listed _ _).1 member)
      have newest := later.unique (.last later.stands absent)
      rw [newest]
      exact older.lt_length
  · exact ordered.filter _

/-- A catalog that agrees with calls agrees with them and one more that is made on it. -/
theorem apply (agrees : Agrees ops c) (op : CatalogOp) :
    Agrees (ops ++ [op]) (c.apply op).2 where
  toFollows := agrees.toFollows.apply op
  listed := agrees.listed_apply op
  distinct := agrees.distinct_apply op
  ordered := agrees.ordered_apply op

end Agrees

/-- A catalog agrees with all calls that were made on it, one after another. -/
theorem agrees_after (ops : List CatalogOp) : Agrees ops ((empty true).after ops) := by
  induction ops using List.reverseRecOn with
  | nil => exact agrees_empty
  | append_singleton ops op ih =>
    rw [after_snoc]
    exact ih.apply op

/-! ### The number of events -/

private theorem mem_ids (c : Catalog) (id : String) : id ∈ c.ids ↔ ∃ e, c.find? id = some e := by
  rw [ids, Std.ExtTreeMap.mem_keys, Std.ExtTreeMap.mem_iff_isSome_getElem?,
    Option.isSome_iff_exists]
  rfl

private theorem mem_index {ids : List String} (member : (trigger, ids) ∈ c.index.toList) :
    c.idsFor trigger = ids := by
  rw [idsFor, Std.ExtTreeMap.getD_eq_getD_getElem?,
    Std.ExtTreeMap.mem_toList_iff_getElem?_eq_some.1 member, Option.getD_some]

private theorem mem_index_of_mem (member : id ∈ c.idsFor trigger) :
    (trigger, c.idsFor trigger) ∈ c.index.toList := by
  apply Std.ExtTreeMap.mem_toList_iff_getElem?_eq_some.2
  rw [idsFor, Std.ExtTreeMap.getD_eq_getD_getElem?] at *
  cases found : c.index[trigger]? with
  | none =>
    rw [found] at member
    cases member
  | some ids => rfl

/-- The lists together hold the registered ids, each once. -/
theorem Agrees.perm_ids (agrees : Agrees ops c) :
    (c.index.toList.flatMap Prod.snd).Perm c.ids := by
  have distinct : c.ids.Nodup := Std.ExtTreeMap.nodup_keys
  apply (List.perm_ext_iff_of_nodup _ distinct).2
  · intro id
    rw [List.mem_flatMap, mem_ids, agrees.found]
    constructor
    · rintro ⟨⟨trigger, ids⟩, entry, member⟩
      rw [← mem_index entry, agrees.listed] at member
      obtain ⟨e, stands, -⟩ := standsOn_iff.1 member
      exact ⟨e, stands⟩
    · rintro ⟨e, stands⟩
      have member := (agrees.listed e.trigger id).2 (standsOn_iff.2 ⟨e, stands, rfl⟩)
      exact ⟨_, mem_index_of_mem member, member⟩
  · apply List.pairwise_flatMap.2
    constructor
    · rintro ⟨trigger, ids⟩ entry
      rw [← mem_index entry]
      exact agrees.distinct trigger
    · apply Std.ExtTreeMap.distinct_keys_toList.imp_of_mem
      rintro ⟨trigger, ids⟩ ⟨other, others⟩ here there apart id member id' member' rfl
      rw [← mem_index here, agrees.listed] at member
      rw [← mem_index there, agrees.listed] at member'
      exact apart (Std.compare_eq_iff_eq.2 (member.unique member'))

private theorem Agrees.size (agrees : Agrees ops c) :
    (c.index.toList.map fun entry ↦ entry.2.length).sum = c.size := by
  rw [← List.length_flatMap, agrees.perm_ids.length_eq]
  exact Std.ExtTreeMap.length_keys

/-- What holds of a catalog that agrees with its calls: no id is listed for two triggers, every
id that is listed has a place, the lists together are as long as there are events, and a call
answers with the definition that it replaces or removes. -/
structure Consistent (ops : List CatalogOp) (c : Catalog) : Prop extends Agrees ops c where
  single : ∀ id trigger other, id ∈ c.idsFor trigger → id ∈ c.idsFor other → trigger = other
  placed : ∀ trigger, ∀ id ∈ c.idsFor trigger, ∃ k, PlacedAt ops id trigger k
  size : (c.index.toList.map fun entry ↦ entry.2.length).sum = c.size
  answers : ∀ op, (c.apply op).1 = standing? ops op.id

/-- A catalog that agrees with its calls has consistent lists. -/
theorem Agrees.consistent (agrees : Agrees ops c) : Consistent ops c where
  toAgrees := agrees
  single id trigger other here there :=
    ((agrees.listed trigger id).1 here).unique ((agrees.listed other id).1 there)
  placed trigger id member := exists_placedAt ops ((agrees.listed trigger id).1 member)
  size := agrees.size
  answers op := by
    rw [← agrees.found]
    cases op with
    | register event => rfl
    | unregister id =>
      show (c.unregister id).1 = c.find? id
      unfold unregister
      cases c.find? id with
      | none => rfl
      | some e => rfl

end Catalog

end StoryEngine
