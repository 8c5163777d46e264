import Mathlib.Algebra.BigOperators.Group.List.Basic
import StoryEngine.Proofs.Store.Items

/-!
# The total of all items

An operation on one item moves the total of all items by as much as its count. So taking a count
that is not negative never adds to what there is. Taking a negative one always does something: it
adds the opposite, up to the end of the range.
-/

namespace StoryEngine.Store

variable {s : Store} {item other : String} {n : Int64}

/-- How many items there are, of all kinds together. -/
def total (s : Store) : Int :=
  (s.items.toList.map fun (_, n) ↦ n.toInt).sum

/-! ### One entry of a map -/

section

variable {α : Type} {m : Std.ExtTreeMap String α} {key : String} {a : α}

private theorem nodup_toList (m : Std.ExtTreeMap String α) : m.toList.Nodup := by
  apply m.distinct_keys_toList.imp
  rintro e f distinct rfl
  exact distinct Std.ReflCmp.compare_self

/-- An entry and the others. -/
private theorem toList_perm_erase (held : m[key]? = some a) :
    m.toList.Perm ((key, a) :: (m.erase key).toList) := by
  have absent : (key, a) ∉ (m.erase key).toList := by
    simp [Std.ExtTreeMap.mem_toList_iff_getElem?_eq_some]
  apply (List.perm_ext_iff_of_nodup (nodup_toList m)
    (List.nodup_cons.2 ⟨absent, nodup_toList _⟩)).2
  rintro ⟨other, b⟩
  simp only [List.mem_cons, Std.ExtTreeMap.mem_toList_iff_getElem?_eq_some,
    Std.ExtTreeMap.getElem?_erase, Prod.mk.injEq]
  by_cases same : key = other
  · subst same
    simp [held, eq_comm]
  · simp [same, Ne.symm same]

private theorem erase_of_absent (absent : m[key]? = none) : m.erase key = m := by
  apply Std.ExtTreeMap.ext_getElem?
  intro other
  rw [Std.ExtTreeMap.getElem?_erase]
  split
  · next same => rw [← Std.LawfulEqCmp.eq_of_compare same, absent]
  · rfl

private theorem erase_insert (m : Std.ExtTreeMap String α) (key : String) (a : α) :
    (m.insert key a).erase key = m.erase key := by
  apply Std.ExtTreeMap.ext_getElem?
  intro other
  rw [Std.ExtTreeMap.getElem?_erase, Std.ExtTreeMap.getElem?_erase, Std.ExtTreeMap.getElem?_insert]
  split <;> rfl

end

/-! ### Totals -/

/-- The total without one item. -/
def rest (s : Store) (item : String) : Int :=
  ((s.items.erase item).toList.map fun (_, n) ↦ n.toInt).sum

/-- The total is one count and the rest. -/
theorem total_eq (s : Store) (item : String) :
    s.total = (s.count item).toInt + s.rest item := by
  rw [count, Std.ExtTreeMap.getD_eq_getD_getElem?]
  cases held : s.items[item]? with
  | some n =>
    rw [total, ((toList_perm_erase held).map _).sum_eq, List.map_cons, List.sum_cons]
    rfl
  | none =>
    rw [rest, erase_of_absent held]
    exact (Int.zero_add _).symm

/-- Adding moves the total by as much as the count. -/
theorem total_gain (s : Store) (item : String) (n : Int64) :
    (s.gain item n).total =
      s.total + (((s.gain item n).count item).toInt - (s.count item).toInt) := by
  have same : (s.gain item n).rest item = s.rest item := by
    rw [rest, gain, erase_insert, rest]
  rw [total_eq _ item, total_eq s item, same]
  omega

/-- Taking moves the total by as much as the count, whether something is taken or not. -/
theorem total_spend (s : Store) (item : String) (n : Int64) :
    (s.spend item n).2.total =
      s.total + (((s.spend item n).2.count item).toInt - (s.count item).toInt) := by
  cases taken : (s.spend item n).1 with
  | true =>
    rw [spend_taken taken]
    exact total_gain s item _
  | false =>
    rw [spend_refused taken]
    omega

/-- Taking a count that is not negative raises no count. -/
theorem count_spend_le (nonneg : 0 ≤ n) (other : String) :
    (s.spend item n).2.count other ≤ s.count other := by
  by_cases same : item = other
  · subst same
    rw [Int64.le_iff_toInt_le]
    cases taken : (s.spend item n).1 with
    | true =>
      have := (nonneg_iff n).1 nonneg
      rw [toInt_count_spend_of_nonneg nonneg taken]
      omega
    | false => exact Int.le_of_eq (by rw [spend_refused taken])
  · rw [count_spend_of_ne same]
    exact Int64.le_refl _

/-- A negative count is always taken, and adds its opposite as far as the count can grow. -/
theorem toInt_count_spend_of_neg (held : 0 ≤ (s.count item).toInt) (negative : n < 0) :
    (s.spend item n).1 = true ∧
      ((s.spend item n).2.count item).toInt =
        min Int64.maxValue.toInt ((s.count item).toInt - n.toInt) := by
  have below : n.toInt < 0 := Int64.lt_iff_toInt_lt.1 negative
  have taken : (s.spend item n).1 = true := by
    rw [spend_fst_iff, Int64.le_iff_toInt_le]
    omega
  refine ⟨taken, ?_⟩
  rw [toInt_count_spend taken]
  have := Int64.toInt_maxValue
  omega

/-- In every game, taking a count that is not negative raises no count and does not add to the
total. Taking a negative count is never refused: the count grows by its opposite, up to the end of
the range, and the total by as much. -/
theorem spend_unless_negative (ops : List StoreOp) (plays : ∀ op ∈ ops, op.isLoad = false)
    (item : String) (n : Int64) :
    let s := empty.run ops
    (0 ≤ n → (∀ other, (s.spend item n).2.count other ≤ s.count other) ∧
        (s.spend item n).2.total ≤ s.total) ∧
      (n < 0 → (s.spend item n).1 = true ∧
        ((s.spend item n).2.count item).toInt =
          min Int64.maxValue.toInt ((s.count item).toInt - n.toInt) ∧
        (∀ other, item ≠ other → (s.spend item n).2.count other = s.count other) ∧
        (s.spend item n).2.total =
          s.total + (((s.spend item n).2.count item).toInt - (s.count item).toInt)) := by
  intro s
  constructor
  · intro nonneg
    refine ⟨count_spend_le nonneg, ?_⟩
    have less : (s.spend item n).2.count item ≤ s.count item := count_spend_le nonneg item
    rw [Int64.le_iff_toInt_le] at less
    rw [total_spend]
    omega
  · intro negative
    obtain ⟨taken, grown⟩ := toInt_count_spend_of_neg (countsNonneg_run plays item) negative
    exact ⟨taken, grown, fun _ ↦ count_spend_of_ne, total_spend s item n⟩

/-- Two of three pieces of gold are taken, or five are added by taking minus five. -/
theorem spend_unless_negative_gold :
    let s := empty.run [.gain "gold" 3]
    (s.spend "gold" 2).2.count "gold" ≤ s.count "gold" ∧ (s.spend "gold" 2).2.total ≤ s.total ∧
      (s.spend "gold" (-5)).1 = true ∧ ((s.spend "gold" (-5)).2.count "gold").toInt = 8 := by
  have plays : ∀ op ∈ [StoreOp.gain "gold" 3], op.isLoad = false := by decide
  obtain ⟨least, total⟩ := (spend_unless_negative _ plays "gold" 2).1 (by decide)
  obtain ⟨taken, count, -⟩ := (spend_unless_negative _ plays "gold" (-5)).2 (by decide)
  exact ⟨least "gold", total, taken, count.trans (by decide +kernel)⟩

/-- Taking does not always leave at most as much as there was: taking minus five of three pieces of
gold leaves eight. -/
theorem not_spend_le_gold :
    ¬ ∀ (ops : List StoreOp), (∀ op ∈ ops, op.isLoad = false) → ∀ item n,
      ((empty.run ops).spend item n).2.count item ≤ (empty.run ops).count item ∧
        ((empty.run ops).spend item n).2.total ≤ (empty.run ops).total := by
  intro law
  have least := (law [.gain "gold" 3] (by decide) "gold" (-5)).1
  revert least
  decide +kernel

end StoryEngine.Store
