import Mathlib.Algebra.Ring.Int.Defs
import Mathlib.Data.List.Infix
import StoryEngine.Proofs.Store.Saving

/-!
# Counts of items

A count stays where counts may be, and as long as the exact number fits, it is what was added less
what was taken. Taking is adding the opposite, and both stop at the ends of the range, so the laws
are laws of the integers that the counts stand for.

Specification: `SPEC_FULL.md` §10.5 (`VariableStore`).
-/

namespace StoryEngine

/-- The integer nearest to another in the range of counts. -/
private theorem toInt_ofIntClamp (x : Int) :
    (Int64.ofIntClamp x).toInt = max Int64.minValue.toInt (min Int64.maxValue.toInt x) := by
  have := Int64.toInt_minValue
  have := Int64.toInt_maxValue
  unfold Int64.ofIntClamp
  split
  · split
    · rw [Int64.toInt_ofIntLE]
      omega
    · omega
  · omega

private theorem toInt_max_zero (n : Int64) : (max n 0).toInt = max n.toInt 0 := by
  show (if n ≤ 0 then 0 else n).toInt = _
  by_cases negative : n ≤ 0
  · rw [if_pos negative, Int64.toInt_zero]
    have := Int64.le_iff_toInt_le.1 negative
    rw [Int64.toInt_zero] at this
    omega
  · rw [if_neg negative]
    have := Int64.le_iff_toInt_le.not.1 negative
    rw [Int64.toInt_zero] at this
    omega

/-- A count is not negative if its integer is not. -/
theorem nonneg_iff (n : Int64) : 0 ≤ n ↔ 0 ≤ n.toInt := by
  rw [Int64.le_iff_toInt_le, Int64.toInt_zero]

namespace Store

variable {s : Store} {item other : String} {n : Int64}

/-! ### Adding and taking -/

private theorem toInt_count_gain (s : Store) (item : String) (n : Int64) :
    ((s.gain item n).count item).toInt =
      max 0 (min Int64.maxValue.toInt ((s.count item).toInt + n.toInt)) := by
  have := Int64.toInt_minValue
  rw [count_gain, if_pos rfl, toInt_max_zero, toInt_ofIntClamp]
  omega

private theorem count_gain_of_ne (ne : item ≠ other) :
    (s.gain item n).count other = s.count other := by
  rw [count_gain, if_neg ne]

/-- Something is taken just if there is as much of it. -/
theorem spend_fst_iff : (s.spend item n).1 = true ↔ n ≤ s.count item := by
  unfold spend
  split
  · next few => exact iff_of_false nofun (Int64.not_le.2 few)
  · next enough => exact iff_of_true rfl (Int64.not_lt.1 enough)

/-- What cannot be taken is not taken in part. -/
theorem spend_refused (refused : (s.spend item n).1 = false) : (s.spend item n).2 = s := by
  unfold spend at refused ⊢
  split
  · rfl
  · next enough =>
    rw [if_neg enough] at refused
    cases refused

/-- Taking is adding the opposite. -/
theorem spend_taken (taken : (s.spend item n).1 = true) :
    (s.spend item n).2 = s.gain item (Int64.ofIntClamp (-n.toInt)) := by
  rw [spend, if_neg (Int64.not_lt.2 (spend_fst_iff.1 taken))]

/-- Taking of one item leaves the counts of the others. -/
theorem count_spend_of_ne (ne : item ≠ other) :
    (s.spend item n).2.count other = s.count other := by
  cases taken : (s.spend item n).1 with
  | true => rw [spend_taken taken, count_gain_of_ne ne]
  | false => rw [spend_refused taken]

/-- Taking any count moves the count to the difference, or to the end of the range before it. -/
theorem toInt_count_spend (taken : (s.spend item n).1 = true) :
    ((s.spend item n).2.count item).toInt =
      max 0 (min Int64.maxValue.toInt
        ((s.count item).toInt + min Int64.maxValue.toInt (-n.toInt))) := by
  have := n.toInt_le
  have := Int64.toInt_minValue
  have := Int64.toInt_maxValue
  rw [spend_taken taken, toInt_count_gain, toInt_ofIntClamp]
  omega

/-- Taking a count that is not negative takes just that count. -/
theorem toInt_count_spend_of_nonneg (nonneg : 0 ≤ n) (taken : (s.spend item n).1 = true) :
    ((s.spend item n).2.count item).toInt = (s.count item).toInt - n.toInt := by
  have := (nonneg_iff n).1 nonneg
  have := Int64.le_iff_toInt_le.1 (spend_fst_iff.1 taken)
  have := (s.count item).toInt_le
  rw [toInt_count_spend taken]
  omega

/-! ### Counts in a game -/

/-- No count is negative. -/
def CountsNonneg (s : Store) : Prop :=
  ∀ item, 0 ≤ (s.count item).toInt

private theorem count_empty (item : String) : empty.count item = 0 :=
  Std.ExtTreeMap.getD_empty

private theorem count_restart (s : Store) (item : String) : s.restart.count item = 0 :=
  Std.ExtTreeMap.getD_empty

private theorem CountsNonneg.gain (h : s.CountsNonneg) (item : String) (n : Int64) :
    (s.gain item n).CountsNonneg := by
  intro other
  by_cases same : item = other
  · subst same
    rw [toInt_count_gain]
    omega
  · rw [count_gain_of_ne same]
    exact h other

private theorem CountsNonneg.apply (h : s.CountsNonneg) {op : StoreOp} (plays : op.isLoad = false) :
    (op.apply s).2.CountsNonneg := by
  cases op with
  | gain item n => exact h.gain item n
  | spend item n =>
    show (s.spend item n).2.CountsNonneg
    cases taken : (s.spend item n).1 with
    | true =>
      rw [spend_taken taken]
      exact h.gain item _
    | false =>
      rw [spend_refused taken]
      exact h
  | confine name low high =>
    show (s.confine name low high).CountsNonneg
    unfold confine
    split <;> exact h
  | restart =>
    intro item
    show 0 ≤ (s.restart.count item).toInt
    rw [count_restart]
    decide
  | saveAndLoad =>
    rw [StoreOp.apply_saveAndLoad]
    exact h
  | load saved => cases plays
  | _ => exact h

/-- In a game no count is negative. -/
theorem countsNonneg_run {ops : List StoreOp} (plays : ∀ op ∈ ops, op.isLoad = false) :
    (empty.run ops).CountsNonneg := by
  apply run_induction (P := CountsNonneg) _ (fun _ _ plays h ↦ h.apply plays) plays
  intro item
  rw [count_empty]
  decide

end Store

/-! ### Accounts -/

namespace StoreOp

/-- The item that an operation is on. -/
def item? : StoreOp → Option String
  | gain item _ | spend item _ | count item => some item
  | _ => none

/-- How many of an item an operation adds. -/
def added (item : String) : StoreOp → Int
  | gain other n => if other = item then n.toInt else 0
  | _ => 0

/-- How many of an item an operation takes, as its answer tells. -/
def removed (item : String) : (op : StoreOp) → op.Answer → Int
  | spend other n, true => if other = item then n.toInt else 0
  | _, _ => 0

variable {item : String}

private theorem added_other (op : StoreOp) (elsewhere : op.item? ≠ some item) :
    op.added item = 0 := by
  cases op with
  | gain other n => exact if_neg fun same ↦ elsewhere (congrArg some same)
  | _ => rfl

private theorem removed_other (op : StoreOp) (elsewhere : op.item? ≠ some item)
    (answer : op.Answer) :
    op.removed item answer = 0 := by
  cases op with
  | spend other n =>
    cases (answer : Bool) with
    | true => exact if_neg fun same ↦ elsewhere (congrArg some same)
    | false => rfl
  | _ => rfl

end StoreOp

namespace Store

variable {s : Store} {item other : String} {n : Int64} {op : StoreOp} {ops : List StoreOp}

/-- Operations in turn, each with its answer. -/
def calls (s : Store) : List StoreOp → List ((op : StoreOp) × op.Answer)
  | [] => []
  | op :: ops => ⟨op, (op.apply s).1⟩ :: (op.apply s).2.calls ops

/-- How many of an item were added by operations, less how many were taken by those of them that
answered that they took some. -/
def balance (item : String) (calls : List ((op : StoreOp) × op.Answer)) : Int :=
  (calls.map fun call ↦ call.1.added item).sum -
    (calls.map fun call ↦ call.1.removed item call.2).sum

private theorem balance_cons (item : String) (answer : op.Answer)
    (calls : List ((op : StoreOp) × op.Answer)) :
    balance item (⟨op, answer⟩ :: calls) =
      op.added item - op.removed item answer + balance item calls := by
  simp only [balance, List.map_cons, List.sum_cons]
  omega

/-- An operation on one item leaves the counts of all others, and one on variables and statuses
leaves all counts. -/
theorem count_apply_other (plays : op.isLoad = false) (goesOn : op ≠ .restart)
    (elsewhere : op.item? ≠ some other) : (op.apply s).2.count other = s.count other := by
  have ne {item : String} (on : op.item? = some item) : item ≠ other := by
    rintro rfl
    exact elsewhere on
  cases op with
  | gain item n => exact count_gain_of_ne (ne rfl)
  | spend item n => exact count_spend_of_ne (ne rfl)
  | confine name low high =>
    show (s.confine name low high).count other = _
    unfold confine
    split <;> rfl
  | saveAndLoad => rw [StoreOp.apply_saveAndLoad]
  | restart => exact absurd rfl goesOn
  | load saved => cases plays
  | _ => rfl

/-- One operation moves the count by what it adds and takes, if the exact number fits. -/
theorem toInt_count_apply (plays : op.isLoad = false) (goesOn : op ≠ .restart)
    (nonneg : ∀ n, op = .gain item n ∨ op = .spend item n → 0 ≤ n) (held : s.CountsNonneg)
    (fits : (s.count item).toInt + (op.added item - op.removed item (op.apply s).1) ≤
      Int64.maxValue.toInt) :
    ((op.apply s).2.count item).toInt =
      (s.count item).toInt + (op.added item - op.removed item (op.apply s).1) := by
  by_cases here : op.item? = some item
  · cases op with
    | gain other n =>
      cases here
      have positive := (nonneg_iff n).1 (nonneg n (.inl rfl))
      have moved : (StoreOp.gain item n).added item -
          (StoreOp.gain item n).removed item ((StoreOp.gain item n).apply s).1 = n.toInt := by
        simp [StoreOp.added, StoreOp.removed]
      rw [moved] at fits ⊢
      have := held item
      have := toInt_count_gain s item n
      show ((s.gain item n).count item).toInt = _
      omega
    | spend other n =>
      cases here
      have positive := nonneg n (.inr rfl)
      show ((s.spend item n).2.count item).toInt =
        (s.count item).toInt + (0 - (StoreOp.spend item n).removed item (s.spend item n).1)
      cases taken : (s.spend item n).1 with
      | true =>
        rw [toInt_count_spend_of_nonneg positive taken]
        simp [StoreOp.removed]
        omega
      | false =>
        rw [spend_refused taken]
        simp [StoreOp.removed]
    | count other => simp [StoreOp.apply, StoreOp.added, StoreOp.removed]
    | _ => cases here
  · rw [count_apply_other plays goesOn here, op.added_other here, op.removed_other here]
    omega

/-- As long as the exact number fits, a count is what it was, and what was added less what was
taken. -/
theorem toInt_count_run (plays : ∀ op ∈ ops, op.isLoad = false ∧ op ≠ .restart)
    (nonneg : ∀ n, .gain item n ∈ ops ∨ .spend item n ∈ ops → 0 ≤ n) (held : s.CountsNonneg)
    (fits : ∀ before, before <+: s.calls ops →
      (s.count item).toInt + balance item before ≤ Int64.maxValue.toInt) :
    ((s.run ops).count item).toInt = (s.count item).toInt + balance item (s.calls ops) := by
  induction ops generalizing s with
  | nil => exact (Int.add_zero _).symm
  | cons op ops ih =>
    obtain ⟨⟨plays, goesOn⟩, rest⟩ := List.forall_mem_cons.1 plays
    have positive : ∀ n, op = .gain item n ∨ op = .spend item n → 0 ≤ n := by
      rintro n (rfl | rfl)
      · exact nonneg n (.inl List.mem_cons_self)
      · exact nonneg n (.inr List.mem_cons_self)
    have fitsNow := fits [⟨op, (op.apply s).1⟩] (List.cons_prefix_cons.2 ⟨rfl, List.nil_prefix⟩)
    have step := toInt_count_apply plays goesOn positive held (by simpa [balance] using fitsNow)
    have later := ih (s := (op.apply s).2) rest ?_ (held.apply plays) ?_
    · show (((op.apply s).2.run ops).count item).toInt = _
      rw [later, step, calls, balance_cons]
      omega
    · rintro n (member | member)
      · exact nonneg n (.inl (List.mem_cons_of_mem _ member))
      · exact nonneg n (.inr (List.mem_cons_of_mem _ member))
    · intro before starts
      have longer := fits (⟨op, (op.apply s).1⟩ :: before) (List.cons_prefix_cons.2 ⟨rfl, starts⟩)
      rw [balance_cons] at longer
      rw [step]
      omega

/-- What was taken can be put back. -/
theorem gain_spend (held : 0 ≤ (s.count item).toInt) (nonneg : 0 ≤ n)
    (taken : (s.spend item n).1 = true) :
    ((s.spend item n).2.gain item n).count item = s.count item := by
  have less := toInt_count_spend_of_nonneg nonneg taken
  have most := (s.count item).toInt_le
  rw [← Int64.toInt_inj, toInt_count_gain, less]
  omega

/-! ### Main result -/

/-- A store with the counts of a game. -/
structure HoldsCounts (s : Store) : Prop where
  /-- No count is negative. -/
  nonneg : ∀ item, 0 ≤ s.count item
  /-- No count is beyond the greatest one. -/
  le_max : ∀ item, s.count item ≤ Int64.maxValue
  /-- What was taken can be put back. -/
  gain_spend : ∀ item n, 0 ≤ n → (s.spend item n).1 = true →
    ((s.spend item n).2.gain item n).count item = s.count item

/-- What the operations on a store do with its counts. -/
structure CountRules (s : Store) : Prop where
  /-- Something is taken just if there is as much of it. -/
  spend_iff : ∀ item n, 0 ≤ n → ((s.spend item n).1 = true ↔ n ≤ s.count item)
  /-- Where nothing is taken, nothing changes. -/
  spend_refused : ∀ item n, (s.spend item n).1 = false → (s.spend item n).2 = s
  /-- An operation on one item leaves the counts of the others as they are. -/
  count_other : ∀ (op : StoreOp) other, op.isLoad = false → op ≠ .restart →
    op.item? ≠ some other → (op.apply s).2.count other = s.count other
  /-- From an empty store or a restart on, a count is what was added of the item less what was
  taken of it, as long as nothing negative is added or taken and the exact number always fits. -/
  count_run : (s = empty ∨ ∃ t : Store, s = t.restart) → ∀ (ops : List StoreOp) item,
    (∀ op ∈ ops, op.isLoad = false ∧ op ≠ .restart) →
    (∀ n, .gain item n ∈ ops ∨ .spend item n ∈ ops → 0 ≤ n) →
    (∀ before, before <+: s.calls ops → balance item before ≤ Int64.maxValue.toInt) →
    ((s.run ops).count item).toInt = balance item (s.calls ops)

/-- In every game the counts are in their range and what was taken can be put back, and in every
store the operations do with counts what the rules say. -/
theorem counts_balance :
    (∀ ops : List StoreOp, (∀ op ∈ ops, op.isLoad = false) → (empty.run ops).HoldsCounts) ∧
      ∀ s : Store, s.CountRules := by
  constructor
  · intro ops plays
    have held := countsNonneg_run plays
    exact {
      nonneg := fun item ↦ (nonneg_iff _).2 (held item)
      le_max := fun item ↦ Int64.le_iff_toInt_le.2 (Int64.toInt_le _)
      gain_spend := fun item n nonneg ↦ gain_spend (held item) nonneg }
  · intro s
    refine ⟨fun item n _ ↦ spend_fst_iff, fun item n ↦ spend_refused, fun op other ↦
      count_apply_other, fun fresh ops item plays nonneg fits ↦ ?_⟩
    have none (other : String) : s.count other = 0 := by
      rcases fresh with rfl | ⟨t, rfl⟩
      · exact count_empty other
      · exact count_restart t other
    have held : s.CountsNonneg := fun other ↦ by
      rw [none]
      decide
    have zero : (s.count item).toInt = 0 := by
      rw [none]
      rfl
    have exact := toInt_count_run plays nonneg held (by simpa [zero] using fits)
    rw [exact, zero, Int.zero_add]

/-- Gold that is found and paid: a price that is too high is not paid. A full purse can be emptied
and filled again. -/
theorem counts_balance_gold :
    let ops : List StoreOp := [.gain "gold" 3, .spend "gold" 5, .spend "gold" 1, .gain "idea" 2]
    let full : List StoreOp := [.gain "gold" Int64.maxValue]
    balance "gold" (empty.calls ops) = 2 ∧
      ((empty.run ops).count "gold").toInt = balance "gold" (empty.calls ops) ∧
      0 ≤ (empty.run ops).count "gold" ∧
      ((empty.run ops).spend "gold" 2).1 = true ∧
      ((empty.run ops).spend "gold" 5).2 = empty.run ops ∧
      ((empty.run ops).gain "idea" 1).count "gold" = (empty.run ops).count "gold" ∧
      (((empty.run full).spend "gold" Int64.maxValue).2.gain "gold" Int64.maxValue).count "gold" =
        (empty.run full).count "gold" := by
  obtain ⟨games, rules⟩ := counts_balance
  let ops : List StoreOp := [.gain "gold" 3, .spend "gold" 5, .spend "gold" 1, .gain "idea" 2]
  let full : List StoreOp := [.gain "gold" Int64.maxValue]
  have plays : ∀ op ∈ ops, op.isLoad = false ∧ op ≠ .restart := by simp [ops, StoreOp.isLoad]
  have nonneg : ∀ n, .gain "gold" n ∈ ops ∨ .spend "gold" n ∈ ops → 0 ≤ n := by
    intro n member
    have amount : n = 3 ∨ n = 5 ∨ n = 1 := by simpa [ops] using member
    rcases amount with rfl | rfl | rfl <;> decide
  have fits : ∀ before ∈ (empty.calls ops).inits, balance "gold" before ≤ Int64.maxValue.toInt := by
    decide +kernel
  refine ⟨by decide +kernel, ?_, (games ops fun op member ↦ (plays op member).1).nonneg "gold",
    ((rules _).spend_iff "gold" 2 (by decide)).2 (by decide +kernel),
    (rules _).spend_refused "gold" 5 (by decide +kernel),
    (rules _).count_other (.gain "idea" 1) "gold" rfl nofun (by decide),
    (games full (by decide)).gain_spend "gold" Int64.maxValue (by decide) (by decide +kernel)⟩
  exact (rules empty).count_run (.inl rfl) ops "gold" plays nonneg
    fun before starts ↦ fits before ((List.mem_inits _ _).2 starts)

end Store

end StoryEngine
