import StoryEngine.Proofs.Number.Clamp
import StoryEngine.Proofs.Store.Saving

/-!
# Limits of variables

A variable that has limits never has a value outside of them. Limits may be narrowed when the
variable has a value, may be out of order, and may be no numbers: so the law says that clamping
the value to the limits leaves it as it is. What is done to one variable does not concern another.

Specification: `SPEC_FULL.md` §10.5 (`VariableStore`).
-/

namespace StoryEngine

variable {s : Store} {name other : String} {x low high : Float}

/-! ### Operations on variables -/

/-- The variable that an operation is on. -/
def StoreOp.target? : StoreOp → Option String
  | assign name _ | increase name _ | increaseWithin name _ _ _ | confine name _ _ | value name
  | isSet name | limits name => some name
  | _ => none

namespace Store

private theorem limited_of_none (unlimited : s.limits? name = none) : s.limited name x = x := by
  rw [limited, unlimited]

private theorem limited_of_some (limits : s.limits? name = some (low, high)) :
    s.limited name x = Number.clamp low high x := by
  rw [limited, limits]

private theorem value?_assign_self (s : Store) (name : String) (x : Float) :
    (s.assign name x).value? name = some (s.limited name x) := by
  rw [value?_assign, if_pos rfl]

private theorem value?_assign_of_ne (ne : name ≠ other) :
    (s.assign name x).value? other = s.value? other := by
  rw [value?_assign, if_neg ne]

private theorem value?_restart (s : Store) (name : String) : s.restart.value? name = none :=
  Std.ExtTreeMap.getElem?_empty

private theorem limits?_restart (s : Store) (name : String) :
    s.restart.limits? name = s.limits? name := rfl

/-- An operation on one variable leaves all others as they are, and so does one on items and
statuses. -/
theorem apply_other {op : StoreOp} (plays : op.isLoad = false) (goesOn : op ≠ .restart)
    (elsewhere : op.target? ≠ some other) :
    (op.apply s).2.value? other = s.value? other ∧
      (op.apply s).2.limits? other = s.limits? other := by
  have ne {name : String} (on : op.target? = some name) : name ≠ other := by
    rintro rfl
    exact elsewhere on
  cases op with
  | assign name x | increase name x | increaseWithin name x low high =>
    exact ⟨value?_assign_of_ne (ne rfl), rfl⟩
  | confine name low high =>
    constructor
    · exact (s.value?_confine name other low high).trans (if_neg (ne rfl))
    · exact (s.limits?_confine name other low high).trans (if_neg (ne rfl))
  | spend item n =>
    show (s.spend item n).2.value? other = _ ∧ (s.spend item n).2.limits? other = _
    unfold spend
    split <;> exact ⟨rfl, rfl⟩
  | saveAndLoad =>
    rw [StoreOp.apply_saveAndLoad]
    exact ⟨rfl, rfl⟩
  | restart => exact absurd rfl goesOn
  | load saved => cases plays
  | _ => exact ⟨rfl, rfl⟩

/-! ### The law -/

/-- Clamping the value of a variable to its limits leaves it as it is. -/
def KeepsLimits (s : Store) : Prop :=
  ∀ name low high x, s.limits? name = some (low, high) → s.value? name = some x →
    Number.clamp low high x = x

private theorem keepsLimits_empty : empty.KeepsLimits := by
  intro name low high x limits
  cases limits

private theorem KeepsLimits.restart (s : Store) : s.restart.KeepsLimits := by
  intro name low high x _ set
  rw [value?_restart] at set
  cases set

/-- What is assigned is clamped to the limits first. -/
theorem KeepsLimits.assign (h : s.KeepsLimits) (name : String) (x : Float) :
    (s.assign name x).KeepsLimits := by
  intro other low high y limits set
  by_cases same : name = other
  · subst same
    have limits : s.limits? name = some (low, high) := limits
    rw [value?_assign_self, limited_of_some limits] at set
    cases set
    exact Number.clamp_clamp low high x
  · rw [value?_assign_of_ne same] at set
    exact h other low high y limits set

/-- A variable that gets limits is clamped to them. -/
theorem KeepsLimits.confine (h : s.KeepsLimits) (name : String) (low high : Float) :
    (s.confine name low high).KeepsLimits := by
  intro other low' high' y limits set
  rw [limits?_confine] at limits
  rw [value?_confine] at set
  by_cases same : name = other
  · rw [if_pos same] at limits set
    cases limits
    obtain ⟨x, -, rfl⟩ := Option.map_eq_some_iff.1 set
    exact Number.clamp_clamp low high x
  · rw [if_neg same] at limits set
    exact h other low' high' y limits set

private theorem KeepsLimits.apply (h : s.KeepsLimits) {op : StoreOp} (plays : op.isLoad = false) :
    (op.apply s).2.KeepsLimits := by
  cases op with
  | assign name x => exact h.assign name x
  | increase name delta => exact h.assign name _
  | increaseWithin name delta low high => exact h.assign name _
  | confine name low high => exact h.confine name low high
  | spend item n =>
    show (s.spend item n).2.KeepsLimits
    unfold spend
    split <;> exact h
  | restart => exact .restart s
  | saveAndLoad =>
    rw [StoreOp.apply_saveAndLoad]
    exact h
  | load saved => cases plays
  | _ => exact h

/-! ### Single operations -/

/-- Without limits, a variable takes a sum that was moved between bounds as it is. -/
theorem value?_increaseWithin (unlimited : s.limits? name = none) (delta low high : Float) :
    (s.increaseWithin name delta (some low) (some high)).value? name =
      some (Number.clamp low high (s.value name + delta)) := by
  show (s.assign name (Number.clamp low high (s.value name + delta))).value? name = _
  rw [value?_assign_self, limited_of_none unlimited]

private theorem insert_insert (m : Std.ExtTreeMap String Float) (name : String) (x y : Float) :
    (m.insert name x).insert name y = m.insert name y := by
  apply Std.ExtTreeMap.ext_getElem?
  intro other
  simp only [Std.ExtTreeMap.getElem?_insert]
  split <;> rfl

/-- Of two assignments only the last counts. -/
theorem assign_assign (s : Store) (name : String) (x y : Float) :
    (s.assign name x).assign name y = s.assign name y :=
  congrArg (fun vars ↦ { s with vars }) (insert_insert s.vars name (s.limited name x) _)

/-- A variable that has no limits may be assigned before it gets some or after. -/
theorem confine_assign (unlimited : s.limits? name = none) (x low high : Float) :
    (s.assign name x).confine name low high = (s.confine name low high).assign name x := by
  have first : (s.assign name x).value? name = some x := by
    rw [value?_assign_self, limited_of_none unlimited]
  have left :
      (s.assign name x).confine name low high = (s.setLimits name low high).assign name x := by
    rw [confine, first]
    exact congrArg (fun vars ↦ { s.setLimits name low high with vars })
      (insert_insert s.vars name _ _)
  rw [left, confine]
  split
  · rw [assign_assign]
  · rfl

/-! ### Main result -/

/-- A store in which each variable that has limits and a value keeps to its limits. -/
structure WithinLimits (s : Store) : Prop where
  /-- Clamping the value to the limits leaves it as it is. -/
  clamped : ∀ name low high x, s.limits? name = some (low, high) → s.value? name = some x →
    Number.clamp low high x = x
  /-- Where the limits are in order, the value is a number between them. -/
  between : ∀ name low high x, s.limits? name = some (low, high) → s.value? name = some x →
    low ≤ high → x.isNaN = false ∧ low ≤ x ∧ x ≤ high

/-- What the operations on a store do with its variables and their limits. -/
structure LimitRules (s : Store) : Prop where
  /-- A variable without limits lies between the bounds of an addition after it. -/
  increaseWithin : ∀ name delta low high, s.limits? name = none → low ≤ high →
    ∃ x, (s.increaseWithin name delta (some low) (some high)).value? name = some x ∧
      low ≤ x ∧ x ≤ high
  /-- An operation on one variable leaves the values of the others as they are. -/
  value?_other : ∀ (op : StoreOp) other, op.isLoad = false → op ≠ .restart →
    op.target? ≠ some other → (op.apply s).2.value? other = s.value? other
  /-- An operation on one variable leaves the limits of the others as they are. -/
  limits?_other : ∀ (op : StoreOp) other, op.isLoad = false → op ≠ .restart →
    op.target? ≠ some other → (op.apply s).2.limits? other = s.limits? other
  /-- A restart forgets the values. -/
  value?_restart : ∀ name, s.restart.value? name = none
  /-- A restart keeps the limits. -/
  limits?_restart : ∀ name, s.restart.limits? name = s.limits? name
  /-- A variable without limits may be assigned before it gets some or after. -/
  confine_assign : ∀ name x low high, s.limits? name = none →
    (s.assign name x).confine name low high = (s.confine name low high).assign name x

/-- In every game the variables that have limits keep to them, and in every store the operations do
with limits what the rules say. -/
theorem limits_hold :
    (∀ ops : List StoreOp, (∀ op ∈ ops, op.isLoad = false) → (empty.run ops).WithinLimits) ∧
      ∀ s : Store, s.LimitRules := by
  constructor
  · intro ops plays
    have keeps : (empty.run ops).KeepsLimits :=
      run_induction keepsLimits_empty (fun _ _ plays h ↦ h.apply plays) plays
    refine ⟨keeps, fun name low high x limits set ordered ↦ ?_⟩
    have within := Number.clamp_within ordered x
    rw [keeps name low high x limits set] at within
    exact ⟨(Number.isNaN_of_le within.1).2, within⟩
  · intro s
    exact {
      increaseWithin := fun name delta low high unlimited ordered ↦
        ⟨_, s.value?_increaseWithin unlimited delta low high, Number.clamp_within ordered _⟩
      value?_other := fun op other plays goesOn elsewhere ↦
        (apply_other plays goesOn elsewhere).1
      limits?_other := fun op other plays goesOn elsewhere ↦
        (apply_other plays goesOn elsewhere).2
      value?_restart := s.value?_restart
      limits?_restart := s.limits?_restart
      confine_assign := fun name x low high unlimited ↦ confine_assign unlimited x low high }

/-- Hope that is confined after it was raised too high, luck that has no limits, and limits that
are out of order. -/
theorem limits_hold_hope :
    let s := empty.run [.assign "hope" 150, .confine "hope" 0 100]
    s.limits? "hope" = some (0, 100) ∧ s.value? "hope" = some 100 ∧
      Number.clamp 0 100 100 = 100 ∧ (0 : Float) ≤ 100 ∧
      (∃ x, (s.increaseWithin "luck" 7 (some 1) (some 6)).value? "luck" = some x ∧
        1 ≤ x ∧ x ≤ 6) ∧
      (s.increase "luck" 7).value? "hope" = s.value? "hope" ∧
      (s.assign "luck" 7).confine "luck" 6 1 = (s.confine "luck" 6 1).assign "luck" 7 := by
  obtain ⟨law, rules⟩ := limits_hold
  let ops : List StoreOp := [.assign "hope" 150, .confine "hope" 0 100]
  have limits : (empty.run ops).limits? "hope" = some (0, 100) := by decide +kernel
  have value : (empty.run ops).value? "hope" = some 100 := by decide +kernel
  have unlimited : (empty.run ops).limits? "luck" = none := by decide +kernel
  have plays : ∀ op ∈ ops, op.isLoad = false := by decide
  have within := law ops plays
  have elsewhere : (StoreOp.increase "luck" 7).target? ≠ some "hope" := by decide
  exact ⟨limits, value, within.clamped "hope" 0 100 100 limits value,
    (within.between "hope" 0 100 100 limits value (by decide +kernel)).2.1,
    (rules _).increaseWithin "luck" 7 1 6 unlimited (by decide +kernel),
    (rules _).value?_other (.increase "luck" 7) "hope" rfl nofun elsewhere,
    (rules _).confine_assign "luck" 7 6 1 unlimited⟩

end Store

end StoryEngine
