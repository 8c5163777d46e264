import StoryEngine.Number.Basic

/-!
# The order of numbers

Numbers are ordered except for what is no number, which compares with nothing: of two numbers,
one is at most the other or greater than it.
-/

namespace StoryEngine.Number

open Float.Model (UnpackedFloat)

/-- How two numbers compare, if both are numbers. -/
def compare? (x y : Float) : Option Ordering :=
  x.toModel.unpack.compare y.toModel.unpack

variable {x y : Float}

/-- A number is at most another if it compares as less or equal. -/
theorem le_iff : x ≤ y ↔ (compare? x y).any Ordering.isLE = true := by
  show decide ((x.toModel.unpack.le y.toModel.unpack) = true) = true ↔ _
  rw [decide_eq_true_iff]
  rfl

/-- A number is less than another if it compares as less. -/
theorem lt_iff : x < y ↔ compare? x y = some .lt := by
  show decide ((x.toModel.unpack.lt y.toModel.unpack) = true) = true ↔ _
  rw [decide_eq_true_iff]
  exact beq_iff_eq

/-- A number equals another if it compares as equal. -/
theorem beq_iff : (x == y) = true ↔ compare? x y = some .eq := by
  show (x.toModel.unpack.beq y.toModel.unpack) = true ↔ _
  exact beq_iff_eq

private theorem swap_compare_sign (s t : UnpackedFloat.Sign) :
    (compare s t).swap = compare t s := by
  cases s <;> cases t <;> rfl

private theorem swap_compare_size (e f : Int) (m n : Nat) :
    ((compare e f).then (compare m n)).swap = (compare f e).then (compare n m) := by
  rw [Ordering.swap_then, Int.compare_swap, Nat.compare_swap]

/-- Comparing the other way round gives the opposite. -/
private theorem compare_swap : ∀ u v : UnpackedFloat, v.compare u = (u.compare v).map Ordering.swap
  | .notANumber, v => by cases v <;> rfl
  | u, .notANumber => by cases u <;> rfl
  | .infinity s, .infinity t => congrArg some (swap_compare_sign s t).symm
  | .infinity s, .zero _ | .infinity s, .finite _ _ _ _ => by cases s <;> rfl
  | .zero _, .infinity t | .finite _ _ _ _, .infinity t => by cases t <;> rfl
  | .zero _, .zero _ => rfl
  | .zero _, .finite t _ _ _ => by cases t <;> rfl
  | .finite s _ _ _, .zero _ => by cases s <;> rfl
  | .finite .positive _ _ _, .finite .negative _ _ _ => rfl
  | .finite .negative _ _ _, .finite .positive _ _ _ => rfl
  | .finite .positive m e _, .finite .positive n f _ =>
    congrArg some (swap_compare_size e f m n).symm
  | .finite .negative m e _, .finite .negative n f _ =>
    congrArg (fun order : Ordering ↦ some order.swap) (swap_compare_size e f m n).symm

/-- Comparing the other way round gives the opposite, also for what is no number. -/
theorem compare?_swap (x y : Float) : compare? y x = (compare? x y).map Ordering.swap :=
  compare_swap _ _

private theorem compare_eq_none : ∀ {u v : UnpackedFloat},
    u.compare v = none ↔ u.isNaN = true ∨ v.isNaN = true
  | .notANumber, v => iff_of_true (by cases v <;> rfl) (.inl rfl)
  | u, .notANumber => iff_of_true (by cases u <;> rfl) (.inr rfl)
  | .infinity _, .infinity _ => iff_of_false nofun (not_or_intro nofun nofun)
  | .infinity s, .zero _ | .infinity s, .finite _ _ _ _ =>
    iff_of_false (by cases s <;> nofun) (not_or_intro nofun nofun)
  | .zero _, .infinity t | .finite _ _ _ _, .infinity t =>
    iff_of_false (by cases t <;> nofun) (not_or_intro nofun nofun)
  | .zero _, .zero _ => iff_of_false nofun (not_or_intro nofun nofun)
  | .zero _, .finite t _ _ _ => iff_of_false (by cases t <;> nofun) (not_or_intro nofun nofun)
  | .finite s _ _ _, .zero _ => iff_of_false (by cases s <;> nofun) (not_or_intro nofun nofun)
  | .finite s _ _ _, .finite t _ _ _ =>
    iff_of_false (by cases s <;> cases t <;> nofun) (not_or_intro nofun nofun)

/-- Just what is no number compares with nothing. -/
theorem compare?_eq_none : compare? x y = none ↔ x.isNaN = true ∨ y.isNaN = true :=
  compare_eq_none

/-- A number that is not at most another is greater, or one of the two is no number. -/
theorem not_le : ¬ x ≤ y ↔ x.isNaN = true ∨ y.isNaN = true ∨ y < x := by
  rw [le_iff, lt_iff, compare?_swap x y, ← or_assoc, ← compare?_eq_none]
  cases compare? x y with
  | none => simp
  | some order => cases order <;> simp

/-- What is finite equals itself. -/
theorem beq_self (finite : x.isFinite = true) : (x == x) = true := by
  have decoded : x.toModel.unpack.isFinite = true := finite
  rw [beq_iff, compare?]
  cases unpacked : x.toModel.unpack with
  | infinity s =>
    rw [unpacked] at decoded
    cases decoded
  | notANumber =>
    rw [unpacked] at decoded
    cases decoded
  | zero s => rfl
  | finite s m e pos =>
    have exponents : compare e e = .eq := Int.compare_eq_eq.2 rfl
    have mantissas : compare m m = .eq := Nat.compare_eq_eq.2 rfl
    have same : (compare e e).then (compare m m) = .eq := by
      rw [exponents, mantissas]
      rfl
    cases s with
    | positive => exact congrArg some same
    | negative => exact congrArg (some ·.swap) same

end StoryEngine.Number
