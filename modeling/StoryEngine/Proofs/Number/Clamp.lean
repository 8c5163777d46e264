import StoryEngine.Proofs.Number.Order

/-!
# Clamping

A clamped number stays where it is when it is clamped again, whatever the ends are: also when they
are out of order and when one of them is no number. Between ends that are in order it is a number,
and one between them.
-/

namespace StoryEngine.Number

variable {x y low high : Float}

private theorem lt_irrefl (x : Float) : ¬ x < x := by
  intro less
  have same := compare?_swap x x
  rw [lt_iff.1 less] at same
  cases same

/-- A number that is not less than another is at least that one. -/
theorem not_lt : ¬ x < y ↔ x.isNaN = true ∨ y.isNaN = true ∨ y ≤ x := by
  rw [lt_iff, le_iff, compare?_swap x y, ← or_assoc, ← compare?_eq_none]
  cases compare? x y with
  | none => simp
  | some order => cases order <;> simp

/-- What is no number is less than nothing, and nothing is less than it. -/
theorem isNaN_of_lt (less : x < y) : x.isNaN = false ∧ y.isNaN = false := by
  have compared : ¬ (x.isNaN = true ∨ y.isNaN = true) := by
    rw [← compare?_eq_none, lt_iff.1 less]
    nofun
  simpa using compared

/-- Only numbers are at most one another. -/
theorem isNaN_of_le (atMost : x ≤ y) : x.isNaN = false ∧ y.isNaN = false := by
  have compared : ¬ (x.isNaN = true ∨ y.isNaN = true) := by
    rw [← compare?_eq_none]
    intro incomparable
    rw [le_iff, incomparable] at atMost
    cases atMost
  simpa using compared

/-- Two numbers can be compared. -/
theorem le_of_not_lt (first : x.isNaN = false) (second : y.isNaN = false) (h : ¬ x < y) :
    y ≤ x := by
  rcases not_lt.1 h with nan | nan | atMost
  · rw [first] at nan
    cases nan
  · rw [second] at nan
    cases nan
  · exact atMost

private theorem le_refl (number : x.isNaN = false) : x ≤ x :=
  le_of_not_lt number number (lt_irrefl x)

/-! ### The larger and the smaller of two numbers -/

/-- The larger of two numbers is the second, unless the first is a number that is not less. -/
theorem larger_cases (x y : Float) :
    (larger x y = y ∧ (x.isNaN = true ∨ x < y)) ∨
      (larger x y = x ∧ x.isNaN = false ∧ ¬ x < y) := by
  unfold larger
  split <;> simp_all

private theorem smaller_cases (x y : Float) :
    (smaller x y = y ∧ (x.isNaN = true ∨ y < x)) ∨
      (smaller x y = x ∧ x.isNaN = false ∧ ¬ y < x) := by
  unfold smaller
  split <;> simp_all

private theorem le_larger (number : y.isNaN = false) : y ≤ larger x y := by
  rcases larger_cases x y with ⟨same, -⟩ | ⟨same, first, notLess⟩
  · rw [same]
    exact le_refl number
  · rw [same]
    exact le_of_not_lt first number notLess

private theorem smaller_le (number : y.isNaN = false) : smaller x y ≤ y := by
  rcases smaller_cases x y with ⟨same, -⟩ | ⟨same, first, notLess⟩
  · rw [same]
    exact le_refl number
  · rw [same]
    exact le_of_not_lt number first notLess

/-- The larger of two numbers is no number only if neither of them is one. -/
private theorem isNaN_of_larger (nan : (larger x y).isNaN = true) : y.isNaN = true := by
  rcases larger_cases x y with ⟨same, -⟩ | ⟨same, first, -⟩
  · rw [← same, nan]
  · rw [same, first] at nan
    cases nan

private theorem not_larger_lt (x y : Float) : ¬ larger x y < y := by
  rcases larger_cases x y with ⟨same, -⟩ | ⟨same, -, notLess⟩
  · rw [same]
    exact lt_irrefl y
  · rwa [same]

/-! ### Clamping -/

/-- The upper end is clamped to itself, also where the ends are out of order. -/
theorem clamp_high (nan : high.isNaN = true → low.isNaN = true) : clamp low high high = high := by
  rcases larger_cases high low with ⟨lifted, cause⟩ | ⟨stays, -⟩
  · have lowered : low.isNaN = true ∨ high < low := cause.imp_left nan
    rw [clamp, lifted, smaller, if_pos (by simpa using lowered)]
  · rw [clamp, stays, smaller, ite_self]

/-- A clamped number is clamped to itself. -/
theorem clamp_clamp (low high x : Float) :
    clamp low high (clamp low high x) = clamp low high x := by
  rcases smaller_cases (larger x low) high with ⟨lowered, cause⟩ | ⟨stays, number, notAbove⟩
  · have result : clamp low high x = high := lowered
    rw [result]
    apply clamp_high
    intro nan
    rcases cause with lifted | above
    · exact isNaN_of_larger lifted
    · rw [(isNaN_of_lt above).1] at nan
      cases nan
  · have result : clamp low high x = larger x low := stays
    rw [result, clamp]
    rcases larger_cases (larger x low) low with ⟨-, nan | below⟩ | ⟨same, -⟩
    · rw [number] at nan
      cases nan
    · exact absurd below (not_larger_lt x low)
    · rw [same, stays]

/-- Between ends that are in order, a clamped number lies between them, so it is a number. -/
theorem clamp_within (ordered : low ≤ high) (x : Float) :
    low ≤ clamp low high x ∧ clamp low high x ≤ high := by
  obtain ⟨lowNumber, highNumber⟩ := isNaN_of_le ordered
  refine ⟨?_, smaller_le highNumber⟩
  rcases smaller_cases (larger x low) high with ⟨lowered, -⟩ | ⟨stays, -⟩
  · rw [clamp, lowered]
    exact ordered
  · rw [clamp, stays]
    exact le_larger lowNumber

end StoryEngine.Number
