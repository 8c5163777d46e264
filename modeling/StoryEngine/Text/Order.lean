/-!
# Order of texts

Names are kept in the ascending order of their code points. Two texts compare as equal exactly
when they are the same text, and as less exactly when the first comes before the second.

Specification: `SPEC_FULL.md` §9 (ordered map).
-/

namespace StoryEngine.Text

/-- Comparing as equal is being equal. -/
theorem compare_beq_eq (s t : String) : (compare s t == Ordering.eq) = (s == t) := by
  rw [Bool.eq_iff_iff, beq_iff_eq, beq_iff_eq, Std.LawfulEqCmp.compare_eq_iff_eq]

/-- Comparing as less is coming before. -/
theorem compare_eq_lt {s t : String} : compare s t = .lt ↔ s < t :=
  compareOfLessAndEq_eq_lt

/-- Comparing as greater is coming after. -/
theorem compare_eq_gt {s t : String} : compare s t = .gt ↔ t < s := by
  rw [Std.OrientedCmp.gt_iff_lt, compare_eq_lt]

end StoryEngine.Text
