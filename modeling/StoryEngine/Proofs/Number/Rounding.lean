import StoryEngine.Proofs.Number.Value

/-!
# Rounding

A mantissa with too many places is shifted until its last place is the last one a number has, and
what is shifted out is kept as one bit for the half and one for the rest. That is enough to round
to the nearest number: no finite number is nearer to the sum of two others than the one that adding
them gives, as long as the sum is within the range of finite numbers.
-/

namespace StoryEngine.Number

open Float.Model (UnpackedFloat Format totalExponent)
open Float.Model.UnpackedFloat (Sign ExtendedMantissa Accuracy decreaseExponent shiftToExponent
  shiftToTargetExponent roundWithAccuracy)

/-- A mantissa with what was shifted out of it tells where a rational number lies between two whole
numbers: at the first, at their half, or in one of the two gaps. -/
def Tells (em : ExtendedMantissa) (x : ℚ) : Prop :=
  match em.accuracy with
  | .exact => x = em.mantissa
  | .inexact .lt => em.mantissa < x ∧ x < em.mantissa + 1 / 2
  | .inexact .eq => x = em.mantissa + 1 / 2
  | .inexact .gt => em.mantissa + 1 / 2 < x ∧ x < em.mantissa + 1

namespace Tells

variable {em : ExtendedMantissa} {x : ℚ}

private theorem exact (m : ℕ) : Tells (.ofMantissaAndAccuracy m .exact) m := rfl

/-- Shifting a place out keeps telling of the number, which is halved. -/
private theorem shiftRightOne (h : Tells em x) : Tells em.shiftRightOne (x / 2) := by
  obtain ⟨m, half, rest⟩ := em
  have split : (m : ℚ) = 2 * (m / 2 : ℕ) + (m % 2 : ℕ) := by
    exact_mod_cast (Nat.div_add_mod m 2).symm
  rcases Nat.mod_two_eq_zero_or_one m with even | odd
  · rw [even] at split
    cases half <;> cases rest <;>
      simp [Tells, ExtendedMantissa.shiftRightOne, ExtendedMantissa.accuracy, even] at h ⊢ <;>
      first | constructor <;> linarith | linarith
  · rw [odd] at split
    cases half <;> cases rest <;>
      simp [Tells, ExtendedMantissa.shiftRightOne, ExtendedMantissa.accuracy, odd] at h ⊢ <;>
      first | constructor <;> linarith | linarith

private theorem shiftRight (h : Tells em x) (n : ℕ) : Tells (em >>> n) (x / 2 ^ n) := by
  induction n with
  | zero =>
    rw [pow_zero, div_one]
    exact h
  | succ n ih =>
    rw [pow_succ, ← div_div]
    exact ih.shiftRightOne

/-- The rounded mantissa is at most a half away from the number. -/
private theorem abs_sub_le (h : Tells em x) : |(em.roundedMantissa : ℚ) - x| ≤ 1 / 2 := by
  unfold Tells at h
  unfold ExtendedMantissa.roundedMantissa
  rw [abs_le]
  split at h
  · rename_i accuracy
    rw [accuracy, h]
    simp [Accuracy.roundToNearestEven]
  · rename_i accuracy
    rw [accuracy]
    simp only [Accuracy.roundToNearestEven]
    constructor <;> linarith
  · rename_i accuracy
    rw [accuracy, h]
    have parity : ((em.mantissa % 2 : ℕ) : ℚ) = 0 ∨ ((em.mantissa % 2 : ℕ) : ℚ) = 1 := by
      exact_mod_cast Nat.mod_two_eq_zero_or_one em.mantissa
    simp only [Accuracy.roundToNearestEven, Nat.cast_add]
    rcases parity with even | odd <;> constructor <;> linarith
  · rename_i accuracy
    rw [accuracy]
    simp only [Accuracy.roundToNearestEven, Nat.cast_add, Nat.cast_one]
    constructor <;> linarith

end Tells

/-- The exponent of the last place that a finite number has for a mantissa and an exponent. -/
def lastPlace (m : ℕ) (e : ℤ) : ℤ :=
  max (m.log2 + e - 52) (-1074)

private theorem targetExponent_eq (m : ℕ) (e : ℤ) :
    Format.binary64.targetExponent (totalExponent m e) = lastPlace m e := by
  show max ((m.log2 : ℤ) + 1 + e - 53) (-1074) = max (m.log2 + e - 52) (-1074)
  congr 1
  omega

/-- Counted in the last place, a number has at most 53 bits before the point. -/
private theorem units_lt (m : ℕ) (e : ℤ) : (m : ℚ) * 2 ^ (e - lastPlace m e) < 2 ^ 53 := by
  have below : (m : ℚ) < 2 ^ (m.log2 + 1) := by exact_mod_cast Nat.lt_log2_self
  have power : (0 : ℚ) < 2 ^ (e - lastPlace m e) := zpow_pos two_pos _
  calc (m : ℚ) * 2 ^ (e - lastPlace m e)
      < 2 ^ (m.log2 + 1) * 2 ^ (e - lastPlace m e) := mul_lt_mul_of_pos_right below power
    _ = 2 ^ ((m.log2 + 1 : ℕ) + (e - lastPlace m e)) := by
      rw [zpow_add₀ two_ne_zero, zpow_natCast]
    _ ≤ 2 ^ (53 : ℤ) := zpow_le_zpow_right₀ one_le_two (by unfold lastPlace; omega)

/-- Unless the last place is the least there is, the first of the places is used. -/
private theorem le_units {m : ℕ} (some : m ≠ 0) {e : ℤ} (above : lastPlace m e ≠ -1074) :
    (2 : ℚ) ^ 52 ≤ m * 2 ^ (e - lastPlace m e) := by
  have atLeast : (2 : ℚ) ^ m.log2 ≤ m := by exact_mod_cast Nat.log2_self_le some
  have power : (0 : ℚ) < 2 ^ (e - lastPlace m e) := zpow_pos two_pos _
  calc (2 : ℚ) ^ (52 : ℤ) = 2 ^ (m.log2 + (e - lastPlace m e)) := by
        congr 1
        unfold lastPlace at above ⊢
        omega
    _ = 2 ^ m.log2 * 2 ^ (e - lastPlace m e) := by rw [zpow_add₀ two_ne_zero, zpow_natCast]
    _ ≤ m * 2 ^ (e - lastPlace m e) := mul_le_mul_of_nonneg_right atLeast power.le

private theorem log2_le_of_lt {m k : ℕ} (h : m < 2 ^ (k + 1)) : m.log2 ≤ k := by
  by_cases zero : m = 0
  · rw [zero, Nat.log2_zero]
    exact Nat.zero_le k
  · exact Nat.le_of_lt_succ ((Nat.log2_lt zero).2 h)

/-- A mantissa that the places hold is not shifted any more. -/
private theorem shiftToTargetExponent_of_lt {m : ℕ} {e : ℤ} (bits : m < 2 ^ 53)
    (least : -1074 ≤ e) :
    shiftToTargetExponent Format.binary64 m e .exact = (.ofMantissaAndAccuracy m .exact, e) := by
  have log := log2_le_of_lt bits
  have none : (lastPlace m e - e).toNat = 0 := by
    unfold lastPlace
    omega
  rw [shiftToTargetExponent, targetExponent_eq, shiftToExponent, none]
  simp only [Nat.cast_zero, add_zero]
  rfl

/-- The first shift of a rounding leaves a number counted in its last place, whether the mantissa
had to lose places or to gain some. -/
private theorem shiftToTargetExponent_decreaseExponent (m : ℕ) (e : ℤ) :
    ∃ em, shiftToTargetExponent Format.binary64 (decreaseExponent m e (lastPlace m e)).1
        (decreaseExponent m e (lastPlace m e)).2 .exact = (em, lastPlace m e) ∧
      Tells em (m * 2 ^ (e - lastPlace m e)) := by
  have least : -1074 ≤ lastPlace m e := le_max_right _ _
  rcases le_total e (lastPlace m e) with below | above
  · have none : (e - lastPlace m e).toNat = 0 := Int.toNat_of_nonpos (Int.sub_nonpos_of_le below)
    obtain ⟨n, shift⟩ := Int.eq_ofNat_of_zero_le (Int.sub_nonneg_of_le below)
    have same : decreaseExponent m e (lastPlace m e) = (m, e) := by
      rw [decreaseExponent, none]
      simp
    rw [same, shiftToTargetExponent, targetExponent_eq, shiftToExponent, shift]
    refine ⟨_, Prod.ext rfl ?_, ?_⟩
    · show e + (n : ℤ) = lastPlace m e
      omega
    · have power : (m : ℚ) * 2 ^ (e - lastPlace m e) = m / 2 ^ n := by
        rw [div_eq_mul_inv, ← zpow_natCast, ← zpow_neg]
        congr 2
        omega
      rw [power]
      exact (Tells.exact m).shiftRight n
  · obtain ⟨n, shift⟩ := Int.eq_ofNat_of_zero_le (Int.sub_nonneg_of_le above)
    have same : decreaseExponent m e (lastPlace m e) = (m * 2 ^ n, lastPlace m e) := by
      rw [decreaseExponent, shift, Int.toNat_natCast, Nat.shiftLeft_eq]
      congr 1
      omega
    have bits : m * 2 ^ n < 2 ^ 53 := by
      calc m * 2 ^ n < 2 ^ (m.log2 + 1) * 2 ^ n :=
            Nat.mul_lt_mul_of_pos_right Nat.lt_log2_self (Nat.two_pow_pos n)
        _ = 2 ^ (m.log2 + 1 + n) := (Nat.pow_add 2 _ n).symm
        _ ≤ 2 ^ 53 := Nat.pow_le_pow_right two_pos (by unfold lastPlace at shift; omega)
    rw [same, shiftToTargetExponent_of_lt bits least]
    refine ⟨_, rfl, ?_⟩
    have power : (m : ℚ) * 2 ^ (e - lastPlace m e) = (m * 2 ^ n : ℕ) := by
      rw [shift]
      push_cast
      rfl
    rw [power]
    exact Tells.exact _

/-- A mantissa that rounding up carried beyond its places is shifted back. -/
private theorem shiftToTargetExponent_two_pow {e : ℤ} (least : -1074 ≤ e) :
    shiftToTargetExponent Format.binary64 (2 ^ 53) e .exact =
      (.ofMantissaAndAccuracy (2 ^ 52) .exact, e + 1) := by
  have one : (lastPlace (2 ^ 53) e - e).toNat = 1 := by
    rw [lastPlace, Nat.log2_two_pow]
    omega
  rw [shiftToTargetExponent, targetExponent_eq, shiftToExponent, one]
  rfl

/-- A rounding is made of a first shift, a rounded mantissa and a second shift. -/
private theorem round_of_shift {s : Sign} {m r n : ℕ} {e f : ℤ} {em : ExtendedMantissa}
    (first : shiftToTargetExponent Format.binary64 (decreaseExponent m e (lastPlace m e)).1
      (decreaseExponent m e (lastPlace m e)).2 .exact = (em, lastPlace m e))
    (rounded : em.roundedMantissa = r)
    (second : shiftToTargetExponent Format.binary64 r (lastPlace m e) .exact =
      (.ofMantissaAndAccuracy n .exact, f)) :
    UnpackedFloat.round Format.binary64 s m e =
      if h : n = 0 then .zero s else .finite s n f (Nat.pos_of_ne_zero h) := by
  rw [UnpackedFloat.round, targetExponent_eq]
  simp only [roundWithAccuracy, first, rounded, second]
  rfl

private theorem ne_zero_of_units {m r : ℕ} {p : ℚ} (near : |(r : ℚ) - m * p| ≤ 1 / 2)
    (some : r ≠ 0) :
    m ≠ 0 := by
  rintro rfl
  have : (1 : ℚ) ≤ r := by exact_mod_cast Nat.one_le_iff_ne_zero.2 some
  have := (abs_le.1 near).2
  rw [Nat.cast_zero, zero_mul] at this
  linarith

/-- Rounding gives the nearest whole number of units in the last place, and the result fits. -/
theorem round_cases (s : Sign) (m : ℕ) (e : ℤ) :
    ∃ r : ℕ, |(r : ℚ) - m * 2 ^ (e - lastPlace m e)| ≤ 1 / 2 ∧
      decoded (.round Format.binary64 s m e) = s.apply r * 2 ^ lastPlace m e ∧
      (UnpackedFloat.round Format.binary64 s m e = .zero s ∨
        ∃ n f pos, UnpackedFloat.round Format.binary64 s m e = .finite s n f pos ∧ Fits n f) := by
  have least : -1074 ≤ lastPlace m e := le_max_right _ _
  obtain ⟨em, first, tells⟩ := shiftToTargetExponent_decreaseExponent m e
  have near := tells.abs_sub_le
  obtain ⟨r, rounded⟩ : ∃ r, em.roundedMantissa = r := ⟨_, rfl⟩
  rw [rounded] at near
  refine ⟨r, near, ?_⟩
  obtain ⟨lower, upper⟩ := abs_le.1 near
  by_cases zero : r = 0
  · have second := shiftToTargetExponent_of_lt (zero ▸ (by decide) : r < 2 ^ 53) least
    rw [round_of_shift first rounded second, dif_pos zero]
    refine ⟨?_, .inl rfl⟩
    rw [zero]
    cases s <;> simp [decoded, Sign.apply]
  by_cases bits : r < 2 ^ 53
  · have second := shiftToTargetExponent_of_lt bits least
    rw [round_of_shift first rounded second, dif_neg zero]
    refine ⟨rfl, .inr ⟨_, _, _, rfl, bits, least, ?_⟩⟩
    by_cases above : lastPlace m e = -1074
    · exact .inr above
    · have full := le_units (ne_zero_of_units near zero) above
      have : ((2 ^ 52 : ℕ) : ℚ) < (r + 1 : ℕ) := by
        push_cast
        linarith
      exact .inl (Nat.le_of_lt_succ (by exact_mod_cast this))
  · have within := units_lt m e
    have : (r : ℚ) < (2 ^ 53 + 1 : ℕ) := by
      push_cast
      linarith
    have full : r = 2 ^ 53 :=
      Nat.le_antisymm (Nat.le_of_lt_succ (by exact_mod_cast this)) (Nat.le_of_not_lt bits)
    have second := full ▸ shiftToTargetExponent_two_pow least
    rw [round_of_shift first rounded second, dif_neg (by decide)]
    refine ⟨?_, .inr ⟨_, _, _, rfl, by decide, by omega, .inl (Nat.le_refl _)⟩⟩
    rw [full, decoded, zpow_add_one₀ two_ne_zero]
    cases s <;> simp [Sign.apply] <;> ring

/-- No whole number is nearer to what is at most a half away. -/
private theorem abs_sub_le_of_units {r : ℕ} {x : ℚ} (near : |(r : ℚ) - x| ≤ 1 / 2) (k : ℤ) :
    |(r : ℚ) - x| ≤ |k - x| := by
  by_cases same : k = r
  · rw [same]
    exact le_rfl
  · have apart : (1 : ℚ) ≤ |(k : ℚ) - r| := by
      have := Int.one_le_abs (sub_ne_zero.2 same)
      exact_mod_cast this
    have := abs_sub_le (k : ℚ) x r
    rw [abs_sub_comm x] at this
    linarith

/-- The rational numbers with a mantissa and an exponent that fit. -/
def OnGrid (z : ℚ) : Prop :=
  ∃ (s : Sign) (m : ℕ) (e : ℤ), Fits m e ∧ z = s.apply m * 2 ^ e

private theorem OnGrid.neg {z : ℚ} (h : OnGrid z) : OnGrid (-z) := by
  obtain ⟨s, m, e, fits, rfl⟩ := h
  cases s with
  | positive => exact ⟨.negative, m, e, fits, by simp [Sign.apply]⟩
  | negative => exact ⟨.positive, m, e, fits, by simp [Sign.apply]⟩

/-- Counted in the last place of a number, no other that fits is nearer to it than its rounded
mantissa: those with finer places lie below the first of the places. -/
private theorem nearest_units {m r : ℕ} {e : ℤ}
    (near : |(r : ℚ) - m * 2 ^ (e - lastPlace m e)| ≤ 1 / 2) {z : ℚ}
    (h : OnGrid (z * 2 ^ lastPlace m e)) :
    |(r : ℚ) - m * 2 ^ (e - lastPlace m e)| ≤ |z - m * 2 ^ (e - lastPlace m e)| := by
  obtain ⟨s, n, f, fits, same⟩ := h
  have power : (2 : ℚ) ^ lastPlace m e ≠ 0 := zpow_ne_zero _ two_ne_zero
  have same : z = s.apply n * 2 ^ (f - lastPlace m e) := by
    rw [zpow_sub₀ two_ne_zero, ← mul_div_assoc, ← same, mul_div_cancel_right₀ _ power]
  rcases le_or_gt (lastPlace m e) f with above | below
  · obtain ⟨k, shift⟩ := Int.eq_ofNat_of_zero_le (Int.sub_nonneg_of_le above)
    have whole : z = (s.apply n * 2 ^ k : ℤ) := by
      rw [same, shift]
      push_cast
      rfl
    rw [whole]
    exact abs_sub_le_of_units near _
  · -- A number with finer places than the last one is below the first place.
    have notLeast : lastPlace m e ≠ -1074 := by
      have := fits.least
      omega
    by_cases zero : m = 0
    · have none : r = 0 := by
        by_contra some
        exact ne_zero_of_units near some zero
      simp [zero, none]
    · have full := le_units zero notLeast
      have under : z < 2 ^ 52 := by
        have bits : (n : ℚ) < 2 ^ 53 := by exact_mod_cast fits.bits
        have half : (2 : ℚ) ^ (f - lastPlace m e) ≤ 2 ^ (-1 : ℤ) :=
          zpow_le_zpow_right₀ one_le_two (by omega)
        have power : (0 : ℚ) < 2 ^ (f - lastPlace m e) := zpow_pos two_pos _
        have product : (n : ℚ) * 2 ^ (f - lastPlace m e) < 2 ^ 53 * 2 ^ (-1 : ℤ) :=
          mul_lt_mul bits half power (by positivity)
        have size : z ≤ n * 2 ^ (f - lastPlace m e) := by
          rw [same]
          refine mul_le_mul_of_nonneg_right ?_ power.le
          cases s <;> simp [Sign.apply]
        norm_num at product
        linarith
      have inner := abs_sub_le_of_units near (2 ^ 52)
      rw [Int.cast_pow, Int.cast_ofNat] at inner
      rw [abs_of_nonpos (sub_nonpos.2 full)] at inner
      rw [abs_of_nonpos (by linarith : z - m * 2 ^ (e - lastPlace m e) ≤ 0)]
      linarith

/-- No number that fits is nearer to a number than the rounded one. -/
theorem decoded_round_nearest (s : Sign) (m : ℕ) (e : ℤ) {z : ℚ} (h : OnGrid z) :
    |decoded (.round Format.binary64 s m e) - s.apply m * 2 ^ e| ≤ |z - s.apply m * 2 ^ e| := by
  obtain ⟨r, near, result, -⟩ := round_cases s m e
  let unit : ℚ := 2 ^ lastPlace m e
  have pos : 0 < unit := zpow_pos two_pos _
  have scaled : (2 : ℚ) ^ e = 2 ^ (e - lastPlace m e) * unit := by
    rw [← zpow_add₀ two_ne_zero, Int.sub_add_cancel]
  have nearest {z : ℚ} (h : OnGrid z) : |r * unit - m * 2 ^ e| ≤ |z - m * 2 ^ e| := by
    have inUnits := nearest_units (z := z / unit) near (by rwa [div_mul_cancel₀ _ pos.ne'])
    have := mul_le_mul_of_nonneg_right inUnits pos.le
    rw [← abs_of_pos pos, ← abs_mul, ← abs_mul, abs_of_pos pos, sub_mul, sub_mul,
      div_mul_cancel₀ _ pos.ne', mul_assoc, ← scaled] at this
    exact this
  rw [result]
  cases s with
  | positive => exact nearest h
  | negative =>
    have mirrored := nearest h.neg
    rw [← abs_neg] at mirrored
    rw [← abs_neg (z - _)]
    simp only [Sign.apply]
    push_cast
    convert mirrored using 2 <;> ring

/-! ### Nearest numbers -/

private theorem onGrid_value {x : Float} (finite : x.isFinite = true) : OnGrid (value x) := by
  obtain ⟨s, m, e, fits, -, same⟩ := exists_fits finite
  exact ⟨s, m, e, fits, same⟩

/-- No finite number is nearer to `q` than `x`. -/
structure Nearest (q : ℚ) (x : Float) : Prop where
  finite : x.isFinite = true
  le : ∀ y : Float, y.isFinite = true → |value x - q| ≤ |value y - q|

/-- What is as near as both bounds to a number between them lies between them too. -/
private theorem abs_le_of_nearest {q z c : ℚ} (within : |q| ≤ c) (above : |z - q| ≤ |c - q|)
    (below : |z - q| ≤ |-c - q|) : |z| ≤ c := by
  obtain ⟨lower, upper⟩ := abs_le.1 within
  rw [abs_of_nonneg (by linarith : 0 ≤ c - q)] at above
  rw [abs_of_nonpos (by linarith : -c - q ≤ 0)] at below
  have := (abs_le.1 above).2
  have := (abs_le.1 below).1
  exact abs_le.2 ⟨by linarith, by linarith⟩

/-- The size of a signed number does not depend on its sign. -/
theorem abs_apply_mul (s : Sign) (m : ℕ) (e : ℤ) : |(s.apply m : ℚ) * 2 ^ e| = m * 2 ^ e := by
  have nonneg : (0 : ℚ) ≤ m * 2 ^ e := by positivity
  cases s with
  | positive => exact abs_of_nonneg nonneg
  | negative =>
    simp only [Sign.apply]
    rw [Int.cast_neg, neg_mul, abs_neg]
    exact abs_of_nonneg nonneg

private theorem abs_value_lt {x : Float} (finite : x.isFinite = true) :
    |value x| < 2 ^ (1024 : ℤ) := by
  obtain ⟨s, m, e, fits, most, same⟩ := exists_fits finite
  have bits : (m : ℚ) < 2 ^ (53 : ℤ) := by exact_mod_cast fits.bits
  have power : (2 : ℚ) ^ e ≤ 2 ^ (971 : ℤ) := zpow_le_zpow_right₀ one_le_two most
  rw [same, abs_apply_mul]
  calc (m : ℚ) * 2 ^ e < 2 ^ (53 : ℤ) * 2 ^ (971 : ℤ) :=
        mul_lt_mul bits power (by positivity) (by positivity)
    _ = 2 ^ (1024 : ℤ) := (zpow_add₀ two_ne_zero 53 971).symm

/-- Rounding a number that is at most as large as some finite one stays within the range, so that
packing keeps it. -/
theorem unpack_pack_round {s : Sign} {m : ℕ} {e : ℤ} {b : Float} (finite : b.isFinite = true)
    (within : |(s.apply m : ℚ) * 2 ^ e| ≤ |value b|) :
    let u := UnpackedFloat.round Format.binary64 s m e
    (Float.Model.pack u).unpack = u ∧ u.isFinite = true := by
  have nearest {z : ℚ} (h : OnGrid z) := decoded_round_nearest s m e h
  obtain ⟨r, -, -, cases⟩ := round_cases s m e
  intro u
  have size : |decoded u| ≤ |value b| := by
    have onGrid : OnGrid |value b| := by
      rcases abs_choice (value b) with same | same <;> rw [same]
      · exact onGrid_value finite
      · exact (onGrid_value finite).neg
    exact abs_le_of_nearest within (nearest onGrid) (nearest onGrid.neg)
  rcases cases with zero | ⟨n, f, pos, rounded, fits⟩
  · rw [show u = _ from zero]
    exact ⟨unpack_pack_zero s, rfl⟩
  · rw [show u = _ from rounded] at size ⊢
    refine ⟨unpack_pack fits ?_, rfl⟩
    by_contra beyond
    have full : (2 : ℚ) ^ (52 : ℤ) ≤ n := by
      exact_mod_cast fits.full.resolve_right (by omega)
    have power : (2 : ℚ) ^ (972 : ℤ) ≤ 2 ^ f := zpow_le_zpow_right₀ one_le_two (by omega)
    have large : (2 : ℚ) ^ (52 : ℤ) * 2 ^ (972 : ℤ) ≤ n * 2 ^ f :=
      mul_le_mul full power (by positivity) (by positivity)
    have small := size.trans_lt (abs_value_lt finite)
    rw [decoded, abs_apply_mul] at small
    rw [← zpow_add₀ two_ne_zero] at large
    exact absurd small (not_lt_of_ge large)

/-- Rounding gives a nearest number. -/
theorem nearest_round {s : Sign} {m : ℕ} {e : ℤ} {b : Float} (finite : b.isFinite = true)
    (within : |(s.apply m : ℚ) * 2 ^ e| ≤ |value b|) :
    Nearest (s.apply m * 2 ^ e) (.ofModel (.pack (.round Format.binary64 s m e))) := by
  obtain ⟨packed, some⟩ := unpack_pack_round finite within
  constructor
  · show (Float.Model.pack _).unpack.isFinite = true
    rw [packed, some]
  · intro y finite
    show |decoded (Float.Model.pack _).unpack - _| ≤ _
    rw [packed]
    exact decoded_round_nearest s m e (onGrid_value finite)

/-- Rounding keeps what has few enough bits. -/
theorem value_round {s : Sign} {m : ℕ} {e : ℤ} {b : Float} (bits : m < 2 ^ 53) (least : -1074 ≤ e)
    (finite : b.isFinite = true) (within : |(s.apply m : ℚ) * 2 ^ e| ≤ |value b|) :
    value (.ofModel (.pack (.round Format.binary64 s m e))) = s.apply m * 2 ^ e := by
  obtain ⟨r, near, rounded, -⟩ := round_cases s m e
  have log := log2_le_of_lt bits
  obtain ⟨n, shift⟩ : ∃ n : ℕ, e - lastPlace m e = n :=
    Int.eq_ofNat_of_zero_le (by unfold lastPlace; omega)
  have whole : (m : ℚ) * 2 ^ (e - lastPlace m e) = (m * 2 ^ n : ℕ) := by
    rw [shift]
    push_cast
    rfl
  rw [whole] at near
  have none := abs_sub_le_of_units near (m * 2 ^ n : ℕ)
  rw [Int.cast_natCast, sub_self, abs_zero] at none
  have same : r = m * 2 ^ n := by exact_mod_cast sub_eq_zero.1 (abs_nonpos_iff.1 none)
  have place : e = n + lastPlace m e := by omega
  calc value (.ofModel (.pack (.round Format.binary64 s m e)))
      = decoded (.round Format.binary64 s m e) :=
        congrArg decoded (unpack_pack_round finite within).1
    _ = s.apply r * 2 ^ lastPlace m e := rounded
    _ = s.apply m * 2 ^ (n + lastPlace m e) := by
        rw [same, zpow_add₀ two_ne_zero, zpow_natCast]
        cases s <;> simp [Sign.apply] <;> ring
    _ = s.apply m * 2 ^ e := by rw [← place]

/-- A finite number is nearest to its own value. -/
theorem nearest_self {x : Float} (finite : x.isFinite = true) : Nearest (value x) x :=
  ⟨finite, fun y _ ↦ by rw [sub_self, abs_zero]; exact abs_nonneg _⟩

private theorem nearest_zero (s : Sign) : Nearest 0 (.ofModel (.pack (.zero s))) := by
  have unpacked := unpack_pack_zero s
  have finite : (Float.ofModel (.pack (.zero s))).isFinite = true := by
    show (Float.Model.pack (.zero s)).unpack.isFinite = true
    rw [unpacked]
    rfl
  have zero : value (.ofModel (.pack (.zero s))) = 0 := by
    show decoded (Float.Model.pack (.zero s)).unpack = 0
    rw [unpacked]
    rfl
  exact zero ▸ nearest_self finite

/-- A whole number of units, of either sign, is rounded to a nearest number. -/
theorem nearest_normalize {k e : ℤ} {s : Sign} {b : Float} (finite : b.isFinite = true)
    (within : |(k : ℚ) * 2 ^ e| ≤ |value b|) :
    Nearest (k * 2 ^ e) (.ofModel (.pack (.normalize Format.binary64 k e s))) := by
  have rounded {t : Sign} {m : ℕ} (same : t.apply m = k) :
      Nearest (k * 2 ^ e) (.ofModel (.pack (.round Format.binary64 t m e))) := by
    rw [← same] at within ⊢
    exact nearest_round finite within
  rcases lt_trichotomy k 0 with neg | zero | pos
  · rw [UnpackedFloat.normalize, Int.compare_eq_lt.2 neg]
    exact rounded (t := .negative) (by simp only [Sign.apply]; omega)
  · rw [UnpackedFloat.normalize, Int.compare_eq_eq.2 zero, zero, Int.cast_zero, zero_mul]
    exact nearest_zero s
  · rw [UnpackedFloat.normalize, Int.compare_eq_gt.2 pos]
    exact rounded (t := .positive) (Int.toNat_of_nonneg pos.le)

/-- Giving a mantissa more places keeps what it stands for. -/
theorem apply_decreaseExponent (s : Sign) (m : ℕ) {e u : ℤ} (h : u ≤ e) :
    (s.apply (decreaseExponent m e u).1 : ℚ) * 2 ^ u = s.apply m * 2 ^ e := by
  obtain ⟨n, shift⟩ := Int.eq_ofNat_of_zero_le (Int.sub_nonneg_of_le h)
  have split : e = n + u := by omega
  rw [decreaseExponent, shift, Int.toNat_natCast, Nat.shiftLeft_eq, split, zpow_add₀ two_ne_zero,
    zpow_natCast]
  cases s <;> simp [Sign.apply] <;> ring

/-- Adding gives a number nearest to the sum, if that is within the range. -/
theorem nearest_add {x y b : Float} (hx : x.isFinite = true) (hy : y.isFinite = true)
    (hb : b.isFinite = true) (within : |value x + value y| ≤ |value b|) :
    Nearest (value x + value y) (x + y) := by
  have sum {u : UnpackedFloat}
      (h : UnpackedFloat.add Format.binary64 x.toModel.unpack y.toModel.unpack = u) :
      x + y = .ofModel (.pack u) := h ▸ rfl
  rcases unpack_cases hx with ⟨s, first⟩ | ⟨s, m, e, pos, first⟩ <;>
    rcases unpack_cases hy with ⟨t, second⟩ | ⟨t, n, f, pos', second⟩ <;>
    rw [first, second] at sum
  · have zeros : value x = 0 ∧ value y = 0 := by
      rw [value, value, first, second]
      exact ⟨rfl, rfl⟩
    rw [zeros.1, zeros.2, add_zero]
    by_cases same : (s == t) = true
    · rw [sum (if_pos same)]
      exact nearest_zero s
    · rw [sum (if_neg same)]
      exact nearest_zero .positive
  · have zero : value x = 0 := by rw [value, first]; rfl
    have same : Float.ofModel (.pack y.toModel.unpack) = y := Float.ofBits_toBits y
    rw [second] at same
    rw [zero, zero_add, sum (u := .finite t n f pos') rfl, same]
    exact nearest_self hy
  · have zero : value y = 0 := by rw [value, second]; rfl
    have same : Float.ofModel (.pack x.toModel.unpack) = x := Float.ofBits_toBits x
    rw [first] at same
    rw [zero, add_zero, sum (u := .finite s m e pos) rfl, same]
    exact nearest_self hx
  · have exactly : value x + value y = ((s.apply (decreaseExponent m e (min e f)).1 +
        t.apply (decreaseExponent n f (min e f)).1 : ℤ) : ℚ) * 2 ^ min e f := by
      rw [Int.cast_add, add_mul, apply_decreaseExponent s m (min_le_left e f),
        apply_decreaseExponent t n (min_le_right e f), value, value, first, second]
      rfl
    rw [exactly] at within ⊢
    rw [sum rfl]
    exact nearest_normalize hb within

end StoryEngine.Number
