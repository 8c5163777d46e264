import StoryEngine.Expression.Evaluation
import StoryEngine.Proofs.Number.Rounding

/-!
# The modulo of numbers

The remainder of two finite numbers is exact, and the modulo adds the divisor to it when the two
have opposite signs. Only that addition rounds, so the modulo is a number nearest to the exact
floored remainder: it lies between zero and the divisor, and it is the divisor only where no number
is nearer to that remainder.

Specification: `SPEC_FULL.md` §4.1 (`%`).
-/

namespace StoryEngine.Number

open Float.Model (UnpackedFloat Format)
open Float.Model.UnpackedFloat (Sign)

/-- What is left of `x` after taking away the divisor a whole number of times, rounded down. -/
def floored (x y : ℚ) : ℚ :=
  x - y * ⌊x / y⌋

/-- A part of `x` that is left by some whole number of divisors is the floored remainder if it is in
its range. -/
private theorem floored_eq {x y r : ℚ} {k : ℤ} (nonzero : y ≠ 0) (split : x = y * k + r)
    (least : 0 ≤ r / y)
    (most : r / y < 1) : floored x y = r := by
  have quotient : x / y = k + r / y := by
    rw [split, add_div, mul_div_cancel_left₀ _ nonzero]
  have whole : ⌊x / y⌋ = k := by
    rw [quotient, Int.floor_eq_iff]
    exact ⟨by linarith, by linarith⟩
  rw [floored, whole, split]
  ring

/-- The remainder of two sizes is left of the first by a whole number of the second, whichever signs
the two are given. -/
private theorem exists_apply_mod (s t : Sign) (a c : ℕ) :
    ∃ k : ℤ, s.apply a = t.apply c * k + s.apply (a % c : ℕ) := by
  obtain ⟨q, split⟩ : ∃ q, c * q + a % c = a := ⟨a / c, Nat.div_add_mod a c⟩
  refine ⟨s.apply (t.apply q), ?_⟩
  generalize a % c = rest at *
  subst split
  cases s <;> cases t <;> simp only [Sign.apply] <;> push_cast <;> ring

/-- Over the smaller of two exponents, a remainder has no more bits than the two mantissas. -/
private theorem shifted_mod_lt {m n : ℕ} (e f : ℤ) (hm : m < 2 ^ 53) (hn : n < 2 ^ 53)
    (pos : 0 < n) :
    m <<< (e - min e f).toNat % n <<< (f - min e f).toNat < 2 ^ 53 := by
  rcases min_choice e f with first | second
  · rw [first, sub_self, Int.toNat_zero, Nat.shiftLeft_zero]
    exact (Nat.mod_le _ _).trans_lt hm
  · rw [second, sub_self, Int.toNat_zero, Nat.shiftLeft_zero]
    exact (Nat.mod_lt _ pos).trans hn

/-- The remainder of finite numbers is exact and smaller than the divisor. -/
theorem value_remainder {x y : Float} (hx : x.isFinite = true) (hy : y.isFinite = true)
    (nonzero : value y ≠ 0) :
    (remainder x y).isFinite = true ∧ |value (remainder x y)| < |value y| ∧
      ∃ k : ℤ, value x = value y * k + value (remainder x y) := by
  rcases unpack_cases hy with ⟨t, second⟩ | ⟨t, n, f, pos', second⟩
  · exact absurd (by rw [value, second]; rfl) nonzero
  rcases unpack_cases hx with ⟨s, first⟩ | ⟨s, m, e, pos, first⟩
  · have zero : value x = 0 := by rw [value, first]; rfl
    have same : remainder x y = x := by
      rw [remainder, first, second]
    rw [same, zero]
    exact ⟨hx, by simpa using nonzero, 0, by simp⟩
  · obtain ⟨fits, -⟩ := fits_of_unpack first
    obtain ⟨fits', -⟩ := fits_of_unpack second
    let unit := min e f
    let a := m <<< (e - unit).toNat
    let c := n <<< (f - unit).toNat
    let rest := a % c
    have rounded : remainder x y = .ofModel (.pack (.round Format.binary64 s rest unit)) := by
      rw [remainder, first, second]
      rfl
    have dividend : value x = s.apply a * 2 ^ unit := by
      rw [value, first]
      exact (apply_decreaseExponent s m (min_le_left e f)).symm
    have divisor : value y = t.apply c * 2 ^ unit := by
      rw [value, second]
      exact (apply_decreaseExponent t n (min_le_right e f)).symm
    have some : 0 < c := by
      simp only [c, Nat.shiftLeft_eq]
      exact Nat.mul_pos pos' (Nat.two_pow_pos _)
    have smaller : |(s.apply rest : ℚ) * 2 ^ unit| < |value y| := by
      rw [divisor, abs_apply_mul, abs_apply_mul]
      have less : (rest : ℚ) < c := by exact_mod_cast Nat.mod_lt a some
      exact mul_lt_mul_of_pos_right less (zpow_pos two_pos _)
    have bits : rest < 2 ^ 53 := shifted_mod_lt e f fits.bits fits'.bits pos'
    have least : -1074 ≤ unit := le_min fits.least fits'.least
    have exactly := value_round bits least hy smaller.le
    obtain ⟨k, split⟩ := exists_apply_mod s t a c
    rw [rounded]
    refine ⟨(nearest_round hy smaller.le).finite, exactly ▸ smaller, k, ?_⟩
    rw [exactly, dividend, divisor, split, Int.cast_add, Int.cast_mul]
    ring

private theorem div_neg_iff_opposite {r y : ℚ} (nonzero : y ≠ 0) :
    r / y < 0 ↔ r ≠ 0 ∧ ¬ (r < 0 ↔ y < 0) := by
  rw [div_neg_iff]
  grind

/-- The divisor is added when the remainder is no zero and has the other sign. -/
theorem modulo_eq {x y : Float} (hx : (remainder x y).isFinite = true) (hy : y.isFinite = true)
    (nonzero : value y ≠ 0) :
    modulo x y =
      if value (remainder x y) / value y < 0 then remainder x y + y else remainder x y := by
  have moves : (remainder x y != 0 && (remainder x y < 0) != (y < 0)) = true ↔
      value (remainder x y) / value y < 0 := by
    rw [Bool.and_eq_true, bne, Bool.not_eq_true', ← Bool.not_eq_true, beq_zero_iff hx,
      bne_iff_ne, ne_eq, decide_eq_decide, lt_zero_iff hx, lt_zero_iff hy,
      div_neg_iff_opposite nonzero]
  simp only [modulo, moves]

/-- The modulo is a number nearest to the floored remainder. -/
theorem nearest_modulo {x y : Float} (hx : x.isFinite = true) (hy : y.isFinite = true)
    (nonzero : value y ≠ 0) : Nearest (floored (value x) (value y)) (modulo x y) := by
  obtain ⟨finite, smaller, k, split⟩ := value_remainder hx hy nonzero
  rw [modulo_eq finite hy nonzero]
  generalize remainder x y = rest at *
  have within : |value rest / value y| < 1 := by
    rwa [abs_div, div_lt_one (abs_pos.2 nonzero)]
  obtain ⟨lower, upper⟩ := abs_lt.1 within
  by_cases opposite : value rest / value y < 0
  · have moved : (value rest + value y) / value y = value rest / value y + 1 := by
      rw [add_div, div_self nonzero]
    have next : value x = value y * (k - 1 : ℤ) + (value rest + value y) := by
      rw [split]
      push_cast
      ring
    rw [if_pos opposite, floored_eq nonzero next (by linarith) (by linarith)]
    refine nearest_add finite hy hy ?_
    rw [← div_le_one (abs_pos.2 nonzero), ← abs_div, moved, abs_of_nonneg (by linarith)]
    linarith
  · rw [if_neg opposite, floored_eq nonzero split (le_of_not_gt opposite) upper]
    exact nearest_self finite

/-- The floored remainder lies between zero and the divisor. -/
theorem floored_mem (x : ℚ) {y : ℚ} (nonzero : y ≠ 0) :
    0 ≤ floored x y / y ∧ floored x y / y < 1 := by
  have quotient : floored x y / y = x / y - ⌊x / y⌋ := by
    rw [floored, sub_div, mul_div_cancel_left₀ _ nonzero]
  rw [quotient]
  exact ⟨sub_nonneg.2 (Int.floor_le _), by linarith [Int.lt_floor_add_one (x / y)]⟩

/-- A number nearest to what is at most a finite number is at most that number. -/
private theorem Nearest.value_le {q : ℚ} {x y : Float} (h : Nearest q x)
    (finite : y.isFinite = true)
    (above : q ≤ value y) : value x ≤ value y := by
  have near := h.le y finite
  rw [abs_of_nonneg (sub_nonneg.2 above)] at near
  linarith [(abs_le.1 near).2]

/-- A number nearest to what is at least a finite number is at least that number. -/
private theorem Nearest.le_value {q : ℚ} {x y : Float} (h : Nearest q x)
    (finite : y.isFinite = true)
    (below : value y ≤ q) : value y ≤ value x := by
  have near := h.le y finite
  rw [abs_of_nonpos (sub_nonpos.2 below)] at near
  linarith [(abs_le.1 near).1]

private theorem Nearest.value_eq {q : ℚ} {x y : Float} (h : Nearest q x)
    (finite : y.isFinite = true)
    (same : value y = q) : value x = q :=
  le_antisymm (same ▸ h.value_le finite same.ge) (same ▸ h.le_value finite same.le)

private theorem floored_intCast (m n : ℤ) : floored m n = (m - n * ⌊(m / n : ℚ)⌋ : ℤ) := by
  rw [floored]
  push_cast
  rfl

private theorem abs_floored_lt (x : ℚ) {y : ℚ} (nonzero : y ≠ 0) : |floored x y| < |y| := by
  obtain ⟨least, most⟩ := floored_mem x nonzero
  rwa [← div_lt_one (abs_pos.2 nonzero), ← abs_div, abs_of_nonneg least]

/-- A whole number of at most 53 bits is the value of a number. -/
theorem exists_value_eq {k : ℤ} {b : Float} (finite : b.isFinite = true) (bits : |k| < 2 ^ 53)
    (within : |(k : ℚ)| ≤ |value b|) : ∃ x : Float, x.isFinite = true ∧ value x = k := by
  obtain ⟨s, same⟩ : ∃ s : Sign, s.apply k.natAbs = k := by
    rcases Int.natAbs_eq k with same | same
    · exact ⟨.positive, same.symm⟩
    · exact ⟨.negative, same.symm⟩
  have scaled : (k : ℚ) = s.apply k.natAbs * 2 ^ (0 : ℤ) := by rw [same, zpow_zero, mul_one]
  rw [scaled] at within ⊢
  have bits : k.natAbs < 2 ^ 53 := by
    rw [Int.abs_eq_natAbs] at bits
    exact_mod_cast bits
  exact ⟨_, (nearest_round finite within).finite, value_round bits (by decide) finite within⟩

/-! ### Numbers nearest to a floored remainder -/

namespace Nearest

variable {x : ℚ} {v b : Float}

private theorem mem_of_pos (near : Nearest (floored x (value b)) v) (finite : b.isFinite = true)
    (pos : 0 < value b) : 0 ≤ value v ∧ value v ≤ value b := by
  obtain ⟨least, most⟩ := floored_mem x pos.ne'
  rw [le_div_iff₀ pos, zero_mul] at least
  rw [div_lt_one pos] at most
  exact ⟨near.le_value (y := 0) rfl least, near.value_le finite most.le⟩

private theorem mem_of_neg (near : Nearest (floored x (value b)) v) (finite : b.isFinite = true)
    (neg : value b < 0) : value b ≤ value v ∧ value v ≤ 0 := by
  obtain ⟨least, most⟩ := floored_mem x neg.ne
  rw [le_div_iff_of_neg neg, zero_mul] at least
  rw [div_lt_one_of_neg neg] at most
  exact ⟨near.le_value finite most.le, near.value_le (y := 0) rfl least⟩

/-- Only the divisor itself is not smaller than the divisor. -/
private theorem abs_lt_of_ne (near : Nearest (floored x (value b)) v) (finite : b.isFinite = true)
    (nonzero : value b ≠ 0) (other : value v ≠ value b) : |value v| < |value b| := by
  rcases lt_or_gt_of_ne nonzero with neg | pos
  · obtain ⟨lower, upper⟩ := near.mem_of_neg finite neg
    rw [abs_of_nonpos upper, abs_of_neg neg]
    exact neg_lt_neg (lt_of_le_of_ne lower other.symm)
  · obtain ⟨lower, upper⟩ := near.mem_of_pos finite pos
    rw [abs_of_nonneg lower, abs_of_pos pos]
    exact lt_of_le_of_ne upper other

/-- The floored remainder of whole numbers is a number. -/
private theorem value_of_whole {m n : ℤ} (near : Nearest (floored m n) v)
    (finite : b.isFinite = true)
    (same : value b = n) (nonzero : value b ≠ 0) (bits : |n| ≤ 2 ^ 53) :
    value v = floored m n := by
  have smaller := abs_floored_lt m (same ▸ nonzero)
  rw [floored_intCast] at near smaller ⊢
  generalize m - n * ⌊(m / n : ℚ)⌋ = k at near smaller ⊢
  have few : |k| < |n| := by exact_mod_cast smaller
  obtain ⟨x, whole, exactly⟩ :=
    exists_value_eq finite (few.trans_le bits) (same ▸ smaller.le)
  exact near.value_eq whole exactly

end Nearest

end StoryEngine.Number

namespace StoryEngine.Expression

open Number

/-- The modulo of finite numbers is a number nearest to the floored remainder. It is zero or has the
sign of the divisor, and it is at most as large; it is smaller unless the divisor itself is nearest
to the floored remainder. For whole numbers it is the floored remainder exactly. -/
theorem modulo_floored (a b : Float) (position : Nat) (ha : a.isFinite = true)
    (hb : b.isFinite = true) (nonzero : value b ≠ 0) :
    ∃ v, Operator.mod.apply (.number a) (.number b) position = .ok (.number v) ∧
      Nearest (floored (value a) (value b)) v ∧
      (0 < value b → 0 ≤ value v ∧ value v ≤ value b) ∧
      (value b < 0 → value b ≤ value v ∧ value v ≤ 0) ∧
      (¬ Nearest (floored (value a) (value b)) b → |value v| < |value b|) ∧
      ∀ m n : ℤ, value a = m → value b = n → |n| ≤ 2 ^ 53 →
        value v = (m - n * ⌊(m / n : ℚ)⌋ : ℤ) ∧ |value v| < |value b| := by
  have near := nearest_modulo ha hb nonzero
  have divides : ¬ (b == 0) = true := mt (beq_zero_iff hb).1 nonzero
  have apply : Operator.mod.apply (.number a) (.number b) position =
      .ok (.number (Number.modulo a b)) := by
    show Except.ok (Value.number (if (b == 0) = true then 0 else Number.modulo a b)) = _
    rw [if_neg divides]
  refine ⟨_, apply, near, near.mem_of_pos hb, near.mem_of_neg hb, fun further ↦ ?_,
    fun m n hm hn bits ↦ ?_⟩
  · refine near.abs_lt_of_ne hb nonzero fun same ↦ further ⟨hb, fun x finite ↦ ?_⟩
    exact same ▸ near.le x finite
  · rw [hm, hn] at near
    have exactly := near.value_of_whole hb hn nonzero bits
    refine ⟨exactly.trans (floored_intCast m n), ?_⟩
    rw [exactly, hn]
    exact abs_floored_lt m (hn ▸ nonzero)

/-- The modulo of minus seven by three is two: it has the sign of the divisor. -/
theorem modulo_floored_neg_seven :
    ((-7 : Float).isFinite = true ∧ (3 : Float).isFinite = true ∧ value 3 ≠ 0) ∧
      ∃ v, Operator.mod.apply (.number (-7)) (.number 3) 0 = .ok (.number v) ∧ value v = 2 := by
  have dividend : value (-7) = (-7 : ℤ) := by
    show ((-7881299347898368 : ℤ) : ℚ) * 2 ^ (-50 : ℤ) = (-7 : ℤ)
    norm_num
  have divisor : value 3 = (3 : ℤ) := by
    show ((6755399441055744 : ℤ) : ℚ) * 2 ^ (-51 : ℤ) = (3 : ℤ)
    norm_num
  have nonzero : value 3 ≠ 0 := by
    rw [divisor]
    norm_num
  obtain ⟨v, apply, -, -, -, -, whole⟩ := modulo_floored (-7) 3 0 rfl rfl nonzero
  obtain ⟨exactly, -⟩ := whole (-7) 3 dividend divisor (by norm_num)
  refine ⟨⟨rfl, rfl, nonzero⟩, v, apply, exactly.trans ?_⟩
  norm_num

/-- The divisor itself comes out where it is nearest: the floored remainder of `-1` by `2 ^ 55` is
`2 ^ 55 - 1`, and the next number below `2 ^ 55` is `2 ^ 55 - 4`. -/
theorem not_modulo_lt :
    ¬ ∀ (a b : Float) (position : Nat), a.isFinite = true → b.isFinite = true → value b ≠ 0 →
      ∃ v, Operator.mod.apply (.number a) (.number b) position = .ok (.number v) ∧
        |value v| < |value b| := by
  intro smaller
  have divisor : value 36028797018963968 = 36028797018963968 := by
    show ((4503599627370496 : ℤ) : ℚ) * 2 ^ (3 : ℤ) = 36028797018963968
    norm_num
  obtain ⟨v, apply, less⟩ := smaller (-1) 36028797018963968 0 rfl rfl (by rw [divisor]; norm_num)
  have result : Operator.mod.apply (.number (-1)) (.number 36028797018963968) 0 =
      .ok (.number 36028797018963968) := rfl
  have same : 36028797018963968 = v :=
    Value.number.inj (Except.ok.inj (result.symm.trans apply))
  rw [← same] at less
  exact less.false

end StoryEngine.Expression
