import Mathlib
import StoryEngine.Proofs.Number.Order

/-!
# The values of numbers

A finite number is a whole number of at most 53 bits, its mantissa, times a power of two. Its
value is that rational number, and the signs of numbers are those of their values.
-/

namespace StoryEngine.Number

open Float.Model (UnpackedFloat Format)
open Float.Model.UnpackedFloat (Sign)

/-- The rational number that an unpacked number stands for, zero where there is none. -/
def decoded : UnpackedFloat → ℚ
  | .finite sign m e _ => sign.apply m * 2 ^ e
  | _ => 0

/-- The rational number that a finite number stands for. -/
def value (x : Float) : ℚ :=
  decoded x.toModel.unpack

/-- A mantissa and an exponent as a finite number holds them: the mantissa has at most 53 bits, and
fewer only when the exponent is the least one. -/
structure Fits (m : ℕ) (e : ℤ) : Prop where
  bits : m < 2 ^ 53
  least : -1074 ≤ e
  full : 2 ^ 52 ≤ m ∨ e = -1074

/-- The bit in front of the places that are kept. -/
private theorem toNat_implicit (m : BitVec 52) : (1#1 ++ m).toNat = 2 ^ 52 + m.toNat := by
  rw [BitVec.toNat_append, ← Nat.shiftLeft_add_eq_or_of_lt m.isLt]
  rfl

open Float.Model.UnpackedFloat in
/-- What is unpacked fits. -/
theorem fits_of_unpack {x : Float.Model} {s : Sign} {m : ℕ} {e : ℤ} {pos : 0 < m}
    (h : x.unpack = .finite s m e pos) : Fits m e ∧ e ≤ 971 := by
  let mantissa : BitVec 52 := @unpackMantissa Format.binary64 x.toBits.toBitVec
  let exponent : BitVec 11 := @unpackExponent Format.binary64 x.toBits.toBitVec
  have bits : mantissa.toNat < 2 ^ 52 := mantissa.isLt
  simp only [Float.Model.unpack, unpack] at h
  split at h
  · split at h <;> cases h
  rename_i notAll
  split at h
  · rename_i zero
    split at h
    · cases h
    · cases h
      rw [zero]
      exact ⟨⟨Nat.lt_trans bits (by decide), by decide, .inr rfl⟩, by decide⟩
  · rename_i some
    cases h
    have least : exponent.toNat ≠ 0 := fun same ↦ some (BitVec.eq_of_toNat_eq same)
    have most : exponent.toNat ≠ 2047 := fun same ↦ notAll (BitVec.eq_of_toNat_eq same)
    have within : exponent.toNat < 2048 := exponent.isLt
    have same : (1#1 ++ mantissa).toNat = 2 ^ 52 + mantissa.toNat := toNat_implicit mantissa
    show Fits (1#1 ++ mantissa).toNat (exponent.toNat - (1023 + 52 : ℕ)) ∧
      (exponent.toNat - (1023 + 52 : ℕ) : ℤ) ≤ 971
    rw [same]
    exact ⟨⟨by omega, by omega, .inl (Nat.le_add_right _ _)⟩, by omega⟩

open Float.Model.UnpackedFloat in
private theorem unpack_packComponents (s : Sign) (exponent : BitVec 11) (mantissa : BitVec 52)
    (notAll : exponent ≠ -1#11) :
    unpack Format.binary64 (packComponents Format.binary64 s exponent mantissa) =
      if exponent = 0#11 then
        if h : mantissa = 0#52 then .zero s
        else .finite s mantissa.toNat (exponent.toNat - 1075 + 1)
          (Nat.pos_of_ne_zero fun zero ↦ h (BitVec.eq_of_toNat_eq zero))
      else .finite s (1#1 ++ mantissa).toNat (exponent.toNat - 1075)
        (toNat_implicit mantissa ▸ Nat.add_pos_left (by decide) _) := by
  simp only [unpack, unpackExponent_packComponents, unpackMantissa_packComponents,
    unpackSign_packComponents, Sign.ofBitVec_toBitVec, if_neg notAll]
  rfl

open Float.Model.UnpackedFloat in
/-- Packing a finite number that fits keeps it. -/
theorem unpack_pack {s : Sign} {m : ℕ} {e : ℤ} {pos : 0 < m} (fits : Fits m e) (most : e ≤ 971) :
    (Float.Model.pack (.finite s m e pos)).unpack = .finite s m e pos := by
  obtain ⟨bits, least, full⟩ := fits
  let biased : ℕ := (e + 1023 + 52).toNat
  have same : (biased : ℤ) = e + 1075 := by omega
  have exponent : (BitVec.ofNat 11 biased).toNat = biased := by
    rw [BitVec.toNat_ofNat, Nat.mod_eq_of_lt (by omega)]
  have within : ¬ 2 ^ 11 ≤ biased + 1 := by omega
  show unpack Format.binary64
    (if 2 ^ 11 ≤ biased + 1 then packedInfinity Format.binary64 s
      else if m.log2 + 1 = 53 then
        packComponents Format.binary64 s (BitVec.ofNat 11 biased) (BitVec.ofNat 52 m)
      else packComponents Format.binary64 s 0#11 (BitVec.ofNat 52 m)) = _
  rw [if_neg within]
  by_cases normal : 2 ^ 52 ≤ m
  · have log : m.log2 = 52 := (Nat.log2_eq_iff (Nat.ne_of_gt pos)).2 ⟨normal, bits⟩
    have notAll : BitVec.ofNat 11 biased ≠ -1#11 := by
      intro all
      rw [all] at exponent
      have : biased = 2047 := exponent.symm
      omega
    have notZero : BitVec.ofNat 11 biased ≠ 0#11 := by
      intro zero
      rw [zero] at exponent
      have : biased = 0 := exponent.symm
      omega
    have mantissa : (1#1 ++ BitVec.ofNat 52 m).toNat = m := by
      rw [toNat_implicit, BitVec.toNat_ofNat]
      omega
    rw [if_pos (by rw [log]), unpack_packComponents _ _ _ notAll, if_neg notZero]
    simp only [exponent, mantissa, same]
    congr 1
    omega
  · have small : m < 2 ^ 52 := Nat.lt_of_not_le normal
    have log : m.log2 + 1 ≠ 53 := by
      have := (Nat.log2_lt (Nat.ne_of_gt pos)).2 small
      omega
    have mantissa : (BitVec.ofNat 52 m).toNat = m := by
      rw [BitVec.toNat_ofNat, Nat.mod_eq_of_lt small]
    have notZero : BitVec.ofNat 52 m ≠ 0#52 := by
      intro zero
      rw [zero] at mantissa
      exact absurd mantissa (Nat.ne_of_lt pos)
    rw [if_neg log, unpack_packComponents _ _ _ (by decide), if_pos rfl, dif_neg notZero]
    simp only [mantissa]
    congr 1
    exact (full.resolve_left normal).symm

/-- Packing keeps a zero and its sign. -/
theorem unpack_pack_zero (s : Sign) : (Float.Model.pack (.zero s)).unpack = .zero s :=
  Float.Model.UnpackedFloat.unpack_packedZero

section

variable {x : Float}

/-- A finite number is a zero or has a sign, a mantissa and an exponent. -/
theorem unpack_cases (finite : x.isFinite = true) :
    (∃ s, x.toModel.unpack = .zero s) ∨ ∃ s m e pos, x.toModel.unpack = .finite s m e pos := by
  have finite : x.toModel.unpack.isFinite = true := finite
  cases unpacked : x.toModel.unpack with
  | zero s => exact .inl ⟨s, rfl⟩
  | finite s m e pos => exact .inr ⟨s, m, e, pos, rfl⟩
  | infinity s | notANumber =>
    rw [unpacked] at finite
    cases finite

/-- A finite number is a mantissa that fits times a power of two. -/
theorem exists_fits (finite : x.isFinite = true) :
    ∃ (s : Sign) (m : ℕ) (e : ℤ), Fits m e ∧ e ≤ 971 ∧ value x = s.apply m * 2 ^ e := by
  rcases unpack_cases finite with ⟨s, unpacked⟩ | ⟨s, m, e, pos, unpacked⟩
  · refine ⟨s, 0, -1074, ⟨by decide, by decide, .inr rfl⟩, by decide, ?_⟩
    rw [value, unpacked]
    cases s <;> simp [decoded, Sign.apply]
  · obtain ⟨fits, most⟩ := fits_of_unpack unpacked
    exact ⟨s, m, e, fits, most, by rw [value, unpacked]; rfl⟩

private theorem decoded_positive_pos {m : ℕ} (e : ℤ) (pos : 0 < m) :
    0 < decoded (.finite .positive m e pos) :=
  mul_pos (Int.cast_pos.2 (Int.natCast_pos.2 pos)) (zpow_pos two_pos e)

private theorem decoded_negative_neg {m : ℕ} (e : ℤ) (pos : 0 < m) :
    decoded (.finite .negative m e pos) < 0 :=
  mul_neg_of_neg_of_pos (Int.cast_lt_zero.2 (Int.neg_neg_of_pos (Int.natCast_pos.2 pos)))
    (zpow_pos two_pos e)

/-- A number is below zero just when its value is. -/
theorem lt_zero_iff (finite : x.isFinite = true) : x < 0 ↔ value x < 0 := by
  rw [lt_iff]
  show x.toModel.unpack.compare (.zero .positive) = some .lt ↔ decoded x.toModel.unpack < 0
  rcases unpack_cases finite with ⟨s, unpacked⟩ | ⟨s, m, e, pos, unpacked⟩
  · rw [unpacked]
    exact iff_of_false nofun Rat.lt_irrefl
  · rw [unpacked]
    cases s with
    | positive => exact iff_of_false nofun (not_lt_of_gt (decoded_positive_pos e pos))
    | negative => exact iff_of_true rfl (decoded_negative_neg e pos)

/-- A number is a zero, of either sign, just when its value is. -/
theorem beq_zero_iff (finite : x.isFinite = true) : (x == 0) = true ↔ value x = 0 := by
  rw [beq_iff]
  show x.toModel.unpack.compare (.zero .positive) = some .eq ↔ decoded x.toModel.unpack = 0
  rcases unpack_cases finite with ⟨s, unpacked⟩ | ⟨s, m, e, pos, unpacked⟩
  · rw [unpacked]
    exact iff_of_true rfl rfl
  · rw [unpacked]
    cases s with
    | positive => exact iff_of_false nofun (ne_of_gt (decoded_positive_pos e pos))
    | negative => exact iff_of_false nofun (ne_of_lt (decoded_negative_neg e pos))

end

end StoryEngine.Number
