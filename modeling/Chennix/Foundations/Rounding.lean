import Chennix.Foundations.Float64
import Mathlib

/-!
# Integers as binary64 numbers

An integer of at most 53 bits is a binary64 number. A greater one is cut to its first 53 bits, one
up if what is cut off is more than half of the last bit, or half and the last bit is odd. Here this
is read off the model that the core library gives of its floating-point numbers, and followed
through the conversion back to an integer.

## Main results

* `roundedMantissa_shift` — how a mantissa is rounded
* `magnitude_pack` — the magnitude of a number in normal form
* `toU64_toFloat_small`, `toU64_toFloat_large` — an integer that was a number in between
* `toU64_toFloat_add` — which integers are taken for one that is too great
-/

namespace Foundations.Float64

open Float.Model Float.Model.UnpackedFloat

/-- Shifting drops bits, of which the last one is remembered, and whether any other was set. -/
theorem shiftRight_succ (n k : ℕ) :
    (ExtendedMantissa.mk n false false >>> (k + 1) : ExtendedMantissa) =
      ⟨n / 2 ^ (k + 1), n / 2 ^ k % 2 != 0, n % 2 ^ k != 0⟩ := by
  show (k + 1).repeat ExtendedMantissa.shiftRightOne _ = _
  induction k with
  | zero => simp [Nat.repeat, ExtendedMantissa.shiftRightOne, Nat.mod_one]
  | succ k ih =>
    rw [Nat.repeat, ih]
    simp only [ExtendedMantissa.shiftRightOne, ExtendedMantissa.mk.injEq]
    refine ⟨?_, trivial, ?_⟩
    · rw [Nat.div_div_eq_div_mul, ← pow_succ]
    · rw [Nat.mod_pow_succ]
      rcases Nat.mod_two_eq_zero_or_one (n / 2 ^ k) with h | h <;> simp [h]

/-- What is left after a shift, rounded: one up from half on, unless it is half and even. -/
theorem roundedMantissa_shift (n k : ℕ) :
    (ExtendedMantissa.mk n false false >>> (k + 1) : ExtendedMantissa).roundedMantissa =
      if n % 2 ^ (k + 1) < 2 ^ k then n / 2 ^ (k + 1)
      else if n % 2 ^ (k + 1) = 2 ^ k then n / 2 ^ (k + 1) + n / 2 ^ (k + 1) % 2
      else n / 2 ^ (k + 1) + 1 := by
  have hpos : 0 < 2 ^ k := Nat.two_pow_pos k
  have hlow : n % 2 ^ k < 2 ^ k := Nat.mod_lt _ hpos
  rw [shiftRight_succ, ExtendedMantissa.roundedMantissa, Nat.mod_pow_succ]
  have hsticky : (n % 2 ^ k != 0) = decide (n % 2 ^ k ≠ 0) := by
    rw [Bool.eq_iff_iff]
    simp
  rw [hsticky]
  rcases Nat.mod_two_eq_zero_or_one (n / 2 ^ k) with h | h <;>
    by_cases hs : n % 2 ^ k = 0 <;>
    simp [h, hs, ExtendedMantissa.accuracy, Accuracy.roundToNearestEven, hlow, hpos]

/-- A finite number in normal form, and its absolute value. -/
theorem magnitude_pack {m : ℕ} {e : ℤ} (hpos : 0 < m) (hlow : 2 ^ 52 ≤ m) (hhigh : m < 2 ^ 53)
    (he : -1074 ≤ e) (he' : e ≤ 971) :
    magnitude (.ofModel (Float.Model.pack (.finite .positive m e hpos))) =
      (false, some (m, e)) := by
  have hlog : m.log2 = 52 := by
    rw [Nat.log2_eq_iff (by omega)]
    exact ⟨hlow, hhigh⟩
  have hbits : (Float.ofModel (Float.Model.pack (.finite .positive m e hpos))).toBits.toNat =
      (e + 1075).toNat * 2 ^ 52 + (m - 2 ^ 52) := by
    show (UnpackedFloat.pack _ _).toNat = _
    rw [UnpackedFloat.pack]
    simp only [Format.binary64, hlog, Format.mantissaBits, Format.exponentBias]
    have hbiased : (e + ((2 ^ (11 - 1) - 1 : ℕ) : ℤ) + ((52 : ℕ) : ℤ)).toNat =
        (e + 1075).toNat := by
      congr 1
      omega
    rw [hbiased, if_neg (by omega), if_pos trivial, packComponents]
    simp only [Sign.toBitVec, BitVec.toNat_append, BitVec.toNat_ofNat]
    have h₁ : (e + 1075).toNat % 2 ^ 11 = (e + 1075).toNat := Nat.mod_eq_of_lt (by omega)
    have h₂ : m % 2 ^ 52 = m - 2 ^ 52 := by omega
    rw [h₁, h₂]
    rw [← Nat.shiftLeft_add_eq_or_of_lt (by omega)]
    simp [Nat.shiftLeft_eq]
  have hexp : ((e + 1075).toNat * 2 ^ 52 + (m - 2 ^ 52)) / 2 ^ 52 % 2 ^ 11 = (e + 1075).toNat := by
    omega
  have hfrac : ((e + 1075).toNat * 2 ^ 52 + (m - 2 ^ 52)) % 2 ^ 52 = m - 2 ^ 52 := by omega
  rw [magnitude]
  simp only [hbits, hexp, hfrac]
  rw [if_neg (by omega), if_neg (by omega)]
  have hm : m - 2 ^ 52 + 2 ^ 52 = m := by omega
  have he : ((e + 1075).toNat : ℤ) - 1075 = e := by omega
  rw [hm, he]
  simp only [Prod.mk.injEq, decide_eq_false_iff_not, and_true]
  omega

/-- Shifting to 53 bits drops what is beyond them. -/
theorem shiftToTargetExponent_eq {m : ℕ} {e : ℤ} (he : -1074 ≤ e) :
    shiftToTargetExponent .binary64 m e .exact =
      (ExtendedMantissa.mk m false false >>> (m.log2 - 52), e + (m.log2 - 52 : ℕ)) := by
  have hshift : (Format.targetExponent .binary64 (totalExponent m e) - e).toNat = m.log2 - 52 := by
    simp only [Format.targetExponent, totalExponent, Format.mantissaBits, Format.minExponent]
    omega
  rw [shiftToTargetExponent, shiftToExponent]
  simp only [hshift]
  rfl

theorem shiftRight_zero (em : ExtendedMantissa) : em >>> 0 = em := rfl

/-- Rounding to 53 bits. -/
theorem roundWithAccuracy_eq {m r : ℕ} {e : ℤ} (he : -1074 ≤ e)
    (hr : (ExtendedMantissa.mk m false false >>> (m.log2 - 52)).roundedMantissa = r)
    (hlow : 2 ^ 52 ≤ r) (hhigh : r < 2 ^ 53) :
    roundWithAccuracy .binary64 .positive m e .exact =
      .finite .positive r (e + (m.log2 - 52 : ℕ)) (by omega) := by
  have hlog : r.log2 = 52 := by
    rw [Nat.log2_eq_iff (by omega)]
    exact ⟨hlow, hhigh⟩
  simp only [roundWithAccuracy, shiftToTargetExponent_eq he, hr,
    shiftToTargetExponent_eq (m := r) (e := e + (m.log2 - 52 : ℕ)) (by omega), hlog]
  simp only [Nat.sub_self, shiftRight_zero, Nat.cast_zero, add_zero]
  exact dif_neg (by omega)

/-- A mantissa with one bit more than it may have is even. -/
theorem shiftToTargetExponent_carry {e : ℤ} (he : -1074 ≤ e) :
    shiftToTargetExponent .binary64 (2 ^ 53) e .exact = (⟨2 ^ 52, false, false⟩, e + 1) := by
  rw [shiftToTargetExponent_eq he, Nat.log2_two_pow]
  rfl

/-- A mantissa that is rounded up to one bit more is shifted by it. -/
theorem roundWithAccuracy_carry {m : ℕ} {e : ℤ} (he : -1074 ≤ e)
    (hr : (ExtendedMantissa.mk m false false >>> (m.log2 - 52)).roundedMantissa = 2 ^ 53) :
    roundWithAccuracy .binary64 .positive m e .exact =
      .finite .positive (2 ^ 52) (e + (m.log2 - 52 : ℕ) + 1) (by omega) := by
  have hcarry := shiftToTargetExponent_carry (e := e + (m.log2 - 52 : ℕ)) (by omega)
  simp only [roundWithAccuracy, shiftToTargetExponent_eq he, hr, hcarry]
  exact dif_neg (by omega)

/-- `n as f64`, for an integer that is not zero. -/
theorem toFloat_eq {n : UInt64} (hn : 0 < n.toNat) : n.toFloat =
    .ofModel (Float.Model.pack (roundWithAccuracy .binary64 .positive
      (n.toNat * 2 ^ (52 - n.toNat.log2)) (-(52 - n.toNat.log2 : ℕ)) .exact)) := by
  have hgt : compare (n.toNat : ℤ) 0 = .gt := by
    rw [compare_gt_iff_gt]
    omega
  have hlog : n.toNat.log2 < 64 := (Nat.log2_lt (by omega)).mpr n.toNat_lt
  have hshift : (0 - Format.targetExponent .binary64 (totalExponent n.toNat 0)).toNat =
      52 - n.toNat.log2 := by
    simp only [Format.targetExponent, totalExponent, Format.mantissaBits, Format.minExponent]
    omega
  show Float.ofModel (Float.Model.pack (UnpackedFloat.normalize _ _ _ _)) = _
  rw [UnpackedFloat.normalize, hgt]
  simp only [UnpackedFloat.round, decreaseExponent]
  rw [Int.toNat_natCast, hshift, Nat.shiftLeft_eq, zero_sub]


theorem toU64_of_magnitude {x : Float} {m : ℕ} {e : ℤ} (h : magnitude x = (false, some (m, e))) :
    (toU64 x).toNat = min (if 0 ≤ e then m * 2 ^ e.toNat else m / 2 ^ (-e).toNat) (2 ^ 64 - 1) := by
  rw [toU64, h]
  simp only [UInt64.toNat_ofNat']
  exact Nat.mod_eq_of_lt (by omega)

/-- Integers of 53 bits are their own binary64 numbers. -/
theorem toU64_toFloat_small {n : UInt64} (hn : n.toNat < 2 ^ 53) :
    (toU64 n.toFloat).toNat = n.toNat := by
  rcases Nat.eq_zero_or_pos n.toNat with h0 | hpos
  · have : n = 0 := UInt64.toNat_inj.mp h0
    rw [this]
    decide +kernel
  have hlog : n.toNat.log2 ≤ 52 := Nat.lt_succ_iff.mp ((Nat.log2_lt (by omega)).mpr hn)
  have hlow : 2 ^ 52 ≤ n.toNat * 2 ^ (52 - n.toNat.log2) := by
    calc 2 ^ 52 = 2 ^ n.toNat.log2 * 2 ^ (52 - n.toNat.log2) := by
          rw [← pow_add, Nat.add_sub_cancel' hlog]
      _ ≤ n.toNat * 2 ^ (52 - n.toNat.log2) :=
          Nat.mul_le_mul_right _ (Nat.log2_self_le (by omega))
  have hhigh : n.toNat * 2 ^ (52 - n.toNat.log2) < 2 ^ 53 := by
    calc n.toNat * 2 ^ (52 - n.toNat.log2)
        < 2 ^ (n.toNat.log2 + 1) * 2 ^ (52 - n.toNat.log2) :=
          Nat.mul_lt_mul_of_pos_right Nat.lt_log2_self (Nat.two_pow_pos _)
      _ = 2 ^ 53 := by
          rw [← pow_add]
          congr 1
          omega
  have hlog' : (n.toNat * 2 ^ (52 - n.toNat.log2)).log2 = 52 := by
    rw [Nat.log2_eq_iff (by omega)]
    exact ⟨hlow, hhigh⟩
  have hround := roundWithAccuracy_eq (m := n.toNat * 2 ^ (52 - n.toNat.log2))
    (e := -(52 - n.toNat.log2 : ℕ)) (by omega) (by rw [hlog']; rfl) hlow hhigh
  have hmagnitude := magnitude_pack (e := -(52 - n.toNat.log2 : ℕ)) (by omega) hlow hhigh
    (by omega) (by omega)
  rw [hlog', Nat.sub_self, Nat.cast_zero, add_zero] at hround
  rw [toFloat_eq hpos, hround, toU64_of_magnitude hmagnitude]
  have hvalue : (if 0 ≤ (-(52 - n.toNat.log2 : ℕ) : ℤ) then
      n.toNat * 2 ^ (52 - n.toNat.log2) * 2 ^ (-(52 - n.toNat.log2 : ℕ) : ℤ).toNat
      else n.toNat * 2 ^ (52 - n.toNat.log2) / 2 ^ (-(-(52 - n.toNat.log2 : ℕ) : ℤ)).toNat) =
        n.toNat := by
    split
    · have : 52 - n.toNat.log2 = 0 := by omega
      simp [this]
    · rw [neg_neg, Int.toNat_natCast, Nat.mul_div_cancel _ (Nat.two_pow_pos _)]
  rw [hvalue]
  omega

/-- A greater integer is rounded to 53 bits. -/
theorem toU64_toFloat_large {n : UInt64} {k : ℕ} (hk : n.toNat.log2 = 53 + k) {r : ℕ}
    (hr : (ExtendedMantissa.mk n.toNat false false >>> (k + 1)).roundedMantissa = r)
    (hlow : 2 ^ 52 ≤ r) (hhigh : r ≤ 2 ^ 53) :
    (toU64 n.toFloat).toNat = min (r * 2 ^ (k + 1)) (2 ^ 64 - 1) := by
  have hpos : 0 < n.toNat := by
    by_contra h0
    rw [Nat.eq_zero_of_not_pos h0] at hk
    simp at hk
    omega
  have hbits : n.toNat.log2 < 64 := (Nat.log2_lt (by omega)).mpr n.toNat_lt
  have hfloat := toFloat_eq hpos
  have h0 : 52 - n.toNat.log2 = 0 := by omega
  have h1 : n.toNat.log2 - 52 = k + 1 := by omega
  rw [h0, pow_zero, mul_one, Nat.cast_zero, neg_zero] at hfloat
  rw [← h1] at hr
  rcases Nat.lt_or_eq_of_le hhigh with hlt | heq
  · have hround := roundWithAccuracy_eq (e := 0) (by omega) hr hlow hlt
    rw [hfloat, hround, toU64_of_magnitude (magnitude_pack _ hlow hlt (by omega) (by omega)), h1,
      if_pos (by omega), zero_add, Int.toNat_natCast]
  · rw [heq] at hr
    have hround := roundWithAccuracy_carry (e := 0) (by omega) hr
    rw [hfloat, hround, toU64_of_magnitude
      (magnitude_pack _ (le_refl _) (by omega) (by omega) (by omega)), h1, if_pos (by omega), heq]
    have : (0 + ((k + 1 : ℕ) : ℤ) + 1).toNat = k + 1 + 1 := by omega
    rw [this, pow_succ 2 (k + 1), pow_succ 2 52, Nat.mul_assoc (2 ^ 52), Nat.mul_comm 2]

/-- **The last 1024 integers** are taken for one that is too great, and become the last one. The
others leave room for a little more. -/
theorem toU64_toFloat_add {n : UInt64} {c : ℕ} (hpos : 0 < c) (hc : c < 2048) :
    (toU64 n.toFloat).toNat + c < 2 ^ 64 ↔ n.toNat < 2 ^ 64 - 1024 := by
  rcases Nat.lt_or_ge n.toNat (2 ^ 53) with hsmall | hlarge
  · rw [toU64_toFloat_small hsmall]
    omega
  have hn : n.toNat < 2 ^ 64 := n.toNat_lt
  obtain ⟨k, hk⟩ : ∃ k, n.toNat.log2 = 53 + k :=
    Nat.exists_eq_add_of_le ((Nat.le_log2 (by omega)).mpr hlarge)
  have hbits : n.toNat.log2 < 64 := (Nat.log2_lt (by omega)).mpr hn
  obtain ⟨hfrom, hto⟩ := (Nat.log2_eq_iff (by omega)).mp hk
  have hpow : 2 ^ (53 + k) = 2 ^ 52 * 2 ^ (k + 1) := by
    rw [← pow_add]
    congr 1
    omega
  have hq : 2 ^ 52 ≤ n.toNat / 2 ^ (k + 1) ∧ n.toNat / 2 ^ (k + 1) < 2 ^ 53 := by
    rw [Nat.le_div_iff_mul_le (Nat.two_pow_pos _), Nat.div_lt_iff_lt_mul (Nat.two_pow_pos _),
      ← hpow]
    refine ⟨hfrom, ?_⟩
    calc n.toNat < 2 ^ (53 + k + 1) := hto
      _ = 2 ^ 53 * 2 ^ (k + 1) := by rw [← pow_add, Nat.add_assoc]
  have hr := roundedMantissa_shift n.toNat k
  have hbound : 2 ^ 52 ≤ (ExtendedMantissa.mk n.toNat false false >>> (k + 1)).roundedMantissa ∧
      (ExtendedMantissa.mk n.toNat false false >>> (k + 1)).roundedMantissa ≤ 2 ^ 53 := by
    rw [hr]
    split <;> [skip; split] <;> omega
  rw [toU64_toFloat_large hk rfl hbound.1 hbound.2]
  rcases Nat.lt_or_eq_of_le (show k ≤ 10 by omega) with hlt | rfl
  · have hle : 2 ^ (k + 1) ≤ 2 ^ 10 := Nat.pow_le_pow_right (by omega) (by omega)
    have hvalue : (ExtendedMantissa.mk n.toNat false false >>> (k + 1)).roundedMantissa *
        2 ^ (k + 1) ≤ 2 ^ 53 * 2 ^ 10 := Nat.mul_le_mul hbound.2 hle
    have htop : n.toNat < 2 ^ 53 * 2 ^ 10 := by
      calc n.toNat < 2 ^ (53 + k + 1) := hto
        _ ≤ 2 ^ 63 := Nat.pow_le_pow_right (by omega) (by omega)
    omega
  · rw [hr]
    split <;> [skip; split] <;> omega

end Foundations.Float64
