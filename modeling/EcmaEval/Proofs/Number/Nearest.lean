import EcmaEval.Integer.Arithmetic
import EcmaEval.Proofs.Number.Value

/-!
# The number of an integer

An integer is converted to a number that is nearest to it among all finite numbers, or to an
infinity if it is beyond all of them.  The bits that its binary numeral has behind the 53rd decide
which of the two neighbours that is.

Nothing more is needed to compare numbers with integers.  The order of two integers may be lost on
the way, but it is not turned around: if a number is on one side of the integer, it is not on the
other side of the number that the integer is converted to.

## Main definitions

* `Number.Tells`: what the bits that were shifted out tell of a rational number
* `Number.RoundsTo`: a number is nearest to a rational number

## Main results

* `Number.roundsTo_ofInteger`: the number of an integer is nearest to it
* `Number.RoundsTo.lt_iff`, `Number.RoundsTo.gt_iff`: how it compares with other numbers
-/

namespace EcmaEval.Number

open Float.Model (Format UnpackedFloat)
open Float.Model.UnpackedFloat

/-! ## Nearest integers -/

section Tells

variable {em : ExtendedMantissa} {z : ℚ}

/-- The mantissa is `z` rounded down, and the two bits behind it tell on which side of the middle
between the mantissa and the next one `z` is. -/
def Tells (em : ExtendedMantissa) (z : ℚ) : Prop :=
  match em.accuracy with
  | .exact => z = em.mantissa
  | .inexact .lt => em.mantissa < z ∧ z < em.mantissa + 1 / 2
  | .inexact .eq => z = em.mantissa + 1 / 2
  | .inexact .gt => em.mantissa + 1 / 2 < z ∧ z < em.mantissa + 1

/-- The lowest bit of the mantissa becomes the first one behind it. -/
theorem Tells.shiftRightOne (h : Tells em z) : Tells em.shiftRightOne (z / 2) := by
  obtain ⟨m, roundBit, stickyBit⟩ := em
  have hm : (m : ℚ) = 2 * (m / 2 : Nat) + (m % 2 : Nat) := by
    exact_mod_cast (Nat.div_add_mod m 2).symm
  rcases Nat.mod_two_eq_zero_or_one m with hbit | hbit <;> rw [hbit] at hm <;>
    cases roundBit <;> cases stickyBit <;>
    simp only [Tells, ExtendedMantissa.accuracy, ExtendedMantissa.shiftRightOne, hbit] at h ⊢ <;>
    grind

theorem Tells.shiftRight (h : Tells em z) (k : Nat) : Tells (em >>> k) (z / 2 ^ k) := by
  change Tells (Nat.repeat ExtendedMantissa.shiftRightOne k em) _
  induction k with
  | zero => rwa [pow_zero, div_one]
  | succ k ih =>
    rw [pow_succ, ← div_div]
    exact ih.shiftRightOne

/-- The mantissa is rounded to an integer that is at most one half away. -/
theorem Tells.abs_sub_le (h : Tells em z) : |(em.roundedMantissa : ℚ) - z| ≤ 1 / 2 := by
  have hodd : em.mantissa % 2 ≤ 1 := by omega
  have hodd : ((em.mantissa % 2 : Nat) : ℚ) ≤ 1 := by exact_mod_cast hodd
  have heven : (0 : ℚ) ≤ (em.mantissa % 2 : Nat) := Nat.cast_nonneg _
  unfold Tells at h
  rw [abs_le, ExtendedMantissa.roundedMantissa]
  split at h <;> next haccuracy =>
    rw [haccuracy, Accuracy.roundToNearestEven]
    push_cast at *
    constructor <;> linarith

end Tells

/-- No other integer is nearer to a number than one that is at most one half away. -/
theorem abs_sub_le_of_abs_sub_le_half {i : Int} {z : ℚ} (h : |(i : ℚ) - z| ≤ 1 / 2) (j : Int) :
    |(i : ℚ) - z| ≤ |(j : ℚ) - z| := by
  rcases eq_or_ne j i with rfl | hne
  · exact le_rfl
  · have hone : (1 : ℚ) ≤ |(j : ℚ) - i| := by
      exact_mod_cast Int.one_le_abs (sub_ne_zero.mpr hne)
    have htriangle : |(j : ℚ) - i| ≤ |(j : ℚ) - z| + |(i : ℚ) - z| := by
      rw [abs_sub_comm (i : ℚ) z]
      exact abs_sub_le _ _ _
    linarith

/-! ## Natural numbers with more bits than a significand -/

section Wide

variable {n k : Nat}

/-- The significand of a natural number that has `k` bits too many. -/
def wideSignificand (n k : Nat) : ExtendedMantissa :=
  (⟨n * 2 ^ 53, false, false⟩ : ExtendedMantissa) >>> (k + 53)

theorem wideSignificand_tells : Tells (wideSignificand n k) (n / 2 ^ k) := by
  have hexact : Tells ⟨n * 2 ^ 53, false, false⟩ (n * 2 ^ 53 : Nat) := rfl
  have hshift := hexact.shiftRight (k + 53)
  rwa [Nat.cast_mul, Nat.cast_pow, Nat.cast_two, pow_add, mul_div_mul_right _ _ (by norm_num)]
    at hshift

section Bounds

variable (hlog : n.log2 = k + 52)
include hlog

theorem wide_bounds : (2 ^ 52 * 2 ^ k : ℚ) ≤ n ∧ (n : ℚ) < 2 ^ 53 * 2 ^ k := by
  have hn : n ≠ 0 := by
    rintro rfl
    simp at hlog
  have hbounds := (Nat.log2_eq_iff hn).mp hlog
  rw [← pow_add, ← pow_add]
  constructor
  · exact_mod_cast (show 2 ^ (52 + k) ≤ n by rw [Nat.add_comm]; exact hbounds.1)
  · exact_mod_cast (show n < 2 ^ (53 + k) by rw [Nat.add_comm]; exact hbounds.2)

theorem roundedMantissa_bounds :
    2 ^ 52 ≤ (wideSignificand n k).roundedMantissa ∧
      (wideSignificand n k).roundedMantissa ≤ 2 ^ 53 := by
  have hpos : (0 : ℚ) < 2 ^ k := by positivity
  have hlow : (2 ^ 52 : ℚ) ≤ n / 2 ^ k := (le_div_iff₀ hpos).mpr (wide_bounds hlog).1
  have hhigh : (n / 2 ^ k : ℚ) < 2 ^ 53 := (div_lt_iff₀ hpos).mpr (wide_bounds hlog).2
  have hhalf := abs_le.mp (wideSignificand_tells (n := n) (k := k)).abs_sub_le
  have hfrom : (2 ^ 52 : ℚ) < (wideSignificand n k).roundedMantissa + 1 := by linarith
  have hto : ((wideSignificand n k).roundedMantissa : ℚ) < 2 ^ 53 + 1 := by linarith
  exact ⟨Nat.lt_succ_iff.mp (by exact_mod_cast hfrom), Nat.lt_succ_iff.mp (by exact_mod_cast hto)⟩

theorem shiftToTargetExponent_wide :
    shiftToTargetExponent Format.binary64 (n * 2 ^ 53) (-53) .exact =
      (wideSignificand n k, (k : Int)) := by
  have hn : n ≠ 0 := by
    rintro rfl
    simp at hlog
  have htarget : Format.binary64.targetExponent
      (Float.Model.totalExponent (n * 2 ^ 53) (-53)) = k := by
    simp only [Float.Model.totalExponent, log2_mul_pow hn, hlog, Format.targetExponent,
      Format.mantissaBits, Format.minExponent]
    norm_num
    omega
  have hshift : ((k : Int) - (-53)).toNat = k + 53 := by omega
  unfold shiftToTargetExponent
  simp only [htarget, shiftToExponent, hshift, ExtendedMantissa.ofMantissaAndAccuracy]
  exact Prod.ext rfl (show (-53 : Int) + (k + 53 : Nat) = k by omega)

/-- A significand that is rounded up to a power of two loses its last bit once more. -/
theorem roundWithAccuracy_wide :
    ∃ (m : Nat) (e : Int) (hm : 0 < m),
      roundWithAccuracy Format.binary64 .positive (n * 2 ^ 53) (-53) .exact =
          .finite .positive m e hm ∧
        2 ^ 52 ≤ m ∧ m < 2 ^ 53 ∧ k ≤ e ∧
        (m * 2 ^ e : ℚ) = (wideSignificand n k).roundedMantissa * 2 ^ k := by
  obtain ⟨hlow, hhigh⟩ := roundedMantissa_bounds hlog
  have hpos : 0 < (wideSignificand n k).roundedMantissa := by omega
  unfold roundWithAccuracy
  rw [shiftToTargetExponent_wide hlog]
  dsimp only
  -- The rounded significand is shifted once more, by nothing unless the carry has made it too long.
  rcases hhigh.lt_or_eq with hlt | heq
  · have hagain := shiftToTargetExponent_exact ((Nat.log2_eq_iff (by omega)).mpr ⟨hlow, hlt⟩)
      hpos (show -1074 ≤ (k : Int) by omega) 0
    rw [Nat.pow_zero, Nat.mul_one, Int.ofNat_zero, Int.sub_zero] at hagain
    rw [hagain]
    exact ⟨_, k, hpos, dif_neg hpos.ne', hlow, hlt, le_rfl, by norm_cast⟩
  · have hagain := shiftToTargetExponent_exact (m := 2 ^ 52) (by decide) (by decide)
      (show -1074 ≤ (k + 1 : Int) by omega) 1
    rw [heq]
    rw [show (2 ^ 52 * 2 ^ 1 : Nat) = 2 ^ 53 by rfl, Int.natCast_one, Int.add_sub_cancel] at hagain
    rw [hagain]
    have hfull : 0 < 2 ^ 52 := Nat.two_pow_pos 52
    refine ⟨2 ^ 52, k + 1, hfull, dif_neg hfull.ne', le_rfl, by decide, by omega, ?_⟩
    rw [zpow_add_one₀ (by norm_num), zpow_natCast]
    push_cast
    ring

end Bounds

end Wide

/-! ## Finite numbers -/

section Grid

variable {y : Float} {q : ℚ} (hy : value? y = some q)
include hy

theorem le_greatest : q ≤ (2 ^ 53 - 1) * 2 ^ (971 : Int) := by
  obtain ⟨s, m, e, hlt, hhigh, rfl⟩ := exists_of_value? hy
  have hlt : (m : ℚ) + 1 ≤ 2 ^ 53 := by exact_mod_cast hlt
  have hnonneg : (0 : ℚ) ≤ m * 2 ^ e := by positivity
  have hpow : (2 ^ e : ℚ) ≤ 2 ^ (971 : Int) := zpow_le_zpow_right₀ (by norm_num) hhigh
  have hscaled : (m * 2 ^ e : ℚ) ≤ (2 ^ 53 - 1) * 2 ^ (971 : Int) :=
    mul_le_mul (by linarith) hpow (by positivity) (by norm_num)
  cases s with
  | positive => rwa [factor, one_mul]
  | negative =>
    rw [factor, neg_one_mul]
    exact (neg_nonpos.mpr hnonneg).trans (hnonneg.trans hscaled)

/-- A finite number is an integer times a power of two, or it is less than all significands of full
width times that power. -/
theorem exists_eq_mul_or_lt (k : Nat) : (∃ j : Int, q = j * 2 ^ k) ∨ q < 2 ^ 52 * 2 ^ k := by
  obtain ⟨s, m, e, hlt, -, rfl⟩ := exists_of_value? hy
  by_cases hexponent : (k : Int) ≤ e
  · obtain ⟨d, rfl⟩ : ∃ d : Nat, e = d + k := ⟨(e - k).toNat, by omega⟩
    rw [zpow_add₀ (by norm_num), zpow_natCast, zpow_natCast]
    cases s with
    | positive => exact .inl ⟨m * 2 ^ d, by simp [factor, mul_assoc]⟩
    | negative => exact .inl ⟨-(m * 2 ^ d), by simp [factor, mul_assoc]⟩
  · have hscaled : (m * 2 ^ e : ℚ) < (2 ^ 52 : Nat) * 2 ^ (k : Int) :=
      scaled_lt_of_exponent_lt hlt le_rfl (by omega)
    have hnonneg : (0 : ℚ) ≤ m * 2 ^ e := by positivity
    rw [zpow_natCast] at hscaled
    push_cast at hscaled
    cases s with
    | positive => exact .inr (by rwa [factor, one_mul])
    | negative =>
      rw [factor, neg_one_mul]
      exact .inr (by linarith)

end Grid

/-! ## The nearest number -/

/-- The number is finite and no other finite number is nearer, or it is the infinity that is on the
other side of all finite numbers. -/
inductive RoundsTo (q : ℚ) (x : Float) : Prop where
  | finite {r : ℚ} (hx : value? x = some r)
      (nearest : ∀ {y p}, value? y = some p → |r - q| ≤ |p - q|)
  | above (hx : x.toModel.unpack = .infinity .positive)
      (beyond : ∀ {y p}, value? y = some p → p < q)
  | below (hx : x.toModel.unpack = .infinity .negative)
      (beyond : ∀ {y p}, value? y = some p → q < p)

variable {x y : Float} {q p : ℚ} {n k : Nat}

theorem value?_neg_eq_some (h : value? x = some p) : value? (-x) = some (-p) := by
  rw [value?_neg, h, Option.map_some]

theorem RoundsTo.neg (h : RoundsTo q x) : RoundsTo (-q) (-x) := by
  cases h with
  | finite hx nearest =>
    refine .finite (value?_neg_eq_some hx) fun hy => ?_
    have hle := nearest (value?_neg_eq_some hy)
    rwa [neg_sub_neg, abs_sub_comm, ← abs_neg (_ - -q), neg_sub, neg_sub_comm]
  | above hx beyond =>
    refine .below (by rw [unpack_neg, hx]; rfl) fun hy => ?_
    exact neg_lt.mp (beyond (value?_neg_eq_some hy))
  | below hx beyond =>
    refine .above (by rw [unpack_neg, hx]; rfl) fun hy => ?_
    exact lt_neg.mp (beyond (value?_neg_eq_some hy))

/-- A natural number that fits a significand is converted without loss. -/
theorem value?_ofNat (hn : 0 < n) (hlt : n < 2 ^ 53) : value? (Float.ofNat n) = some (n : ℚ) := by
  have hlog_n : n.log2 ≤ 52 := Nat.lt_succ_iff.mp ((Nat.log2_lt hn.ne').mpr hlt)
  obtain ⟨k, hk⟩ : ∃ k, n.log2 + k = 52 := ⟨52 - n.log2, by omega⟩
  have hlog : (n * 2 ^ k).log2 = 52 := by rw [log2_mul_pow hn.ne', hk]
  have hpos : 0 < n * 2 ^ k := Nat.mul_pos hn (Nat.two_pow_pos k)
  have hbounds := (Nat.log2_eq_iff hpos.ne').mp hlog
  have hunpack : (Float.ofModel (Float.Model.pack
      (.finite .positive (n * 2 ^ k) (-k) hpos))).toModel.unpack = _ :=
    unpack_pack_normal hbounds.1 hbounds.2 (by omega) (by omega)
  rw [ofNat_eq_of_unpack hn hunpack hlog, ← exactValue?_unpack, hunpack, exactValue?, factor,
    one_mul, zpow_neg, zpow_natCast, Nat.cast_mul, Nat.cast_pow, Nat.cast_two,
    mul_inv_cancel_right₀ (by positivity)]

theorem abs_scaled_sub (q : ℚ) : |q * 2 ^ k - n| = |q - n / 2 ^ k| * 2 ^ k := by
  have hpos : (0 : ℚ) < 2 ^ k := by positivity
  rw [← abs_of_pos hpos, ← abs_mul, abs_of_pos hpos, sub_mul, div_mul_cancel₀ _ hpos.ne']

/-- A natural number that does not fit a significand is rounded once. -/
theorem ofScientific_wide (hwide : 2 ^ 53 ≤ n) :
    Float.ofScientific n false 0 = Float.ofModel (Float.Model.pack
      (roundWithAccuracy Format.binary64 .positive (n * 2 ^ 53) (-53) .exact)) := by
  have hn : n ≠ 0 := by omega
  have hmade : Float.ofScientific n false 0 =
      Float.ofModel (Float.Model.pack (UnpackedFloat.ofScientific Format.binary64 n 0)) := by
    unfold Float.ofScientific
    exact dif_neg (by omega)
  have hlow : ¬ (0 : Int) < -(2 ^ Format.binary64.exponentBits + n.log2) := by
    have hpow : (0 : Int) ≤ 2 ^ Format.binary64.exponentBits := by positivity
    omega
  rw [hmade, UnpackedFloat.ofScientific, dif_neg hn, if_neg (by decide), if_neg hlow, if_pos le_rfl]
  unfold UnpackedFloat.mul
  dsimp only
  rw [Nat.shiftLeft_eq, Int.toNat_zero, pow_zero, Nat.mul_one, Int.add_zero]
  rfl

section Nearest

variable (hlog : n.log2 = k + 52)
include hlog

/-- The rounded significand is the nearest one, and the significands of smaller numbers are no
nearer. -/
theorem abs_roundedMantissa_sub_le (hy : value? y = some p) :
    |(wideSignificand n k).roundedMantissa * 2 ^ k - (n : ℚ)| ≤ |p - n| := by
  have hinteger (j : Int) :
      |(wideSignificand n k).roundedMantissa * 2 ^ k - (n : ℚ)| ≤ |j * 2 ^ k - (n : ℚ)| := by
    rw [abs_scaled_sub, abs_scaled_sub]
    refine mul_le_mul_of_nonneg_right ?_ (by positivity)
    exact_mod_cast abs_sub_le_of_abs_sub_le_half
      (i := (wideSignificand n k).roundedMantissa) wideSignificand_tells.abs_sub_le j
  -- A smaller number is farther away than the least significand of full width.
  obtain ⟨j, rfl⟩ | hless := exists_eq_mul_or_lt hy k
  · exact hinteger j
  · have hlow := (wide_bounds hlog).1
    refine (hinteger (2 ^ 52)).trans ?_
    push_cast
    rw [abs_of_nonpos (by linarith), abs_of_neg (by linarith)]
    linarith

/-- A natural number that is rounded to no number in range is itself beyond the greatest one. -/
theorem greatest_lt {m : Nat} {e : Int} (hlow : 2 ^ 52 ≤ m) (hrange : 972 ≤ e)
    (hvalue : (m * 2 ^ e : ℚ) = (wideSignificand n k).roundedMantissa * 2 ^ k) :
    (2 ^ 53 - 1) * 2 ^ (971 : Int) < (n : ℚ) := by
  obtain ⟨hbelow, -⟩ := wide_bounds hlog
  have hhalf : |(wideSignificand n k).roundedMantissa * 2 ^ k - (n : ℚ)| ≤ 1 / 2 * 2 ^ k := by
    rw [abs_scaled_sub]
    exact mul_le_mul_of_nonneg_right wideSignificand_tells.abs_sub_le (by positivity)
  have habove := (abs_le.mp hhalf).2
  have hrounded : (2 ^ 52 * 2 ^ (972 : Int) : ℚ) ≤ m * 2 ^ e :=
    mul_le_mul (by exact_mod_cast hlow) (zpow_le_zpow_right₀ (by norm_num) hrange)
      (by positivity) (by positivity)
  have hstep : (2 ^ (972 : Int) : ℚ) = 2 ^ (971 : Int) * 2 := zpow_add_one₀ (by norm_num) 971
  have hunit : (2 ^ k : ℚ) ≤ 2 ^ (971 : Int) ∨ (2 ^ (972 : Int) : ℚ) ≤ 2 ^ k := by
    rw [← zpow_natCast]
    refine (le_or_gt (k : Int) 971).imp ?_ fun hlt => ?_
    · exact zpow_le_zpow_right₀ (by norm_num)
    · exact zpow_le_zpow_right₀ (by norm_num) (by omega)
  -- The powers are only compared, and not computed.
  have hpos : (0 : ℚ) < 2 ^ (971 : Int) := by positivity
  generalize (2 ^ (971 : Int) : ℚ) = g, (2 ^ (972 : Int) : ℚ) = g' at *
  rcases hunit with hunit | hunit <;> linarith

theorem roundsTo_ofScientific (hwide : 2 ^ 53 ≤ n) : RoundsTo n (Float.ofScientific n false 0) := by
  rw [ofScientific_wide hwide]
  obtain ⟨m, e, hm, hround, hlow, hhigh, hke, hvalue⟩ := roundWithAccuracy_wide hlog
  rw [hround]
  by_cases hrange : e ≤ 971
  · have hunpack :
        (Float.ofModel (Float.Model.pack (.finite .positive m e hm))).toModel.unpack = _ :=
      unpack_pack_normal hlow hhigh (by omega) hrange
    refine .finite (r := m * 2 ^ e) ?_ fun hy => ?_
    · rw [← exactValue?_unpack, hunpack, exactValue?, factor, one_mul]
    · rw [hvalue]
      exact abs_roundedMantissa_sub_le hlog hy
  · refine .above (unpack_pack_overflow (by omega)) fun {y p} hy => ?_
    exact (le_greatest hy).trans_lt (greatest_lt hlog hlow (by omega) hvalue)

end Nearest

/-- A natural number whose order of magnitude is found to be out of range is beyond all numbers. -/
theorem greatest_lt_of_log2 (hlarge : 310 < (n.log2 : Int) * 30103 / 100000 + 0) :
    (2 ^ 53 - 1) * 2 ^ (971 : Int) < (n : ℚ) := by
  have hlog : 1024 ≤ n.log2 := by omega
  have hn : n ≠ 0 := by
    rintro rfl
    simp at hlog
  have hpow : (2 ^ n.log2 : ℚ) ≤ n := by exact_mod_cast Nat.log2_self_le hn
  have hsplit : (2 ^ 53 * 2 ^ (971 : Int) : ℚ) = 2 ^ 1024 := by
    rw [← zpow_natCast, ← zpow_natCast, ← zpow_add₀ (by norm_num)]
    rfl
  calc ((2 ^ 53 - 1) * 2 ^ (971 : Int) : ℚ) < 2 ^ 53 * 2 ^ (971 : Int) := by
        gcongr
        norm_num
    _ = 2 ^ 1024 := hsplit
    _ ≤ 2 ^ n.log2 := pow_le_pow_right₀ (by norm_num) hlog
    _ ≤ n := hpow

theorem roundsTo_ofDecimal (n : Nat) : RoundsTo n (ofDecimal n 0) := by
  unfold ofDecimal
  rcases Nat.eq_zero_or_pos n with rfl | hn
  · have hzero : value? 0.0 = some 0 := by rw [← exactValue?_unpack]; rfl
    exact .finite hzero fun _ => by simp
  · rw [if_neg (by simpa using hn.ne')]
    dsimp only
    split
    · next hlarge =>
      refine .above rfl fun {y p} hy => ?_
      exact (le_greatest hy).trans_lt (greatest_lt_of_log2 hlarge)
    · rw [if_neg (by omega)]
      change RoundsTo n (Float.ofScientific n false 0)
      -- Only a number that fits a significand is converted by way of a machine word.
      rcases Nat.lt_or_ge n (2 ^ 53) with hlt | hwide
      · exact .finite (value?_ofNat hn hlt) fun _ => by simp
      · have hlog : 53 ≤ n.log2 := (Nat.le_log2 hn.ne').mpr hwide
        exact roundsTo_ofScientific (show n.log2 = n.log2 - 52 + 52 by omega) hwide

/-- **The number of an integer is nearest to it.** -/
theorem roundsTo_ofInteger (i : Int) : RoundsTo i (ofInteger i) := by
  have hround := roundsTo_ofDecimal i.natAbs
  unfold ofInteger
  dsimp only
  split
  · next hneg =>
    have hcast : (i : ℚ) = -(i.natAbs : ℚ) := by
      rw [Nat.cast_natAbs, abs_of_neg hneg, Int.cast_neg, neg_neg]
    rw [hcast]
    exact hround.neg
  · next hnonneg =>
    have hcast : (i : ℚ) = (i.natAbs : ℚ) := by
      rw [Nat.cast_natAbs, abs_of_nonneg (Int.not_lt.mp hnonneg)]
    rwa [hcast]

/-! ## The order after rounding -/

section Order

/-- What is nearest to `q` is not moved to the other side of what is no nearer. -/
theorem lt_iff_of_nearest {r q v : ℚ} (h : |r - q| ≤ |v - q|) : r < v ↔ q < v ∧ ¬ r = v := by
  constructor
  · intro hlt
    refine ⟨lt_of_not_ge fun hge => ?_, hlt.ne⟩
    rw [abs_of_nonpos (by linarith), abs_of_nonpos (by linarith)] at h
    linarith
  · rintro ⟨hlt, hne⟩
    refine lt_of_le_of_ne (le_of_not_gt fun hgt => ?_) hne
    rw [abs_of_nonneg (by linarith), abs_of_nonneg (by linarith)] at h
    linarith

/-- An infinity is on its side of all finite numbers. -/
theorem compare_infinity (hx : value? x = some p) :
    ((UnpackedFloat.infinity .positive).compare x.toModel.unpack = some .gt ∧
        x.toModel.unpack.compare (.infinity .positive) = some .lt) ∧
      (UnpackedFloat.infinity .negative).compare x.toModel.unpack = some .lt ∧
        x.toModel.unpack.compare (.infinity .negative) = some .gt := by
  rw [← exactValue?_unpack] at hx
  generalize x.toModel.unpack = u at hx ⊢
  cases u with
  | notANumber | infinity => cases hx
  | zero => exact ⟨⟨rfl, rfl⟩, rfl, rfl⟩
  | finite s => cases s <;> exact ⟨⟨rfl, rfl⟩, rfl, rfl⟩

theorem isNaN_eq_false_of_value? (hx : value? x = some p) : x.isNaN = false := by
  rw [← exactValue?_unpack] at hx
  change x.toModel.unpack.isNaN = false
  cases hunpack : x.toModel.unpack with
  | notANumber => rw [hunpack] at hx; cases hx
  | _ => rfl

variable {v : ℚ} (hy : RoundsTo q y)
include hy

theorem RoundsTo.isNaN_eq_false : y.isNaN = false := by
  cases hy with
  | finite hr => exact isNaN_eq_false_of_value? hr
  | above hunpack | below hunpack =>
    change y.toModel.unpack.isNaN = false
    rw [hunpack]
    rfl

variable (hx : value? x = some v)
include hx

/-- A number is above the rounded one if it is above the one that was rounded, unless this is rounded
to it. -/
theorem RoundsTo.lt_iff : y < x ↔ q < v ∧ (y == x) = false := by
  rw [Bool.eq_false_iff, ne_eq]
  cases hy with
  | finite hr nearest =>
    rw [lt_iff_of_value? hr hx, beq_iff_of_value? hr hx]
    exact lt_iff_of_nearest (nearest hx)
  | above hunpack beyond =>
    have hcompare := (compare_infinity hx).1.1
    rw [lt_iff_compare, hunpack, hcompare]
    exact ⟨nofun, fun h => absurd h.1 (beyond hx).not_gt⟩
  | below hunpack beyond =>
    have hcompare := (compare_infinity hx).2.1
    rw [lt_iff_compare, beq_iff_compare, hunpack, hcompare]
    exact ⟨fun _ => ⟨beyond hx, nofun⟩, fun _ => rfl⟩

theorem RoundsTo.gt_iff : x < y ↔ v < q ∧ (y == x) = false := by
  rw [Bool.eq_false_iff, ne_eq]
  cases hy with
  | @finite r hr nearest =>
    have hnearest : |-r - -q| ≤ |-v - -q| := by
      rw [neg_sub_neg, neg_sub_neg, abs_sub_comm, abs_sub_comm q]
      exact nearest hx
    rw [lt_iff_of_value? hx hr, beq_iff_of_value? hr hx]
    simpa only [neg_lt_neg_iff, neg_inj] using lt_iff_of_nearest hnearest
  | above hunpack beyond =>
    obtain ⟨hgt, hlt⟩ := (compare_infinity hx).1
    rw [lt_iff_compare, beq_iff_compare, hunpack, hgt, hlt]
    exact ⟨fun _ => ⟨beyond hx, nofun⟩, fun _ => rfl⟩
  | below hunpack beyond =>
    have hcompare := (compare_infinity hx).2.2
    rw [lt_iff_compare, hunpack, hcompare]
    exact ⟨nofun, fun h => absurd h.1 (beyond hx).not_gt⟩

end Order

end EcmaEval.Number
