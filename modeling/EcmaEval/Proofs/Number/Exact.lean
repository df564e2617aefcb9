import Mathlib
import EcmaEval.Number.Binary

/-!
# Numbers that are natural numbers

A number that has a natural number below `2 ^ 53` as its exact value is the number that is made from
that natural number; only the sign of a zero is lost on the way.

## Main results

* `Number.unpack_of_parts?`: the parts of a number are the ones that arithmetic computes with
* `Number.ofNat_eq_of_toInt?`, `Number.ofNat_beq_of_toInt?`: the number of an exact value
-/

namespace EcmaEval.Number

open Float.Model (Format UnpackedFloat)
open Float.Model.UnpackedFloat

/-! ## Arithmetic that rounds nothing off -/

section Exact

variable {m k n : Nat} {e : Int} {s : Sign}

theorem shiftRight_exact (m k : Nat) :
    (⟨m * 2 ^ k, false, false⟩ : ExtendedMantissa) >>> k = ⟨m, false, false⟩ := by
  change Nat.repeat ExtendedMantissa.shiftRightOne k _ = _
  induction k generalizing m with
  | zero => rw [Nat.pow_zero, Nat.mul_one]; rfl
  | succ k ih =>
    -- The last step halves an even significand, so that no bit falls off.
    have hpow : m * 2 ^ (k + 1) = m * 2 * 2 ^ k := by rw [Nat.pow_succ]; ring
    rw [Nat.repeat, hpow, ih (m * 2), ExtendedMantissa.shiftRightOne]
    simp

theorem log2_mul_pow (hm : m ≠ 0) (k : Nat) : (m * 2 ^ k).log2 = m.log2 + k := by
  refine (Nat.log2_eq_iff (by positivity)).mpr ⟨?_, ?_⟩
  · rw [Nat.pow_add]
    exact Nat.mul_le_mul_right _ (Nat.log2_self_le hm)
  · rw [show m.log2 + k + 1 = m.log2 + 1 + k by omega, Nat.pow_add]
    exact Nat.mul_lt_mul_of_pos_right Nat.lt_log2_self (by positivity)

/-- A significand of full width with zeros behind it only loses the zeros. -/
theorem shiftToTargetExponent_exact (hlog : m.log2 = 52) (hm : 0 < m) (he : -1074 ≤ e) (k : Nat) :
    shiftToTargetExponent Format.binary64 (m * 2 ^ k) (e - k) .exact =
      (⟨m, false, false⟩, e) := by
  have htarget : Format.binary64.targetExponent
      (Float.Model.totalExponent (m * 2 ^ k) (e - k)) = e := by
    simp only [Float.Model.totalExponent, log2_mul_pow hm.ne', hlog, Format.targetExponent,
      Format.mantissaBits, Format.minExponent]
    norm_num
    omega
  have hshift : (e - (e - (k : Int))).toNat = k := by omega
  unfold shiftToTargetExponent
  simp only [htarget, shiftToExponent, hshift, ExtendedMantissa.ofMantissaAndAccuracy,
    shiftRight_exact, Int.sub_add_cancel]

theorem roundWithAccuracy_exact (hlog : m.log2 = 52) (hm : 0 < m) (he : -1074 ≤ e) (k : Nat) :
    roundWithAccuracy Format.binary64 s (m * 2 ^ k) (e - k) .exact = .finite s m e hm := by
  have hround : (⟨m, false, false⟩ : ExtendedMantissa).roundedMantissa = m := rfl
  have hagain := shiftToTargetExponent_exact hlog hm he 0
  rw [Nat.pow_zero, Nat.mul_one, Int.ofNat_zero, Int.sub_zero] at hagain
  unfold roundWithAccuracy
  rw [shiftToTargetExponent_exact hlog hm he k]
  dsimp only
  rw [hround, hagain]
  exact dif_neg hm.ne'

/-- The parts of a natural number, whose significand is filled up with `k` zeros. -/
theorem unpackedOfNat_eq (hlog : (n * 2 ^ k).log2 = 52) (hn : 0 < n) :
    UnpackedFloat.ofNat Format.binary64 n =
      .finite .positive (n * 2 ^ k) (-k) (Nat.mul_pos hn (Nat.two_pow_pos k)) := by
  have hlog_n : n.log2 + k = 52 := by rw [← hlog, log2_mul_pow hn.ne']
  have htarget : Format.binary64.targetExponent (Float.Model.totalExponent n 0) = -(k : Int) := by
    simp only [Float.Model.totalExponent, Format.targetExponent, Format.mantissaBits,
      Format.minExponent]
    norm_num
    omega
  have hround := roundWithAccuracy_exact (s := .positive) (e := -(k : Int)) hlog
    (Nat.mul_pos hn (Nat.two_pow_pos k)) (by omega) 0
  rw [Nat.pow_zero, Nat.mul_one, Int.ofNat_zero, Int.sub_zero] at hround
  have hcompare : compare (n : Int) 0 = .gt := by rw [compare_gt_iff_gt]; omega
  unfold UnpackedFloat.ofNat UnpackedFloat.ofInt UnpackedFloat.normalize
  rw [hcompare]
  dsimp only
  unfold UnpackedFloat.round decreaseExponent
  dsimp only
  rw [Int.toNat_natCast, htarget, Int.zero_sub, Int.neg_neg, Int.toNat_natCast, Nat.shiftLeft_eq,
    Int.zero_sub, hround]

end Exact

/-! ## Numbers by their parts -/

variable {x : Float} {n : Nat}

/-- A number whose parts are packed again. -/
theorem pack_unpack_toModel (x : Float) : Float.Model.pack x.toModel.unpack = x.toModel := by
  obtain ⟨⟨bits, hbits⟩⟩ := x
  unfold Float.Model.pack Float.Model.unpack
  simp only [pack_unpack_of_valid hbits]

/-- One times a number is the number. -/
theorem mul_one_of_unpack {m : Nat} {e : Int} {s : Sign} {hm : 0 < m}
    (hunpack : x.toModel.unpack = .finite s m e hm) (hlog : m.log2 = 52) (he : -1074 ≤ e) :
    x * Float.exactlyRepresentablePowersOfTen[0] = x := by
  have hone : Float.exactlyRepresentablePowersOfTen[0].toModel.unpack =
      .finite .positive (2 ^ 52) (-52) (by decide) := rfl
  have hsign : s * .positive = s := by cases s <;> rfl
  change Float.ofModel (Float.Model.pack (UnpackedFloat.mul Format.binary64 x.toModel.unpack
    Float.exactlyRepresentablePowersOfTen[0].toModel.unpack)) = x
  rw [hone, hunpack]
  unfold UnpackedFloat.mul
  dsimp only
  rw [hsign, ← Int.sub_eq_add_neg, show (52 : Int) = (52 : Nat) by rfl,
    roundWithAccuracy_exact hlog hm he 52, ← hunpack, pack_unpack_toModel]

/-- The number of a natural number. -/
theorem ofNat_eq_of_unpack {k : Nat} (hn : 0 < n)
    (hunpack : x.toModel.unpack =
      .finite .positive (n * 2 ^ k) (-k) (Nat.mul_pos hn (Nat.two_pow_pos k)))
    (hlog : (n * 2 ^ k).log2 = 52) : Float.ofNat n = x := by
  have hk : n.log2 + k = 52 := by rw [← hlog, log2_mul_pow hn.ne']
  have hlt : n < 2 ^ 53 := (Nat.log2_lt hn.ne').mp (by omega)
  -- The conversion packs the parts of `x`, and the product with one does so again.
  have hconvert : n.toUInt64.toFloat = x := by
    have hword : n.toUInt64.toNat = n := by
      rw [Nat.toUInt64, UInt64.toNat_ofNat', Nat.mod_eq_of_lt (by omega)]
    change Float.ofModel (Float.Model.pack
      (UnpackedFloat.ofNat Format.binary64 n.toUInt64.toNat)) = x
    rw [hword, unpackedOfNat_eq hlog hn, ← hunpack, pack_unpack_toModel]
  have hmade : Float.ofNat n =
      n.toUInt64.toFloat * Float.exactlyRepresentablePowersOfTen[0] := by
    change Float.ofScientific n false 0 = _
    unfold Float.ofScientific
    rw [dif_pos ⟨hlt, Nat.zero_le _⟩]
    rfl
  rw [hmade, hconvert, mul_one_of_unpack hunpack hlog (by omega)]

/-- The sign of a number whose sign bit is known. -/
def signOf (negative : Bool) : Sign := if negative then .negative else .positive

section Bits

variable (bits : UInt64)

theorem toNat_unpackMantissa :
    (@unpackMantissa Format.binary64 bits.toBitVec).toNat = bits.toNat % Nat.pow 2 52 := by
  rw [unpackMantissa_def]
  simp

theorem toNat_unpackExponent :
    (@unpackExponent Format.binary64 bits.toBitVec).toNat =
      bits.toNat / Nat.pow 2 52 % Nat.pow 2 11 := by
  rw [unpackExponent_def]
  simp [Nat.shiftRight_eq_div_pow]

theorem ofBitVec_unpackSign :
    Sign.ofBitVec (@unpackSign Format.binary64 bits.toBitVec) =
      signOf (bits.toNat / Nat.pow 2 63 == 1) := by
  have hlt : bits.toNat < 2 ^ 64 := bits.toNat_lt
  have hbit : (@unpackSign Format.binary64 bits.toBitVec).toNat =
      bits.toNat / Nat.pow 2 63 := by
    rw [unpackSign_def]
    simp [Nat.shiftRight_eq_div_pow]
    omega
  have hzero : @unpackSign Format.binary64 bits.toBitVec = 0#1 ↔
      bits.toNat / Nat.pow 2 63 = 0 := by
    rw [← hbit, BitVec.toNat_eq]
    rfl
  unfold Sign.ofBitVec signOf
  simp only [hzero, beq_iff_eq]
  by_cases hnegative : bits.toNat / Nat.pow 2 63 = 1
  · rw [if_neg (by omega), if_pos hnegative]
  · have hsmall : bits.toNat / Nat.pow 2 63 < 2 := Nat.div_lt_of_lt_mul hlt
    rw [if_pos (by omega), if_neg hnegative]

end Bits

theorem finite_congr {s : Sign} {m m' : Nat} {e e' : Int} {hm : 0 < m} {hm' : 0 < m'}
    (hsignificand : m = m') (hexponent : e = e') :
    UnpackedFloat.finite s m e hm = .finite s m' e' hm' := by
  subst hsignificand hexponent
  rfl

/-- The parts that are read from the bits of a number are the ones that its arithmetic uses. -/
theorem unpack_of_parts? {b : Binary} (h : parts? x = some b) :
    x.toModel.unpack = if hpos : 0 < b.significand
      then .finite (signOf b.negative) b.significand b.exponent hpos
      else .zero (signOf b.negative) := by
  obtain ⟨⟨bits, hbits⟩⟩ := x
  have htoBits : (Float.ofModel ⟨bits, hbits⟩).toBits = bits := rfl
  unfold parts? at h
  rw [htoBits] at h
  simp only [← toNat_unpackMantissa, ← toNat_unpackExponent, beq_iff_eq] at h
  unfold Float.Model.unpack UnpackedFloat.unpack
  simp only [ofBitVec_unpackSign]
  split at h
  · cases h
  · next hfinite =>
    rw [if_neg fun hmax => hfinite (congrArg BitVec.toNat hmax)]
    split at h
    · next hzero =>
      cases h
      rw [if_pos (BitVec.eq_of_toNat_eq hzero)]
      dsimp only
      by_cases hfraction : @unpackMantissa Format.binary64 bits.toBitVec = 0#52
      · rw [dif_pos hfraction, dif_neg (by rw [hfraction]; decide)]
      · have hpos : 0 < (@unpackMantissa Format.binary64 bits.toBitVec).toNat :=
          Nat.pos_of_ne_zero fun h => hfraction (BitVec.eq_of_toNat_eq h)
        rw [dif_neg hfraction, dif_pos hpos]
        exact finite_congr rfl (by rw [hzero]; rfl)
    · next hnormal =>
      cases h
      have hne : @unpackExponent Format.binary64 bits.toBitVec ≠ 0#11 :=
        fun h => hnormal (congrArg BitVec.toNat h)
      rw [if_neg hne, dif_pos (Nat.add_pos_right _ (by decide))]
      refine finite_congr ?_ ?_
      · have hlt := (@unpackMantissa Format.binary64 bits.toBitVec).isLt
        rw [BitVec.toNat_append, ← Nat.shiftLeft_add_eq_or_of_lt hlt, Nat.add_comm]
        rfl
      · rfl

/-- The significand has no more bits than it has room for, and all of them unless the exponent is
the least one. -/
theorem significand_bounds {b : Binary} (h : parts? x = some b) :
    b.significand < 2 ^ 53 ∧ (2 ^ 52 ≤ b.significand ∨ b.exponent = -1074) := by
  have hlt : x.toBits.toNat % Nat.pow 2 52 < Nat.pow 2 52 := Nat.mod_lt _ (by decide)
  have hpow : Nat.pow 2 52 = 2 ^ 52 := rfl
  unfold parts? at h
  dsimp only at h
  split at h
  · cases h
  · split at h <;> cases h <;> dsimp only
    · exact ⟨by omega, .inr rfl⟩
    · exact ⟨by omega, .inl (by omega)⟩

/-- The parts of a number whose exact value is a natural one. -/
theorem exists_parts_of_toInt? (h : toInt? x = some (n : Int)) :
    ∃ b, parts? x = some b ∧ b.isIntegral = true ∧ b.magnitude = n ∧
      (0 < n → b.negative = false) := by
  unfold toInt? at h
  cases hparts : parts? x with
  | none => rw [hparts] at h; cases h
  | some b =>
    rw [hparts] at h
    dsimp only at h
    split at h
    · next hintegral =>
      have hvalue : b.truncated = n := Option.some.inj h
      unfold Binary.truncated at hvalue
      split at hvalue
      · exact ⟨b, rfl, hintegral, by omega, by omega⟩
      · next hpositive => exact ⟨b, rfl, hintegral, by omega, fun _ => by simpa using hpositive⟩
    · cases h

/-- The significand of a natural number is the number, filled up with zeros. -/
theorem significand_eq_of_isIntegral {b : Binary} (hintegral : b.isIntegral = true)
    (hexponent : b.exponent < 0) :
    b.significand = b.magnitude * 2 ^ (-b.exponent).toNat := by
  have hneg : ¬ 0 ≤ b.exponent := by omega
  have hpow : Nat.pow 2 (-b.exponent).toNat = 2 ^ (-b.exponent).toNat := rfl
  have hrest : b.significand % 2 ^ (-b.exponent).toNat = 0 := by
    simpa [Binary.isIntegral, hneg] using hintegral
  rw [Binary.magnitude, if_neg hneg, hpow, Nat.div_mul_cancel (Nat.dvd_of_mod_eq_zero hrest)]

theorem magnitude_of_nonneg {b : Binary} (hexponent : 0 ≤ b.exponent) :
    b.magnitude = b.significand * 2 ^ b.exponent.toNat := by
  rw [Binary.magnitude, if_pos hexponent]
  rfl

theorem significand_eq_zero {b : Binary} (hintegral : b.isIntegral = true)
    (hzero : b.magnitude = 0) : b.significand = 0 := by
  by_cases hexponent : b.exponent < 0
  · rw [significand_eq_of_isIntegral hintegral hexponent, hzero, Nat.zero_mul]
  · rw [magnitude_of_nonneg (by omega)] at hzero
    exact (Nat.mul_eq_zero.mp hzero).resolve_right (Nat.two_pow_pos _).ne'

/-- The significand of a natural number that is not zero has its full width. -/
theorem exists_filled {b : Binary} (hparts : parts? x = some b) (hintegral : b.isIntegral = true)
    (hpos : 0 < b.magnitude) (hlt : b.magnitude < 2 ^ 53) :
    ∃ k : Nat, b.exponent = -(k : Int) ∧ b.significand = b.magnitude * 2 ^ k ∧
      b.significand.log2 = 52 := by
  obtain ⟨hsmall, hwide⟩ := significand_bounds hparts
  have hlog (hle : 2 ^ 52 ≤ b.significand) : b.significand.log2 = 52 :=
    (Nat.log2_eq_iff (by omega)).mpr ⟨hle, hsmall⟩
  by_cases hexponent : b.exponent < 0
  · have hfilled := significand_eq_of_isIntegral hintegral hexponent
    refine ⟨(-b.exponent).toNat, by omega, hfilled, hlog (hwide.resolve_right fun hleast => ?_)⟩
    -- With the least exponent there would be more zeros than the significand has bits.
    have hmany : 2 ^ 53 ≤ 2 ^ (-b.exponent).toNat := Nat.pow_le_pow_right (by decide) (by omega)
    have hfit : 2 ^ (-b.exponent).toNat ≤ b.significand := hfilled ▸ Nat.le_mul_of_pos_left _ hpos
    omega
  · have hle : 2 ^ 52 ≤ b.significand := hwide.resolve_right (by omega)
    have hmagnitude := magnitude_of_nonneg (Int.not_lt.mp hexponent)
    have hzero : b.exponent.toNat = 0 := by
      by_contra hne
      have hdouble : 2 ≤ 2 ^ b.exponent.toNat := Nat.le_self_pow hne 2
      have hmany := Nat.mul_le_mul hle hdouble
      omega
    rw [hzero, Nat.pow_zero, Nat.mul_one] at hmagnitude
    exact ⟨0, by omega, by rw [hmagnitude, Nat.pow_zero, Nat.mul_one], hlog hle⟩

/-- **A number is made from its exact value.** -/
theorem ofNat_eq_of_toInt? (h : toInt? x = some (n : Int)) (hn : 0 < n) (hlt : n < 2 ^ 53) :
    Float.ofNat n = x := by
  obtain ⟨b, hparts, hintegral, rfl, hpositive⟩ := exists_parts_of_toInt? h
  obtain ⟨k, hexponent, hfilled, hlog⟩ := exists_filled hparts hintegral hn hlt
  rw [hfilled] at hlog
  have hunpack := unpack_of_parts? hparts
  rw [dif_pos (by rw [hfilled]; positivity), hpositive hn] at hunpack
  exact ofNat_eq_of_unpack hn (hunpack.trans (finite_congr hfilled hexponent)) hlog

/-- Numerically that is so for a zero of either sign too. -/
theorem ofNat_beq_of_toInt? (h : toInt? x = some (n : Int)) (hlt : n < 2 ^ 53) :
    (Float.ofNat n == x) = true := by
  obtain ⟨b, hparts, hintegral, hmagnitude, -⟩ := exists_parts_of_toInt? h
  have hunpack := unpack_of_parts? hparts
  have hbeq : (Float.ofNat n == x) = true ↔ _ :=
    UnpackedFloat.beq_iff_ne_notANumber_and_eq (Float.ofNat n).toModel.unpack x.toModel.unpack
  rw [hbeq]
  rcases Nat.eq_zero_or_pos n with rfl | hn
  · have hzero : ¬ 0 < b.significand := by rw [significand_eq_zero hintegral hmagnitude]; simp
    have hmade : (Float.ofNat 0).toModel.unpack = .zero .positive := rfl
    rw [dif_neg hzero] at hunpack
    rw [hunpack, hmade]
    cases signOf b.negative <;> simp
  · rw [ofNat_eq_of_toInt? h hn hlt, hunpack]
    split <;> simp

end EcmaEval.Number
