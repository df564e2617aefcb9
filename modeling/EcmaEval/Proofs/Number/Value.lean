import EcmaEval.Proofs.Number.Exact

/-!
# The exact values of numbers

A finite number is a rational number, the product of a significand and a power of two.  Numbers are
compared by their exponents first and by their significands then.  That is the order of their exact
values, because a significand has its full width unless the exponent is the least one.

## Main definitions

* `Number.value?`: the exact value of a number, if it is finite
* `Number.IsCanonical`: the significand has its full width, and the number is in range

## Main results

* `Number.toInt?_eq_some_iff`: the integers among the exact values
* `Number.unpack_pack`: parts in that form are kept
* `Number.compare_of_exactValue?`: numbers compare as their exact values do
-/

namespace EcmaEval.Number

open Float.Model (Format UnpackedFloat)
open Float.Model.UnpackedFloat

/-- The rational number that the parts are. -/
def Binary.value (b : Binary) : ℚ :=
  (if b.negative then -1 else 1) * (b.significand * 2 ^ b.exponent)

/-- The exact value of a finite number. -/
def value? (x : Float) : Option ℚ := (parts? x).map Binary.value

/-! ## Values of unpacked numbers -/

/-- The factor that a sign stands for. -/
def factor : Sign → ℚ
  | .positive => 1
  | .negative => -1

/-- The exact value of an unpacked number, if it is finite. -/
def exactValue? : UnpackedFloat → Option ℚ
  | .finite s m e _ => some (factor s * (m * 2 ^ e))
  | .zero _ => some 0
  | _ => none

/-- The significand has its full width unless the exponent is the least one, and the exponent is in
range. -/
def IsCanonical : UnpackedFloat → Prop
  | .finite _ m e _ => m < 2 ^ 53 ∧ (2 ^ 52 ≤ m ∨ e = -1074) ∧ -1074 ≤ e ∧ e ≤ 971
  | _ => True

variable {x y : Float} {u v : UnpackedFloat} {p q : ℚ}

theorem exponent_bounds {b : Binary} (h : parts? x = some b) :
    -1074 ≤ b.exponent ∧ b.exponent ≤ 971 := by
  have hlt : x.toBits.toNat / Nat.pow 2 52 % Nat.pow 2 11 < 2048 := Nat.mod_lt _ (by decide)
  unfold parts? at h
  dsimp only at h
  split at h
  · cases h
  · next hmax =>
    have hmax : x.toBits.toNat / Nat.pow 2 52 % Nat.pow 2 11 ≠ 2047 := by simpa using hmax
    split at h
    · cases h
      exact ⟨Int.le_refl _, by norm_num⟩
    · next hzero =>
      have hzero : x.toBits.toNat / Nat.pow 2 52 % Nat.pow 2 11 ≠ 0 := by simpa using hzero
      cases h
      dsimp only
      omega

/-- A number without parts is infinite or no number. -/
theorem exactValue?_of_parts?_eq_none (h : parts? x = none) :
    exactValue? x.toModel.unpack = none := by
  obtain ⟨⟨bits, hbits⟩⟩ := x
  have htoBits : (Float.ofModel ⟨bits, hbits⟩).toBits = bits := rfl
  unfold parts? at h
  rw [htoBits] at h
  simp only [← toNat_unpackMantissa, ← toNat_unpackExponent, beq_iff_eq] at h
  have hmax : @unpackExponent Format.binary64 bits.toBitVec = -1#11 := by
    refine BitVec.eq_of_toNat_eq ?_
    split at h
    · assumption
    · split at h <;> cases h
  unfold Float.Model.unpack UnpackedFloat.unpack
  rw [if_pos hmax]
  split <;> rfl

theorem factor_signOf (negative : Bool) :
    factor (signOf negative) = if negative then -1 else 1 := by
  cases negative <;> rfl

theorem exactValue?_unpack (x : Float) : exactValue? x.toModel.unpack = value? x := by
  unfold value?
  cases hparts : parts? x with
  | none => exact exactValue?_of_parts?_eq_none hparts
  | some b =>
    rw [unpack_of_parts? hparts]
    split
    · rw [exactValue?, factor_signOf]
      rfl
    · next hzero =>
      have hzero : b.significand = 0 := by omega
      simp [exactValue?, Binary.value, hzero]

theorem isCanonical_unpack (x : Float) : IsCanonical x.toModel.unpack := by
  cases hparts : parts? x with
  | none =>
    have hnone := exactValue?_of_parts?_eq_none hparts
    cases hunpack : x.toModel.unpack with
    | finite => rw [hunpack] at hnone; cases hnone
    | _ => trivial
  | some b =>
    rw [unpack_of_parts? hparts]
    split
    · exact ⟨(significand_bounds hparts).1, (significand_bounds hparts).2, exponent_bounds hparts⟩
    · trivial

/-- A finite number is a significand times a power of two. -/
theorem exists_of_value? (hx : value? x = some p) :
    ∃ (s : Sign) (m : Nat) (e : Int), m < 2 ^ 53 ∧ e ≤ 971 ∧ p = factor s * (m * 2 ^ e) := by
  obtain ⟨b, hb, rfl⟩ := Option.map_eq_some_iff.mp hx
  refine ⟨signOf b.negative, b.significand, b.exponent, (significand_bounds hb).1,
    (exponent_bounds hb).2, ?_⟩
  rw [factor_signOf]
  rfl

/-! ## Integral values -/

section Integral

variable {b : Binary} {i : Int}

theorem scaled_eq_magnitude (h : b.isIntegral = true) :
    (b.significand * 2 ^ b.exponent : ℚ) = b.magnitude := by
  rcases lt_or_ge b.exponent 0 with hneg | hnonneg
  · obtain ⟨k, hk⟩ : ∃ k : Nat, b.exponent = -k := ⟨(-b.exponent).toNat, by omega⟩
    have hfilled := significand_eq_of_isIntegral h hneg
    rw [hfilled, hk, Int.neg_neg, Int.toNat_natCast, zpow_neg, zpow_natCast, Nat.cast_mul,
      Nat.cast_pow, Nat.cast_two, mul_inv_cancel_right₀ (by positivity)]
  · obtain ⟨k, hk⟩ := Int.eq_ofNat_of_zero_le hnonneg
    rw [magnitude_of_nonneg hnonneg, hk, Int.toNat_natCast, zpow_natCast, Nat.cast_mul,
      Nat.cast_pow, Nat.cast_two]

theorem value_eq_truncated (h : b.isIntegral = true) : b.value = b.truncated := by
  rw [Binary.value, scaled_eq_magnitude h, Binary.truncated]
  split <;> push_cast <;> ring

theorem isIntegral_of_value_eq (h : b.value = i) : b.isIntegral = true := by
  rcases lt_or_ge b.exponent 0 with hneg | hnonneg
  · obtain ⟨k, hk⟩ : ∃ k : Nat, b.exponent = -k := ⟨(-b.exponent).toNat, by omega⟩
    have hscaled : (b.significand : Int) = (if b.negative then -1 else 1) * i * 2 ^ k := by
      rw [Binary.value, hk, zpow_neg, zpow_natCast] at h
      have hvalue : (b.significand : ℚ) = (if b.negative then -1 else 1) * i * 2 ^ k := by
        rw [← h]
        split <;> field_simp
      split at hvalue <;> rename_i hsign <;> simp only [hsign] <;> exact_mod_cast hvalue
    have hdvd : 2 ^ k ∣ b.significand := by
      exact_mod_cast (show (2 ^ k : Int) ∣ b.significand from hscaled ▸ Dvd.intro_left _ rfl)
    have hrest := Nat.mod_eq_zero_of_dvd hdvd
    simp [Binary.isIntegral, hk, hrest]
  · simp [Binary.isIntegral, hnonneg]

end Integral

/-- A number is an integer exactly if its exact value is that integer. -/
theorem toInt?_eq_some_iff {i : Int} : toInt? x = some i ↔ value? x = some (i : ℚ) := by
  unfold toInt? value?
  cases parts? x with
  | none => exact ⟨nofun, nofun⟩
  | some b =>
    simp only [Option.map_some, Option.some.injEq]
    constructor
    · intro h
      split at h
      · next hintegral =>
        rw [value_eq_truncated hintegral, Option.some.inj h]
      · cases h
    · intro h
      have hintegral := isIntegral_of_value_eq h
      rw [value_eq_truncated hintegral] at h
      rw [if_pos hintegral, Int.cast_injective h]

/-! ## Packing -/

/-- A significand of full width, whose highest bit is not stored. -/
theorem unpack_pack_normal {s : Sign} {m : Nat} {e : Int} {hm : 0 < m} (hfull : 2 ^ 52 ≤ m)
    (hlt : m < 2 ^ 53) (hlow : -1074 ≤ e) (hhigh : e ≤ 971) :
    (Float.Model.pack (.finite s m e hm)).unpack = .finite s m e hm := by
  obtain ⟨k, hk⟩ : ∃ k : Nat, e = k - 1075 := ⟨(e + 1075).toNat, by omega⟩
  have hlog : m.log2 + 1 = Format.binary64.mantissaBits := by
    rw [(Nat.log2_eq_iff hm.ne').mpr ⟨hfull, hlt⟩]
    rfl
  have hbiased : (e + (1023 : Nat) + (52 : Nat)).toNat = k := by omega
  have hexponent : (BitVec.ofNat 11 k).toNat = k := by
    rw [BitVec.toNat_ofNat, Nat.mod_eq_of_lt (by omega)]
  have hpack : UnpackedFloat.pack Format.binary64 (.finite s m e hm) =
      packComponents Format.binary64 s (BitVec.ofNat 11 k) (BitVec.ofNat 52 m) := by
    unfold UnpackedFloat.pack
    dsimp only
    rw [if_neg, if_pos hlog]
    · exact congrArg (packComponents _ s · _) (congrArg _ hbiased)
    · change ¬ 2 ^ 11 ≤ (e + (1023 : Nat) + (52 : Nat)).toNat + 1
      omega
  change UnpackedFloat.unpack Format.binary64
    (UnpackedFloat.pack Format.binary64 (.finite s m e hm)) = _
  rw [hpack]
  unfold UnpackedFloat.unpack
  simp only [unpackExponent_packComponents, unpackMantissa_packComponents,
    unpackSign_packComponents, Sign.ofBitVec_toBitVec]
  rw [if_neg, if_neg]
  · refine finite_congr ?_ ?_
    · rw [BitVec.toNat_append, ← Nat.shiftLeft_add_eq_or_of_lt (BitVec.ofNat 52 m).isLt]
      change 2 ^ 52 + m % 2 ^ 52 = m
      omega
    · rw [hexponent]
      change (k : Int) - (1023 + 52) = e
      omega
  · intro hzero
    have hzero := congrArg BitVec.toNat hzero
    rw [hexponent] at hzero
    change k = 0 at hzero
    omega
  · intro hmax
    have hmax := congrArg BitVec.toNat hmax
    rw [hexponent] at hmax
    change k = 2047 at hmax
    omega

/-- A smaller significand, with the least exponent. -/
theorem unpack_pack_subnormal {s : Sign} {m : Nat} {hm : 0 < m} (hlt : m < 2 ^ 52) :
    (Float.Model.pack (.finite s m (-1074) hm)).unpack = .finite s m (-1074) hm := by
  have hmantissa : (BitVec.ofNat 52 m).toNat = m := by
    rw [BitVec.toNat_ofNat, Nat.mod_eq_of_lt hlt]
  have hpack : UnpackedFloat.pack Format.binary64 (.finite s m (-1074) hm) =
      packComponents Format.binary64 s 0#11 (BitVec.ofNat 52 m) := by
    have hlog : m.log2 < 52 := (Nat.log2_lt hm.ne').mpr hlt
    unfold UnpackedFloat.pack
    dsimp only
    rw [if_neg (by decide), if_neg]
    change ¬ m.log2 + 1 = 53
    omega
  change UnpackedFloat.unpack Format.binary64
    (UnpackedFloat.pack Format.binary64 (.finite s m (-1074) hm)) = _
  rw [hpack]
  unfold UnpackedFloat.unpack
  simp only [unpackExponent_packComponents, unpackMantissa_packComponents,
    unpackSign_packComponents, Sign.ofBitVec_toBitVec]
  rw [if_neg (by decide), if_pos trivial, dif_neg]
  · exact finite_congr hmantissa rfl
  · intro hzero
    have hzero := congrArg BitVec.toNat hzero
    rw [hmantissa] at hzero
    exact hm.ne' hzero

/-- A number beyond the range is packed as an infinity. -/
theorem unpack_pack_overflow {s : Sign} {m : Nat} {e : Int} {hm : 0 < m} (hhigh : 972 ≤ e) :
    (Float.Model.pack (.finite s m e hm)).unpack = .infinity s := by
  have hpack : UnpackedFloat.pack Format.binary64 (.finite s m e hm) =
      packedInfinity Format.binary64 s := by
    unfold UnpackedFloat.pack
    dsimp only
    rw [if_pos]
    change 2 ^ 11 ≤ (e + (1023 : Nat) + (52 : Nat)).toNat + 1
    omega
  change UnpackedFloat.unpack Format.binary64
    (UnpackedFloat.pack Format.binary64 (.finite s m e hm)) = _
  rw [hpack]
  cases s <;> rfl

theorem unpack_pack (hu : IsCanonical u) : (Float.Model.pack u).unpack = u := by
  cases u with
  | notANumber => rfl
  | infinity s => cases s <;> rfl
  | zero s => cases s <;> rfl
  | finite s m e hm =>
    obtain ⟨hlt, hfull, hlow, hhigh⟩ := hu
    by_cases hnormal : 2 ^ 52 ≤ m
    · exact unpack_pack_normal hnormal hlt hlow hhigh
    · obtain rfl := hfull.resolve_left hnormal
      exact unpack_pack_subnormal (by omega)

/-- The opposite of a number. -/
theorem unpack_neg (x : Float) : (-x).toModel.unpack = x.toModel.unpack.neg := by
  change (Float.Model.pack x.toModel.unpack.neg).unpack = _
  refine unpack_pack ?_
  have hx := isCanonical_unpack x
  revert hx
  cases x.toModel.unpack <;> exact id

theorem exactValue?_neg (u : UnpackedFloat) : exactValue? u.neg = (exactValue? u).map (- ·) := by
  cases u with
  | finite s m e hm =>
    have hfactor : factor (-s) = -factor s := by
      cases s with
      | negative => exact (neg_neg 1).symm
      | positive => rfl
    simp [UnpackedFloat.neg, exactValue?, hfactor]
  | _ => simp [UnpackedFloat.neg, exactValue?]

theorem value?_neg (x : Float) : value? (-x) = (value? x).map (- ·) := by
  rw [← exactValue?_unpack, ← exactValue?_unpack, unpack_neg, exactValue?_neg]

/-! ## The order of numbers -/

/-- A greater exponent outweighs the significands. -/
theorem scaled_lt_of_exponent_lt {m n : Nat} {e f : Int} (hm : m < 2 ^ 53) (hn : 2 ^ 52 ≤ n)
    (hef : e < f) : (m * 2 ^ e : ℚ) < n * 2 ^ f := by
  have hm : (m : ℚ) < 2 ^ 53 := by exact_mod_cast hm
  have hn : (2 ^ 52 : ℚ) ≤ n := by exact_mod_cast hn
  calc (m * 2 ^ e : ℚ) < 2 ^ 53 * 2 ^ e := by gcongr
    _ = 2 ^ 52 * 2 ^ (e + 1) := by rw [zpow_add_one₀ (by norm_num)]; ring
    _ ≤ n * 2 ^ f := by gcongr <;> norm_num; omega

theorem compare_scaled {m n : Nat} {e f : Int} (hm : m < 2 ^ 53) (hn : n < 2 ^ 53)
    (hm' : 2 ^ 52 ≤ m ∨ e = -1074) (hn' : 2 ^ 52 ≤ n ∨ f = -1074) (he : -1074 ≤ e)
    (hf : -1074 ≤ f) :
    (compare e f).then (compare m n) = compare (m * 2 ^ e : ℚ) (n * 2 ^ f) := by
  rcases lt_trichotomy e f with hlt | rfl | hgt
  · rw [compare_lt_iff_lt.mpr hlt, compare_lt_iff_lt.mpr
      (scaled_lt_of_exponent_lt hm (hn'.resolve_right (by omega)) hlt)]
    rfl
  · have hpos : (0 : ℚ) < 2 ^ e := by positivity
    rw [compare_eq_iff_eq.mpr rfl, Ordering.eq_then]
    rcases lt_trichotomy m n with hlt | rfl | hgt
    · rw [compare_lt_iff_lt.mpr hlt, compare_lt_iff_lt.mpr (by gcongr)]
    · rw [compare_eq_iff_eq.mpr rfl, compare_eq_iff_eq.mpr rfl]
    · rw [compare_gt_iff_gt.mpr hgt, compare_gt_iff_gt.mpr (by gcongr)]
  · rw [compare_gt_iff_gt.mpr hgt, compare_gt_iff_gt.mpr
      (scaled_lt_of_exponent_lt hn (hm'.resolve_right (by omega)) hgt)]
    rfl

theorem compare_neg_neg (p q : ℚ) : compare (-p) (-q) = (compare p q).swap := by
  rcases lt_trichotomy p q with hlt | rfl | hgt
  · rw [compare_lt_iff_lt.mpr hlt, compare_gt_iff_gt.mpr (neg_lt_neg hlt)]
    rfl
  · rw [compare_eq_iff_eq.mpr rfl, compare_eq_iff_eq.mpr rfl]
    rfl
  · rw [compare_gt_iff_gt.mpr hgt, compare_lt_iff_lt.mpr (neg_lt_neg hgt)]
    rfl

/-- The sign decides before the significand and the exponent do. -/
theorem compare_finite {s s' : Sign} {m n : Nat} {e f : Int} {hm : 0 < m} {hn : 0 < n}
    (hu : IsCanonical (.finite s m e hm)) (hv : IsCanonical (.finite s' n f hn)) :
    UnpackedFloat.compare (.finite s m e hm) (.finite s' n f hn) =
      some (compare (factor s * (m * 2 ^ e)) (factor s' * (n * 2 ^ f))) := by
  obtain ⟨hm', hwide, he, -⟩ := hu
  obtain ⟨hn', hwide', hf, -⟩ := hv
  have hpos : (0 : ℚ) < m * 2 ^ e := by positivity
  have hpos' : (0 : ℚ) < n * 2 ^ f := by positivity
  have hscaled := compare_scaled hm' hn' hwide hwide' he hf
  cases s <;> cases s' <;> simp only [factor, one_mul, neg_one_mul]
  · rw [compare_neg_neg, ← hscaled]
    rfl
  · rw [compare_lt_iff_lt.mpr (by linarith)]
    rfl
  · rw [compare_gt_iff_gt.mpr (by linarith)]
    rfl
  · rw [← hscaled]
    rfl

theorem compare_zero_finite {s s' : Sign} {m : Nat} {e : Int} {hm : 0 < m} :
    UnpackedFloat.compare (.zero s) (.finite s' m e hm) =
        some (compare 0 (factor s' * (m * 2 ^ e))) ∧
      UnpackedFloat.compare (.finite s' m e hm) (.zero s) =
        some (compare (factor s' * (m * 2 ^ e)) 0) := by
  have hpos : (0 : ℚ) < m * 2 ^ e := by positivity
  cases s' <;> simp only [factor, one_mul, neg_one_mul]
  · rw [compare_gt_iff_gt.mpr (by linarith), compare_lt_iff_lt.mpr (by linarith)]
    exact ⟨rfl, rfl⟩
  · rw [compare_lt_iff_lt.mpr (by linarith), compare_gt_iff_gt.mpr (by linarith)]
    exact ⟨rfl, rfl⟩

/-- Numbers compare as their exact values do. -/
theorem compare_of_exactValue? (hu : IsCanonical u) (hv : IsCanonical v)
    (hp : exactValue? u = some p) (hq : exactValue? v = some q) :
    u.compare v = some (compare p q) := by
  cases u with
  | notANumber | infinity => cases hp
  | zero s =>
    cases v with
    | notANumber | infinity => cases hq
    | zero s' => cases hp; cases hq; rfl
    | finite => cases hp; cases hq; exact compare_zero_finite.1
  | finite =>
    cases v with
    | notANumber | infinity => cases hq
    | zero s' => cases hp; cases hq; exact compare_zero_finite.2
    | finite => cases hp; cases hq; exact compare_finite hu hv

theorem lt_iff_compare : x < y ↔ x.toModel.unpack.compare y.toModel.unpack = some .lt := by
  have hlt : x < y ↔ x.toModel.unpack.lt y.toModel.unpack = true := decide_eq_true_iff
  rw [hlt, UnpackedFloat.lt, beq_iff_eq]

theorem beq_iff_compare :
    (x == y) = true ↔ x.toModel.unpack.compare y.toModel.unpack = some .eq := by
  have hbeq : (x == y) = x.toModel.unpack.beq y.toModel.unpack := rfl
  rw [hbeq, UnpackedFloat.beq, beq_iff_eq]

section Compare

variable (hx : value? x = some p)
include hx

theorem compare_of_value? (hy : value? y = some q) :
    x.toModel.unpack.compare y.toModel.unpack = some (compare p q) :=
  compare_of_exactValue? (isCanonical_unpack x) (isCanonical_unpack y)
    (by rw [exactValue?_unpack, hx]) (by rw [exactValue?_unpack, hy])

theorem lt_iff_of_value? (hy : value? y = some q) : x < y ↔ p < q := by
  rw [lt_iff_compare, compare_of_value? hx hy, Option.some.injEq, compare_lt_iff_lt]

theorem beq_iff_of_value? (hy : value? y = some q) : (x == y) = true ↔ p = q := by
  rw [beq_iff_compare, compare_of_value? hx hy, Option.some.injEq, compare_eq_iff_eq]

end Compare

end EcmaEval.Number
