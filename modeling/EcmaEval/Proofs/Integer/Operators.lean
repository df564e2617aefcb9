import Mathlib.Data.Rat.Floor
import Mathlib.Tactic.Ring
import EcmaEval.Session
import EcmaEval.Proofs.Number.Nearest

/-!
# Operators on unbounded integers

A shift to the left multiplies by a power of two, and a shift to the right divides by one and rounds
down, for negative integers too.  A negative distance shifts the other way.

The distance is an unbounded integer itself, and only one that fits a signed word of 64 bits is
taken.  Any other one counts as zero, so that the integer stays as it is.  A division by a power of
two leaves an integer as it is only if this is zero or minus one; so beyond the bound the shifts are
those of the powers of two for these integers alone.

An integer and a finite number are equal if the number is exactly that integer.  Which of the two is
less is asked of the number that the integer is converted to.  So the order is the exact one too,
except between an integer that is no number and the number that it is converted to: they are not
equal, and neither of them is less.

## Main definitions

* `Engine.OrderedAs`: the answers of the operators that compare two values

## Main results

* `Integer.rightShift_natCast`, `Integer.leftShift_neg_natCast`: shifts to the right
* `Integer.leftShift_natCast`, `Integer.rightShift_neg_natCast`: shifts to the left
* `Integer.shifts_iff`: for which distances they are those of the powers of two
* `Engine.orderedAs_integer_number`: how integers and finite numbers are compared
-/

namespace EcmaEval

namespace Integer

variable (x : Int) (k y : Nat)

/-! ## Distances that are natural numbers -/

theorem shiftUp_eq_mul : shiftUp x k = x * 2 ^ k := by
  unfold shiftUp
  split
  · next hzero => rw [hzero, Int.zero_mul]
  · rw [show ((Nat.pow 2 k : Nat) : Int) = 2 ^ k from Int.natCast_pow 2 k]

theorem floor_div_two_pow : ⌊(x : ℚ) / 2 ^ k⌋ = x / 2 ^ k := by
  have hfloor := Rat.floor_intCast_div_natCast x (2 ^ k)
  push_cast at hfloor
  exact hfloor

/-- Past all bits of an integer only its sign is left. -/
theorem ediv_two_pow_of_natAbs_lt (h : x.natAbs < 2 ^ k) :
    x / 2 ^ k = if x < 0 then -1 else 0 := by
  have hcast : ((2 ^ k : Nat) : Int) = 2 ^ k := Int.natCast_pow 2 k
  split
  · next hneg => exact (Int.ediv_eq_iff_of_pos (by omega)).mpr (by omega)
  · next hpos => exact Int.ediv_eq_zero_of_lt (by omega) (by omega)

theorem shiftDown_eq_floor : shiftDown x k = ⌊(x : ℚ) / 2 ^ k⌋ := by
  rw [floor_div_two_pow]
  unfold shiftDown
  split
  · next hpast =>
    have hbits : x.natAbs < 2 ^ (x.natAbs.log2 + 1) := Nat.lt_log2_self
    have hfar : 2 ^ (x.natAbs.log2 + 1) ≤ 2 ^ k := Nat.pow_le_pow_right (by decide) hpast.le
    exact (ediv_two_pow_of_natAbs_lt x k (hbits.trans_le hfar)).symm
  · rw [show ((Nat.pow 2 k : Nat) : Int) = 2 ^ k from Int.natCast_pow 2 k,
      Int.fdiv_eq_ediv_of_nonneg x (by positivity)]

/-! ## Distances that are integers -/

theorem shiftDistance_natCast : shiftDistance y = if y < 2 ^ 63 then (y : Int) else 0 := by
  have hpow : (Nat.pow 2 63 : Int) = 9223372036854775808 := rfl
  unfold shiftDistance
  simp only [hpow, Bool.and_eq_true, decide_eq_true_eq]
  split <;> split <;> omega

theorem shiftDistance_neg_natCast :
    shiftDistance (-y) = if y ≤ 2 ^ 63 then -(y : Int) else 0 := by
  have hpow : (Nat.pow 2 63 : Int) = 9223372036854775808 := rfl
  unfold shiftDistance
  simp only [hpow, Bool.and_eq_true, decide_eq_true_eq]
  split <;> split <;> omega

theorem shiftUp_zero : shiftUp x 0 = x := by
  rw [shiftUp_eq_mul, pow_zero, Int.mul_one]

theorem shiftDown_zero : shiftDown x 0 = x := by
  rw [shiftDown_eq_floor, pow_zero, div_one, Int.floor_intCast]

/-- A shift to the right by a distance that does not fit leaves the integer as it is. -/
theorem rightShift_natCast :
    rightShift x y = if y < 2 ^ 63 then ⌊(x : ℚ) / 2 ^ y⌋ else x := by
  unfold rightShift
  rw [shiftDistance_natCast]
  split
  · exact (if_pos (Int.natCast_nonneg y)).trans (shiftDown_eq_floor x y)
  · exact shiftDown_zero x

theorem leftShift_natCast : leftShift x y = if y < 2 ^ 63 then x * 2 ^ y else x := by
  unfold leftShift
  rw [shiftDistance_natCast]
  split
  · exact (if_pos (Int.natCast_nonneg y)).trans (shiftUp_eq_mul x y)
  · exact shiftUp_zero x

/-- One more distance fits if it is negative. -/
theorem leftShift_neg_natCast :
    leftShift x (-y) = if y ≤ 2 ^ 63 then ⌊(x : ℚ) / 2 ^ y⌋ else x := by
  unfold leftShift
  rw [shiftDistance_neg_natCast]
  split
  · dsimp only
    split
    · next hnonneg =>
      obtain rfl : y = 0 := by omega
      simp [shiftUp_zero]
    · rw [Int.natAbs_neg, Int.natAbs_natCast, shiftDown_eq_floor]
  · exact shiftUp_zero x

theorem rightShift_neg_natCast :
    rightShift x (-y) = if y ≤ 2 ^ 63 then x * 2 ^ y else x := by
  unfold rightShift
  rw [shiftDistance_neg_natCast]
  split
  · dsimp only
    split
    · next hnonneg =>
      obtain rfl : y = 0 := by omega
      simp [shiftDown_zero]
    · rw [Int.natAbs_neg, Int.natAbs_natCast, shiftUp_eq_mul]
  · exact shiftDown_zero x

/-! ## Powers of two that change nothing -/

variable {x y}

/-- A division rounded down brings an integer nearer to zero, unless it is zero or minus one. -/
theorem eq_floor_div_two_pow_iff (hy : y ≠ 0) : x = ⌊(x : ℚ) / 2 ^ y⌋ ↔ x = 0 ∨ x = -1 := by
  rw [floor_div_two_pow]
  have hpow : (2 : Int) ≤ 2 ^ y := le_self_pow₀ (by decide) hy
  constructor
  · intro heq
    have hdivide := Int.mul_ediv_add_emod x (2 ^ y)
    have hlt := Int.emod_lt_of_pos x (show (0 : Int) < 2 ^ y by omega)
    have hnonneg := Int.emod_nonneg x (show (2 : Int) ^ y ≠ 0 by omega)
    rw [← heq] at hdivide
    -- The rest is `(1 - 2 ^ y) * x`, which is between zero and the power for these two alone.
    have hle : x ≤ 0 := by
      by_contra hpos
      nlinarith
    have hge : -1 ≤ x := by
      by_contra hneg
      nlinarith
    omega
  · rintro (rfl | rfl)
    · rw [Int.zero_ediv]
    · rw [ediv_two_pow_of_natAbs_lt _ _ (Nat.one_lt_two_pow hy)]
      rfl

theorem eq_mul_two_pow_iff (hy : y ≠ 0) : x = x * 2 ^ y ↔ x = 0 := by
  have hpow : (2 : Int) ^ y ≠ 1 := (one_lt_pow₀ (by decide) hy).ne'
  constructor
  · intro heq
    by_contra hx
    exact hpow ((left_eq_mul₀ hx).mp heq)
  · rintro rfl
    rw [Int.zero_mul]

/-! ## Shifts as powers of two -/

/-- **Shifts multiply and divide by powers of two.**  That is so for the distances that fit a signed
word of 64 bits, whatever the integer.  Beyond them the integer stays as it is, and so it is not
what the power of two makes of it, unless it is one of those that no power of two changes. -/
theorem shifts_iff (x : Int) (y : Nat) :
    (rightShift x y = ⌊(x : ℚ) / 2 ^ y⌋ ↔ y < 2 ^ 63 ∨ x = 0 ∨ x = -1) ∧
    (leftShift x (-y) = ⌊(x : ℚ) / 2 ^ y⌋ ↔ y ≤ 2 ^ 63 ∨ x = 0 ∨ x = -1) ∧
    (leftShift x y = x * 2 ^ y ↔ y < 2 ^ 63 ∨ x = 0) ∧
    (rightShift x (-y) = x * 2 ^ y ↔ y ≤ 2 ^ 63 ∨ x = 0) := by
  rw [rightShift_natCast, leftShift_neg_natCast, leftShift_natCast, rightShift_neg_natCast]
  simp only [ite_eq_left_iff, or_iff_not_imp_left (a := y < _), or_iff_not_imp_left (a := y ≤ _)]
  refine ⟨?_, ?_, ?_, ?_⟩
  · exact imp_congr_right fun hfar => eq_floor_div_two_pow_iff (by omega)
  · exact imp_congr_right fun hfar => eq_floor_div_two_pow_iff (by omega)
  · exact imp_congr_right fun hfar => eq_mul_two_pow_iff (by omega)
  · exact imp_congr_right fun hfar => eq_mul_two_pow_iff (by omega)

/-- The first distance that does not fit. -/
example : rightShift 1 (2 ^ 63) = 1 ∧ leftShift 1 (-2 ^ 63) = 0 := by decide +kernel

end Integer

/-! ## Comparing integers with numbers -/

namespace Value

variable {n : Int} {x : Float} {v : ℚ} (hx : Number.value? x = some v)
include hx

theorem numberEqualsInteger_eq : numberEqualsInteger x n = decide ((n : ℚ) = v) := by
  rw [Bool.eq_iff_iff, decide_eq_true_iff, numberEqualsInteger, beq_iff_eq, Integer.ofNumber?,
    Number.toInt?_eq_some_iff, hx, Option.some.injEq, eq_comm]

theorem lessThan_integer_number :
    (bigint n).lessThan (number x) =
      some (decide ((n : ℚ) < v) && !(Integer.toNumber n == x)) := by
  have hround := Number.roundsTo_ofInteger n
  have hless := hround.lt_iff hx
  change Number.lessThan (Number.ofInteger n) x = _
  rw [Number.lessThan, hround.isNaN_eq_false, Number.isNaN_eq_false_of_value? hx]
  simp [hless, Integer.toNumber]

theorem lessThan_number_integer :
    (number x).lessThan (bigint n) =
      some (decide (v < n) && !(Integer.toNumber n == x)) := by
  have hround := Number.roundsTo_ofInteger n
  have hless := hround.gt_iff hx
  change Number.lessThan x (Number.ofInteger n) = _
  rw [Number.lessThan, hround.isNaN_eq_false, Number.isNaN_eq_false_of_value? hx]
  simp [hless, Integer.toNumber]

end Value

namespace Engine

variable {engine : Engine} {m : Machine} {left right : Value} {lt eq gt lt' eq' gt' : Bool}

/-- What the operators that compare two values tell of them, without a change to the machine. -/
structure OrderedAs (engine : Engine) (m : Machine) (left right : Value) (lt eq gt : Bool) :
    Prop where
  less : engine.binary .less left right m = .ok (.boolean lt) m
  equal : engine.binary .equal left right m = .ok (.boolean eq) m
  greater : engine.binary .greater left right m = .ok (.boolean gt) m
  lessOrEqual : engine.binary .lessOrEqual left right m = .ok (.boolean !gt) m
  greaterOrEqual : engine.binary .greaterOrEqual left right m = .ok (.boolean !lt) m

theorem OrderedAs.unique (h : engine.OrderedAs m left right lt eq gt)
    (h' : engine.OrderedAs m left right lt' eq' gt') : lt = lt' ∧ eq = eq' ∧ gt = gt' := by
  have hless := h.less.symm.trans h'.less
  have hequal := h.equal.symm.trans h'.equal
  have hgreater := h.greater.symm.trans h'.greater
  cases hless
  cases hequal
  cases hgreater
  exact ⟨rfl, rfl, rfl⟩

/-- Values that are no objects are compared as they are. -/
theorem orderedAs_of_lessThan (hleft : left.isObject = false) (hright : right.isObject = false)
    (hlt : left.lessThan right = some lt) (heq : left.looseEqual right = eq)
    (hgt : right.lessThan left = some gt) : engine.OrderedAs m left right lt eq gt := by
  have hprimitive {v : Value} (hv : v.isObject = false) :
      engine.toPrimitive v .number = pure v := by
    cases v with
    | object => cases hv
    | _ => rfl
  have hless : engine.less left right = pure (some lt) := by
    rw [less, hprimitive hleft, hprimitive hright, pure_bind, pure_bind, hlt]
  have hflipped : engine.lessFlipped left right = pure (some gt) := by
    rw [lessFlipped, hprimitive hleft, hprimitive hright, pure_bind, pure_bind, hgt]
  have hequal : engine.looseEqual left right = pure eq := by
    unfold Engine.looseEqual
    split
    · cases hleft
    · cases hleft
    · cases hright
    · rw [heq]
  constructor
  · change (engine.less left right >>= fun b => pure (Value.boolean (b == some true))) m = _
    rw [hless]
    cases lt <;> rfl
  · change (engine.looseEqual left right >>= fun b => pure (Value.boolean b)) m = _
    rw [hequal]
    rfl
  · change (engine.lessFlipped left right >>= fun b => pure (Value.boolean (b == some true))) m = _
    rw [hflipped]
    cases gt <;> rfl
  · change (engine.lessFlipped left right >>= fun b => pure (Value.boolean (b == some false))) m = _
    rw [hflipped]
    cases gt <;> rfl
  · change (engine.less left right >>= fun b => pure (Value.boolean (b == some false))) m = _
    rw [hless]
    cases lt <;> rfl

variable {n : Int} {x : Float} {v : ℚ}

theorem orderedAs_integer_number (hx : Number.value? x = some v) :
    engine.OrderedAs m (.bigint n) (.number x) (decide ((n : ℚ) < v) && !(Integer.toNumber n == x))
      (decide ((n : ℚ) = v)) (decide (v < n) && !(Integer.toNumber n == x)) :=
  orderedAs_of_lessThan rfl rfl (Value.lessThan_integer_number hx)
    (Value.numberEqualsInteger_eq hx) (Value.lessThan_number_integer hx)

/-- **Integers are compared with finite numbers exactly, except if an integer is only rounded to the
number.**  Equality alone tells these two apart. -/
theorem orderedAs_integer_number_iff (hx : Number.value? x = some v) :
    Number.RoundsTo n (Integer.toNumber n) ∧
      engine.OrderedAs m (.bigint n) (.number x)
        (decide ((n : ℚ) < v) && !(Integer.toNumber n == x)) (decide ((n : ℚ) = v))
        (decide (v < n) && !(Integer.toNumber n == x)) ∧
      (engine.OrderedAs m (.bigint n) (.number x) (decide ((n : ℚ) < v)) (decide ((n : ℚ) = v))
          (decide (v < n)) ↔
        ((Integer.toNumber n == x) = true → (n : ℚ) = v)) := by
  have hordered : engine.OrderedAs m (.bigint n) (.number x) _ _ _ := orderedAs_integer_number hx
  refine ⟨Number.roundsTo_ofInteger n, hordered, fun hexact hrounded => ?_, fun hexact => ?_⟩
  · obtain ⟨hlt, -, hgt⟩ := hordered.unique hexact
    simp only [hrounded, Bool.not_true, Bool.and_false] at hlt hgt
    exact le_antisymm (not_lt.mp (by simpa using hgt.symm)) (not_lt.mp (by simpa using hlt.symm))
  · cases hrounded : Integer.toNumber n == x with
    | false => simpa [hrounded] using hordered
    | true => simpa [hrounded, hexact hrounded] using hordered

/-- The integer after `2 ^ 53` is converted to `2 ^ 53`; it is neither less than that number nor
equal to it nor greater, although it is greater exactly. -/
theorem orderedAs_integer_number_iff_rounded :
    Number.value? 9007199254740992.0 = some (2 ^ 53) ∧
      standard.OrderedAs .empty (.bigint (2 ^ 53 + 1)) (.number 9007199254740992.0)
        false false false ∧
      ¬ standard.OrderedAs .empty (.bigint (2 ^ 53 + 1)) (.number 9007199254740992.0)
        false false true := by
  have hx : Number.value? 9007199254740992.0 = some (2 ^ 53) :=
    (Number.toInt?_eq_some_iff (i := 2 ^ 53)).mp rfl
  have hrounded : (Integer.toNumber (2 ^ 53 + 1) == 9007199254740992.0) = true := rfl
  obtain ⟨-, hordered, hexact⟩ :=
    @orderedAs_integer_number_iff standard .empty (2 ^ 53 + 1) 9007199254740992.0 (2 ^ 53) hx
  rw [hrounded] at hordered hexact
  norm_num at hordered hexact
  exact ⟨hx, hordered, hexact⟩

end Engine

end EcmaEval
