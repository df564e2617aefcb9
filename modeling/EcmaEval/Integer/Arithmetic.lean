import EcmaEval.Number.Read
import EcmaEval.Number.Binary

/-!
# Arithmetic of unbounded integers

Values of the big integer type are integers.  Division is cut towards zero and the remainder has
the sign of the dividend.  The bitwise operators work on two's complement with the sign repeated
without end, so a shift to the right is a division rounded down.

## Main definitions

* `Integer.power`, `Integer.divide`, `Integer.remainder`: the operations that can fail, with their
  `Failure`
* `Integer.shiftUp`, `Integer.shiftDown`: multiplication by a power of two, and division by one
  rounded down
* `Integer.ofNumber?`: the integer that a number is
-/

namespace EcmaEval.Integer

/-- Why an operation on integers has no result. -/
inductive Failure where
  /-- A power with a negative exponent. -/
  | negativeExponent
  /-- A power whose exponent has more than 32 bits. -/
  | tooLarge
  /-- A division or remainder with divisor zero. -/
  | divisionByZero
  deriving Repr, DecidableEq

/-- The text of the failure. -/
def Failure.message : Failure → String
  | .negativeExponent => "Exponent must be non-negative"
  | .tooLarge => "Maximum BigInt size exceeded"
  | .divisionByZero => "Division by zero"

/-- A power; the exponent must be a 32-bit natural number. -/
def power (base exponent : Int) : Except Failure Int :=
  if exponent < 0 then .error .negativeExponent
  else if Nat.pow 2 32 ≤ exponent then .error .tooLarge
  else
    let magnitude : Nat := Nat.pow base.natAbs exponent.toNat
    .ok (if base < 0 && exponent % 2 == 1 then -(magnitude : Int) else magnitude)

/-- The quotient cut towards zero. -/
def divide (x y : Int) : Except Failure Int :=
  if y = 0 then .error .divisionByZero else .ok (Int.tdiv x y)

/-- The remainder of the quotient cut towards zero. -/
def remainder (x y : Int) : Except Failure Int :=
  if y = 0 then .error .divisionByZero else .ok (Int.tmod x y)

/-- Every bit turned over. -/
def bitwiseNot (x : Int) : Int := -(x + 1)

/-- The natural number whose bits are those of `x`, turned over when `x` is negative. -/
def bits (x : Int) : Nat :=
  if x < 0 then (bitwiseNot x).toNat else x.toNat

/-- The bits of the natural number `m` that are not set in `n`. -/
def without (m n : Nat) : Nat := m - (m &&& n)

/-- The bits set in both. -/
def bitwiseAnd (x y : Int) : Int :=
  if 0 ≤ x then
    if 0 ≤ y then (bits x &&& bits y : Nat) else (without (bits x) (bits y) : Nat)
  else
    if 0 ≤ y then (without (bits y) (bits x) : Nat)
    else bitwiseNot (bits x ||| bits y : Nat)

/-- The bits set in at least one. -/
def bitwiseOr (x y : Int) : Int :=
  bitwiseNot (bitwiseAnd (bitwiseNot x) (bitwiseNot y))

/-- The bits set in exactly one. -/
def bitwiseXor (x y : Int) : Int :=
  let n := (bits x ^^^ bits y : Nat)
  if decide (x < 0) != decide (y < 0) then bitwiseNot n else n

/-- `x · 2 ^ k`. -/
def shiftUp (x : Int) (k : Nat) : Int :=
  if x = 0 then 0 else x * Nat.pow 2 k

/-- `x / 2 ^ k`, rounded down.  A distance past all bits of `x` leaves its sign alone, and the
power of two is not computed. -/
def shiftDown (x : Int) (k : Nat) : Int :=
  if x.natAbs.log2 + 1 < k then (if x < 0 then -1 else 0) else Int.fdiv x (Nat.pow 2 k)

/-- The shift distance that an integer names: itself when it fits a signed 64-bit word, else
none. -/
def shiftDistance (y : Int) : Int :=
  if -(Nat.pow 2 63 : Int) ≤ y && y < Nat.pow 2 63 then y else 0

/-- A shift to the left; a negative distance shifts to the right. -/
def leftShift (x y : Int) : Int :=
  let d := shiftDistance y
  if 0 ≤ d then shiftUp x d.toNat else shiftDown x d.natAbs

/-- A shift to the right; a negative distance shifts to the left. -/
def rightShift (x y : Int) : Int :=
  let d := shiftDistance y
  if 0 ≤ d then shiftDown x d.toNat else shiftUp x d.natAbs

/-- The number nearest to an integer. -/
def toNumber (x : Int) : Float :=
  Number.ofInteger x

/-- The integer that a number is, if it is one. -/
def ofNumber? (x : Float) : Option Int :=
  Number.toInt? x

end EcmaEval.Integer
