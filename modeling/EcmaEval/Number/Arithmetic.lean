import EcmaEval.Number.Binary

/-!
# Arithmetic and comparison of numbers

Addition, subtraction, multiplication and division are those of the floating-point type.  The
operations here differ from it or have no name there.  The cube root is found digit by digit in exact
arithmetic, as the root of an integer with so many bits that its root has 56.
-/

namespace EcmaEval.Number

/-- The opposite number. -/
def unaryMinus (x : Float) : Float := -x

/-- A power.  A base of magnitude one has no power with an infinite exponent, and no base has a
power whose exponent is not a number. -/
def power (base exponent : Float) : Float :=
  if exponent.isNaN || (base.abs == 1.0 && exponent.isInf) then nan
  else Float.pow base exponent

/-- `x < y`, undefined when one of the two is not a number. -/
def lessThan (x y : Float) : Option Bool :=
  if x.isNaN || y.isNaN then none else some (x < y)

/-- Equality under which a value that is not a number differs from itself and the zeros are
equal. -/
def equal (x y : Float) : Bool := x == y

/-- Equality under which the not-a-number equals itself and the zeros are equal. -/
def sameValueZero (x y : Float) : Bool := (x.isNaN && y.isNaN) || x == y

/-- The nearest integer; a half goes up. -/
def round (x : Float) : Float :=
  if !x.isFinite || isZero x then x
  else if -0.5 ≤ x && x < 0.0 then negativeZero
  else
    let below := floor x
    if 0.5 ≤ x - below then below + 1.0 else below

/-- Minus one, one, or the zero or the not-a-number itself. -/
def sign (x : Float) : Float :=
  if x.isNaN || isZero x then x else signed (isNegative x) 1

/-- The greater of two numbers.  Positive zero is the greater zero, and the not-a-number wins. -/
def max (x y : Float) : Float :=
  if x.isNaN || y.isNaN then nan
  else if x < y || (isZero y && isZero x && isNegative x) then y
  else x

/-- The lesser of two numbers.  Negative zero is the lesser zero, and the not-a-number wins. -/
def min (x y : Float) : Float :=
  if x.isNaN || y.isNaN then nan
  else if y < x || (isZero y && isZero x && isNegative y) then y
  else x

/-- The value without its fraction, with zero for the not-a-number; infinities stay. -/
def toIntegerOrInfinity (x : Float) : Float :=
  if x.isNaN || isZero x then 0.0 else trunc x

/-- The index that a number without fraction names: 0 below zero, `limit` above it. -/
def clampIndex (x : Float) (limit : Nat) : Nat :=
  if x ≤ 0.0 then 0
  else if x.isInf then limit
  else Nat.min (truncatedInt x).toNat limit

/-- The index an argument names in a sequence of `size` elements; a negative number counts from
the end. -/
def relativeIndex (x : Float) (size : Nat) : Nat :=
  let n := toIntegerOrInfinity x
  if n < 0.0 then clampIndex (Float.ofNat size + n) size else clampIndex n size

theorem clampIndex_le (x : Float) (limit : Nat) : clampIndex x limit ≤ limit := by
  unfold clampIndex
  split
  · exact Nat.zero_le _
  · split
    · exact Nat.le_refl _
    · exact Nat.min_le_right _ _

theorem relativeIndex_le (x : Float) (size : Nat) : relativeIndex x size ≤ size := by
  unfold relativeIndex
  dsimp only
  split <;> exact clampIndex_le _ _

/-! ## Cube roots -/

/-- The greatest number whose cube is at most `n` among those that agree with `root` above the
lowest `count` bits. -/
def cubeRootBits (n : Nat) : (count root : Nat) → Nat
  | 0, root => root
  | count + 1, root =>
    let next := root + Nat.pow 2 count
    cubeRootBits n count (if next * next * next ≤ n then next else root)

/-- The integer part of the cube root of a number below `2 ^ 168`. -/
def natCubeRoot (n : Nat) : Nat := cubeRootBits n 56 0

/-- How far a significand is shifted so that it has 166 to 168 bits and the power of two that is
left is a cube. -/
def cubeShift (b : Binary) : Int :=
  let least : Int := 165 - Nat.log2 b.significand
  least + (b.exponent - least) % 3

/-- The cube root of a positive value.  The lowest bit of the integer that is rounded tells whether
the root goes on behind it, so that it is rounded once. -/
def positiveCubeRoot (b : Binary) : Float :=
  let shift := cubeShift b
  let n := b.significand * Nat.pow 2 shift.toNat
  let root := natCubeRoot n
  let rounded := Float.ofNat (if root * root * root = n then 2 * root else 2 * root + 1)
  rounded * powerOfTwo ((b.exponent - shift) / 3 - 1)

/-- The cube root, with the sign of its argument.  Zeros, infinities and the not-a-number are their
own roots. -/
def cubeRoot (x : Float) : Float :=
  match parts? x with
  | none => x
  | some b =>
    if b.significand == 0 then x
    else if b.negative then -positiveCubeRoot b
    else positiveCubeRoot b

end EcmaEval.Number
