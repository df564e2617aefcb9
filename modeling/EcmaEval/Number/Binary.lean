/-!
# Numbers as exact binary fractions

A finite number is `±significand · 2 ^ exponent` with natural significand.  The operations here
that need the exact value, such as rounding to an integer and the remainder of a division, read
these parts from the bits of the number and compute with integers.

## Main definitions

* `Number.parts?`: the exact parts of a finite number
* `Number.trunc`, `Number.floor`, `Number.ceil`: rounding to an integer
* `Number.remainder`: the remainder of a division, with the sign of the dividend
-/

namespace EcmaEval.Number

/-- The parts of a finite number. -/
structure Binary where
  /-- The sign bit. -/
  negative : Bool
  /-- The significand, below `2 ^ 53`. -/
  significand : Nat
  /-- The power of two that scales the significand. -/
  exponent : Int
  deriving Repr, DecidableEq

/-- The parts of `x`; an infinity and the not-a-number have none. -/
def parts? (x : Float) : Option Binary :=
  let bits : Nat := x.toBits.toNat
  let negative := bits / Nat.pow 2 63 == 1
  let biased : Nat := bits / Nat.pow 2 52 % Nat.pow 2 11
  let fraction : Nat := bits % Nat.pow 2 52
  if biased == 2047 then none
  else if biased == 0 then some ⟨negative, fraction, -1074⟩
  else some ⟨negative, fraction + Nat.pow 2 52, (biased : Int) - 1075⟩

/-- The sign bit of `x`. -/
def isNegative (x : Float) : Bool :=
  x.toBits.toNat / Nat.pow 2 63 == 1

/-- The not-a-number. -/
def nan : Float := 0.0 / 0.0

/-- Positive infinity. -/
def infinity : Float := 1.0 / 0.0

/-- Negative zero. -/
def negativeZero : Float := -0.0

/-- `x` is zero, of either sign. -/
def isZero (x : Float) : Bool := x == 0.0

/-- A natural number with a sign; zero keeps the sign too. -/
def signed (negative : Bool) (magnitude : Nat) : Float :=
  let x := Float.ofNat magnitude
  if negative then -x else x

namespace Binary

/-- The value has no fraction. -/
def isIntegral (b : Binary) : Bool :=
  0 ≤ b.exponent || b.significand % Nat.pow 2 (-b.exponent).toNat == 0

/-- The magnitude without its fraction. -/
def magnitude (b : Binary) : Nat :=
  if 0 ≤ b.exponent then b.significand * Nat.pow 2 b.exponent.toNat
  else b.significand / Nat.pow 2 (-b.exponent).toNat

/-- The value without its fraction. -/
def truncated (b : Binary) : Int :=
  if b.negative then -(b.magnitude : Int) else b.magnitude

/-- The significand on a grid of step `2 ^ e`, for `e` at most the exponent. -/
def scaledTo (b : Binary) (e : Int) : Nat :=
  b.significand * Nat.pow 2 (b.exponent - e).toNat

end Binary

/-- The integer of a finite integral number. -/
def toInt? (x : Float) : Option Int :=
  match parts? x with
  | some b => if b.isIntegral then some b.truncated else none
  | none => none

/-- The value without its fraction, 0 for a value that is not finite. -/
def truncatedInt (x : Float) : Int :=
  match parts? x with
  | some b => b.truncated
  | none => 0

/-- `x` is finite and without fraction. -/
def isIntegral (x : Float) : Bool :=
  (toInt? x).isSome

/-- The integer next to `x` on the side of zero. -/
def trunc (x : Float) : Float :=
  match parts? x with
  | some b => if 0 ≤ b.exponent then x else signed b.negative b.magnitude
  | none => x

/-- The greatest integer that is not above `x`. -/
def floor (x : Float) : Float :=
  match parts? x with
  | some b =>
    if b.isIntegral then x
    else if b.negative then signed true (b.magnitude + 1)
    else signed false b.magnitude
  | none => x

/-- The least integer that is not below `x`. -/
def ceil (x : Float) : Float :=
  match parts? x with
  | some b =>
    if b.isIntegral then x
    else if b.negative then signed true b.magnitude
    else signed false (b.magnitude + 1)
  | none => x

/-- The number `2 ^ e`, for `e` from -1074 to 1023. -/
def powerOfTwo (e : Int) : Float :=
  if -1022 ≤ e then Float.ofBits ((e + 1023).toNat * Nat.pow 2 52).toUInt64
  else Float.ofBits (Nat.pow 2 (e + 1074).toNat).toUInt64

/-- The remainder of a division whose quotient is cut towards zero.  It has the sign of the
dividend, also when it is zero.  It is below `2 ^ 53` on the finer of the two grids, so it is a
number. -/
def remainder (x y : Float) : Float :=
  match parts? x with
  | none => nan
  | some a =>
    match parts? y with
    | none => if y.isNaN then nan else x
    | some b =>
      if b.significand == 0 then nan
      else
        let e := min a.exponent b.exponent
        let rest := a.scaledTo e % b.scaledTo e
        let magnitude := Float.ofNat rest * powerOfTwo e
        if a.negative then -magnitude else magnitude

end EcmaEval.Number
