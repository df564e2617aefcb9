import EcmaEval.Number.Binary

/-!
# Numbers as 32-bit words

The bitwise operators read a number modulo `2 ^ 32`, as a natural number or as a two's complement
integer, and give a number back.  A shift uses the lowest five bits of its distance.
-/

namespace EcmaEval.Number

/-- The number modulo `2 ^ 32`, without its fraction; 0 for a value that is not finite. -/
def toUInt32 (x : Float) : UInt32 :=
  UInt32.ofNat ((truncatedInt x) % Nat.pow 2 32).toNat

/-- The two's complement reading of a word. -/
def wordToInt (w : UInt32) : Int :=
  if w.toNat < Nat.pow 2 31 then w.toNat else (w.toNat : Int) - Nat.pow 2 32

/-- The number modulo `2 ^ 32`, between `-2 ^ 31` and `2 ^ 31 - 1`. -/
def toInt32 (x : Float) : Int :=
  wordToInt (toUInt32 x)

/-- The number of an integer below `2 ^ 53` in magnitude. -/
def ofInt (i : Int) : Float :=
  signed (i < 0) i.natAbs

/-- The signed value of a word as a number. -/
def ofWord (w : UInt32) : Float :=
  ofInt (wordToInt w)

/-- Every bit turned over. -/
def bitwiseNot (x : Float) : Float := ofWord (~~~ toUInt32 x)

/-- The bits set in both. -/
def bitwiseAnd (x y : Float) : Float := ofWord (toUInt32 x &&& toUInt32 y)

/-- The bits set in at least one. -/
def bitwiseOr (x y : Float) : Float := ofWord (toUInt32 x ||| toUInt32 y)

/-- The bits set in exactly one. -/
def bitwiseXor (x y : Float) : Float := ofWord (toUInt32 x ^^^ toUInt32 y)

/-- The distance of a shift. -/
def shiftDistance (y : Float) : Nat := (toUInt32 y).toNat % 32

/-- A shift to the left; bits pushed past the sign are lost. -/
def leftShift (x y : Float) : Float :=
  ofWord (UInt32.ofNat ((toUInt32 x).toNat * Nat.pow 2 (shiftDistance y)))

/-- A shift to the right that copies the sign. -/
def signedRightShift (x y : Float) : Float :=
  ofInt (Int.fdiv (toInt32 x) (Nat.pow 2 (shiftDistance y)))

/-- A shift to the right that brings in zeros. -/
def unsignedRightShift (x y : Float) : Float :=
  signed false ((toUInt32 x).toNat / Nat.pow 2 (shiftDistance y))

end EcmaEval.Number
