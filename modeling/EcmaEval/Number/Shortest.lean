import EcmaEval.Number.Binary

/-!
# Shortest decimal digits

The decimal text of a number has the fewest digits that read back as that number, and of two such
texts the one nearer to it; an exact tie goes to the even digit.  All is computed on integers: the
decimals that read back as `x` are those between the halfway points to its neighbours, and on each
decimal grid only the two neighbours of `x` have to be tried.

## Main definitions

* `Number.ReadingRange`: the fractions that read back as a number
* `Number.shortestDecimal`: the fewest digits that read back
-/

namespace EcmaEval.Number

/-- A positive decimal `digits · 10 ^ exponent`. -/
structure Decimal where
  /-- The digits read as one natural number. -/
  digits : Nat
  /-- The power of ten that scales them. -/
  exponent : Int
  deriving Repr, DecidableEq

/-- The positive fraction `numerator / denominator`. -/
structure Fraction where
  numerator : Nat
  denominator : Nat

/-- `a / b` on a common denominator with other fractions: the parts of `m · 2 ^ e · 10 ^ (-p)`. -/
def fractionOf (m : Nat) (e p : Int) : Fraction where
  numerator := m * Nat.pow 2 e.toNat * Nat.pow 10 (-p).toNat
  denominator := Nat.pow 2 (-e).toNat * Nat.pow 10 p.toNat

/-- Raises `guess` while the next power of ten is not above the fraction. -/
def climb (m : Nat) (e : Int) : (fuel : Nat) → (guess : Int) → Int
  | 0, guess => guess
  | fuel + 1, guess =>
    let f := fractionOf m e (guess + 1)
    if f.denominator ≤ f.numerator then climb m e fuel (guess + 1) else guess

/-- The greatest `k` with `10 ^ k ≤ m · 2 ^ e`, for positive `m`. -/
def decimalExponent (m : Nat) (e : Int) : Int :=
  let binary := (Nat.log2 m : Int) + e
  climb m e 4 (Int.fdiv (binary * 30103) 100000 - 1)

/-- The decimals that read back as `m · 2 ^ e`: between the halfway points to its neighbours, the
ends included when `m` is even.  All three fractions are quarters of the last binary place. -/
structure ReadingRange where
  /-- Four times the significand. -/
  value : Nat
  /-- The lower end. -/
  low : Nat
  /-- The upper end. -/
  high : Nat
  /-- The power of two that scales them. -/
  exponent : Int
  /-- The ends themselves read back. -/
  closed : Bool

/-- The reading range of a number.  Below a power of two the neighbours are twice as close. -/
def readingRange (b : Binary) : ReadingRange where
  value := 4 * b.significand
  low := 4 * b.significand - (if b.significand == Nat.pow 2 52 && -1074 < b.exponent then 1 else 2)
  high := 4 * b.significand + 2
  exponent := b.exponent - 2
  closed := b.significand % 2 == 0

/-- `digits · 10 ^ p` lies in the range. -/
def ReadingRange.holds (r : ReadingRange) (digits : Nat) (p : Int) : Bool :=
  let low := fractionOf r.low r.exponent p
  let high := fractionOf r.high r.exponent p
  let scaled := digits * low.denominator
  if r.closed then low.numerator ≤ scaled && scaled ≤ high.numerator
  else low.numerator < scaled && scaled < high.numerator

/-- The neighbour of the value on the grid of step `10 ^ p` that reads back and is nearest to it,
if one does. -/
def ReadingRange.onGrid? (r : ReadingRange) (p : Int) : Option Nat :=
  let f := fractionOf r.value r.exponent p
  let below := f.numerator / f.denominator
  let rest := f.numerator % f.denominator
  let above := below + 1
  match r.holds below p && below != 0, r.holds above p with
  | false, false => none
  | true, false => some below
  | false, true => some above
  | true, true =>
    if 2 * rest < f.denominator then some below
    else if f.denominator < 2 * rest then some above
    else if below % 2 == 0 then some below
    else some above

/-- The decimal on the coarsest grid on which one reads back, from `digits` digits on. -/
def ReadingRange.shortest (r : ReadingRange) (top : Int) :
    (fuel digits : Nat) → Decimal
  | 0, digits => ⟨(fractionOf r.value r.exponent (top + 1 - digits)).numerator /
      (fractionOf r.value r.exponent (top + 1 - digits)).denominator, top + 1 - digits⟩
  | fuel + 1, digits =>
    let p := top + 1 - (digits : Int)
    match r.onGrid? p with
    | some n => ⟨n, p⟩
    | none => r.shortest top fuel (digits + 1)

/-- The shortest decimal that reads back as a positive finite number.  Seventeen digits always
suffice. -/
def shortestDecimal (b : Binary) : Decimal :=
  (readingRange b).shortest (decimalExponent b.significand b.exponent) 17 1

end EcmaEval.Number
