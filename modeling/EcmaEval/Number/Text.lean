import EcmaEval.Number.Shortest
import EcmaEval.Number.Words

/-!
# Numbers as text

The decimal text of a number, its text in another radix, and its text with a fixed count of
places.

## Main definitions

* `Number.toText`: the decimal text of a number
* `Number.toRadixText`: its text in another radix
* `Number.toFixedText`: its text with a fixed count of places
-/

namespace EcmaEval.Number

/-- `count` zeros. -/
def zeros (count : Nat) : List Char :=
  List.replicate count '0'

/-- The decimal digits of `n`. -/
def decimalDigits (n : Nat) : List Char :=
  Nat.toDigits 10 n

/-- Digits with the point after the first `n` places: positional from `10 ^ -7` up to `10 ^ 21`,
and with an exponent outside. -/
def layOut (digits : List Char) (n : Int) : List Char :=
  let k : Int := digits.length
  if k ≤ n ∧ n ≤ 21 then
    digits ++ zeros (n - k).toNat
  else if 0 < n ∧ n ≤ 21 then
    digits.take n.toNat ++ '.' :: digits.drop n.toNat
  else if -6 < n ∧ n ≤ 0 then
    '0' :: '.' :: (zeros (-n).toNat ++ digits)
  else
    let sign := if 0 < n then '+' else '-'
    let exponent := 'e' :: sign :: decimalDigits (n - 1).natAbs
    match digits with
    | [] => exponent
    | [d] => d :: exponent
    | d :: rest => d :: '.' :: (rest ++ exponent)

/-- A digit string without the zeros at its end. -/
def dropTrailingZeros (digits : List Char) : List Char :=
  (digits.reverse.dropWhile (· == '0')).reverse

/-- The text of a positive finite number. -/
def positiveText (b : Binary) : List Char :=
  -- Every integer below `2 ^ 53` is a number, so none of its digits can be left out.
  if b.isIntegral && b.magnitude < Nat.pow 2 53 then
    decimalDigits b.magnitude
  else
    let d := shortestDecimal b
    let digits := decimalDigits d.digits
    layOut (dropTrailingZeros digits) (d.exponent + digits.length)

/-- The decimal text of a number.  Both zeros are written `0`. -/
def toText (x : Float) : String :=
  match parts? x with
  | some b =>
    if b.significand == 0 then "0"
    else String.ofList (if b.negative then '-' :: positiveText b else positiveText b)
  | none =>
    if x.isNaN then "NaN" else if isNegative x then "-Infinity" else "Infinity"

/-- The decimal text of a number that keeps the sign of zero. -/
def toSignedText (x : Float) : String :=
  if isZero x && isNegative x then "-0" else toText x

/-- The digit of value `d`, in lower case from ten on. -/
def radixDigit (d : Nat) : Char :=
  if d < 10 then Char.ofNat (0x30 + d) else Char.ofNat (0x61 + (d - 10))

/-- The digits of an integral number in a radix, least digit last, before `digits`.  The quotient
of each step is rounded as a number is. -/
def integerDigits (radix : Float) : (fuel : Nat) → Float → List Char → List Char
  | 0, _, digits => digits
  | fuel + 1, n, digits =>
    if n < 1.0 then digits
    else
      integerDigits radix fuel (trunc (n / radix))
        (radixDigit (truncatedInt (remainder n radix)).toNat :: digits)

/-- The digits of a fraction in a radix, at most `fuel` of them. -/
def fractionDigits (radix : Float) : (fuel : Nat) → Float → List Char
  | 0, _ => []
  | fuel + 1, f =>
    let scaled := f * radix
    let digit := trunc scaled
    let rest := scaled - digit
    radixDigit (truncatedInt digit).toNat ::
      (if rest ≤ 0.0 then [] else fractionDigits radix fuel rest)

/-- The text of a number in a radix from 2 to 36.  The fraction has at most 52 digits. -/
def toRadixText (x : Float) (radix : Nat) : String :=
  if radix == 10 || !x.isFinite then toText x
  else
    let base := Float.ofNat radix
    let magnitude := x.abs
    let whole := trunc magnitude
    let fraction := magnitude - whole
    let wholeDigits := if isZero whole then ['0'] else integerDigits base 1100 whole []
    let fractionPart := if 0.0 < fraction then '.' :: fractionDigits base 52 fraction else []
    String.ofList ((if x < 0.0 then ['-'] else []) ++ wholeDigits ++ fractionPart)

/-- A natural number over `10 ^ places`, with all its places written. -/
def placedText (n places : Nat) : List Char :=
  let digits := decimalDigits n
  if places = 0 then digits
  else
    let padded := zeros (places + 1 - digits.length) ++ digits
    padded.take (padded.length - places) ++ '.' :: padded.drop (padded.length - places)

/-- The quotient of two natural numbers rounded to the nearest one; a half goes to the even
neighbour. -/
def roundDiv (numerator denominator : Nat) : Nat :=
  let below := numerator / denominator
  let rest := numerator % denominator
  if 2 * rest < denominator then below
  else if denominator < 2 * rest then below + 1
  else below + below % 2

/-- Powers of a number by repeated squaring, each product rounded. -/
def powerBySquaring (x : Float) (n : Nat) : Float :=
  go x n 1.0 (n + 1)
where
  /-- The product of `acc` and the `n`-th power of `x`. -/
  go (x : Float) (n : Nat) (acc : Float) : (fuel : Nat) → Float
    | 0 => acc
    | fuel + 1 =>
      let acc := if n % 2 == 1 then acc * x else acc
      if n / 2 == 0 then acc else go (x * x) (n / 2) acc fuel

/-- The text of a number with `places` digits after the point.  When the scaled number ends in
one half it is rounded away from zero, else the exact value is rounded to the nearest text; from
`10 ^ 21` on the shortest text is used. -/
def toFixedText (x : Float) (places : Nat) : String :=
  if 1e21 ≤ x.abs then toText x
  else
    match parts? x.abs with
    | none => toText x
    | some b =>
      let scaled := x.abs * powerBySquaring 10.0 places
      -- The product is rounded, so a value next to a half may count as one.
      let tie := scaled - trunc scaled == 0.5 && scaled < 9007199254740992.0
      let n :=
        if tie then (truncatedInt scaled).toNat + 1
        else
          let f := fractionOf b.significand b.exponent (-(places : Int))
          roundDiv f.numerator f.denominator
      String.ofList ((if x < 0.0 then ['-'] else []) ++ placedText n places)

end EcmaEval.Number
