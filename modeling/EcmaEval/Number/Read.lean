import EcmaEval.Number.Binary
import EcmaEval.Text.Blank

/-!
# Reading numbers

A decimal numeral is read to the nearest number.  A string converts to a number when, without the
white space around it, it is empty, a numeral, an infinity, or digits in radix 2, 8 or 16 after a
two-character mark.  `readIntegerFront` and `readDecimalFront` read as much of a text as they can
use.

## Main definitions

* `Number.ofText`: the number that a string converts to
* `Number.ofDecimal`: the number nearest to a decimal
* `Number.readIntegerFront`, `Number.readDecimalFront`: the number at the front of a text
-/

namespace EcmaEval.Number

/-- The character is a decimal digit. -/
def isDecimalDigit (c : Char) : Bool :=
  '0' ≤ c && c ≤ '9'

/-- The value of a digit in a radix up to 36; letters count in both cases. -/
def digitValue? (radix : Nat) (c : Char) : Option Nat :=
  let value? :=
    if isDecimalDigit c then some (c.toNat - 0x30)
    else if 'a' ≤ c && c ≤ 'z' then some (c.toNat - 0x61 + 10)
    else if 'A' ≤ c && c ≤ 'Z' then some (c.toNat - 0x41 + 10)
    else none
  value?.filter (· < radix)

/-- The natural number that decimal digits denote. -/
def natOfDigits (digits : List Char) : Nat :=
  digits.foldl (fun n c => 10 * n + (c.toNat - 0x30)) 0

/-- The number nearest to `digits · 10 ^ exponent`.  A decimal beyond the range of numbers is not
written out before it is found to be zero or infinite. -/
def ofDecimal (digits : Nat) (exponent : Int) : Float :=
  if digits == 0 then 0.0
  else
    let top := (Nat.log2 digits : Int) * 30103 / 100000 + exponent
    if 310 < top then infinity
    else if top < -345 then 0.0
    else Float.ofScientific digits (decide (exponent < 0)) exponent.natAbs

/-- The number nearest to an integer. -/
def ofInteger (i : Int) : Float :=
  let x := ofDecimal i.natAbs 0
  if i < 0 then -x else x

/-- The decimal digits at the front of a text, and the rest. -/
def spanDigits (cs : List Char) : List Char × List Char :=
  (cs.takeWhile isDecimalDigit, cs.dropWhile isDecimalDigit)

/-- The exponent part of a numeral, if all of `cs` is one. -/
def readExponent? : List Char → Option Int
  | [] => some 0
  | e :: rest =>
    if e == 'e' || e == 'E' then
      let (negative, digits) :=
        match rest with
        | '-' :: digits => (true, digits)
        | '+' :: digits => (false, digits)
        | digits => (false, digits)
      if !digits.isEmpty && digits.all isDecimalDigit then
        some (if negative then -(natOfDigits digits : Int) else natOfDigits digits)
      else none
    else none

/-- An unsigned numeral: digits with at most one point among or around them, at least one digit,
and an optional exponent. -/
def readNumeral? (cs : List Char) : Option Float :=
  let (whole, rest) := spanDigits cs
  let (fraction, rest) :=
    match rest with
    | '.' :: rest => spanDigits rest
    | rest => ([], rest)
  if whole.isEmpty && fraction.isEmpty then none
  else
    (readExponent? rest).map fun exponent =>
      ofDecimal (natOfDigits (whole ++ fraction)) (exponent - fraction.length)

/-- A numeral with an optional sign. -/
def readSignedNumeral? : List Char → Option Float
  | '-' :: cs => (readNumeral? cs).map (-·)
  | '+' :: cs => readNumeral? cs
  | cs => readNumeral? cs

/-- Digits of a radix, without sign or mark.  Each step is rounded, so digits beyond the precision
of a number are not read exactly. -/
def readDigits? (radix : Nat) : List Char → Option Float
  | [] => none
  | cs =>
    cs.foldlM
      (fun acc c =>
        (digitValue? radix c).map fun d => acc * Float.ofNat radix + Float.ofNat d)
      0.0

/-- The radix that the first two characters of a text announce. -/
def markedRadix? : List Char → Option (Nat × List Char)
  | '0' :: mark :: rest =>
    if mark == 'x' || mark == 'X' then some (16, rest)
    else if mark == 'o' || mark == 'O' then some (8, rest)
    else if mark == 'b' || mark == 'B' then some (2, rest)
    else none
  | _ => none

/-- The number that a text converts to. -/
def ofText (text : String) : Float :=
  let cs := Text.trimBoth Text.isWhiteSpace text.toList
  if cs.isEmpty then 0.0
  else
    match markedRadix? cs with
    | some (radix, digits) => (readDigits? radix digits).getD nan
    | none =>
      if cs == "Infinity".toList || cs == "+Infinity".toList then infinity
      else if cs == "-Infinity".toList then -infinity
      else (readSignedNumeral? cs).getD nan

/-- A text without the blanks before its first other character, the byte order mark included. -/
def dropBlanks (cs : List Char) : List Char :=
  cs.dropWhile fun c => Text.isWhiteSpace c || c == Text.byteOrderMark

/-- A sign at the front of a text: whether it is a minus, and the rest. -/
def splitSign : List Char → Bool × List Char
  | '-' :: cs => (true, cs)
  | '+' :: cs => (false, cs)
  | cs => (false, cs)

/-- The integer at the front of a text, in the given radix.  Radix 0 stands for ten, or for
sixteen after its mark. -/
def readIntegerFront (text : String) (radix : Int) : Float :=
  let (negative, cs) := splitSign (dropBlanks text.toList)
  let afterMark? :=
    match cs with
    | '0' :: x :: rest => if x == 'x' || x == 'X' then some rest else none
    | _ => none
  let read (radix : Nat) (cs : List Char) : Float :=
    match readDigits? radix (cs.takeWhile fun c => (digitValue? radix c).isSome) with
    | some n => if negative then -n else n
    | none => nan
  if radix == 0 || radix == 16 then
    match afterMark? with
    | some rest => read 16 rest
    | none => read (if radix == 0 then 10 else 16) cs
  else if 2 ≤ radix && radix ≤ 36 then read radix.toNat cs
  else nan

/-- The longest numeral at the front of a list of characters, without its sign. -/
def numeralFront (cs : List Char) : List Char :=
  let (whole, rest) := spanDigits cs
  let (mantissa, rest) :=
    match rest with
    | '.' :: rest =>
      let (fraction, rest) := spanDigits rest
      (whole ++ '.' :: fraction, rest)
    | rest => (whole, rest)
  match rest with
  | e :: rest =>
    if e == 'e' || e == 'E' then
      let (sign, rest) :=
        match rest with
        | '+' :: rest => (['+'], rest)
        | '-' :: rest => (['-'], rest)
        | rest => ([], rest)
      let digits := rest.takeWhile isDecimalDigit
      if digits.isEmpty then mantissa else mantissa ++ e :: (sign ++ digits)
    else mantissa
  | [] => mantissa

/-- The number at the front of a text. -/
def readDecimalFront (text : String) : Float :=
  let (negative, cs) := splitSign (dropBlanks text.toList)
  let magnitude :=
    if "Infinity".toList.isPrefixOf cs then infinity
    else (readNumeral? (numeralFront cs)).getD nan
  if negative then -magnitude else magnitude

end EcmaEval.Number
