import EcmaEval.Number.Read

/-!
# Unbounded integers as text

An integer is written in a radix with its sign in front.  A text is read as an integer in radix
ten with an optional sign, or in radix 2, 8 or 16 after a mark.

## Main definitions

* `Integer.toText`: the decimal text of an integer
* `Integer.ofText?`: the integer that a text denotes
-/

namespace EcmaEval.Integer

/-- The digits of a natural number in a radix from 2 to 36. -/
def natDigits (radix n : Nat) : List Char :=
  go radix (Nat.log2 n + 1) n []
where
  /-- Takes digits off `n`, least first, and puts them before `digits`. -/
  go (radix : Nat) : (fuel : Nat) → Nat → List Char → List Char
    | 0, _, digits => digits
    | fuel + 1, n, digits =>
      let d := n % radix
      let c := if d < 10 then Char.ofNat (0x30 + d) else Char.ofNat (0x61 + (d - 10))
      if n / radix == 0 then c :: digits else go radix fuel (n / radix) (c :: digits)

/-- The text of an integer in a radix. -/
def toRadixText (x : Int) (radix : Nat) : String :=
  let digits := natDigits radix x.natAbs
  String.ofList (if x < 0 then '-' :: digits else digits)

/-- The decimal text of an integer. -/
def toText (x : Int) : String := toString x

/-- Digits of a radix, at least one, with underscores allowed after the first. -/
def readNat? (radix : Nat) (cs : List Char) : Option Nat :=
  match cs with
  | [] => none
  | '_' :: _ => none
  | cs =>
    cs.foldlM
      (fun n c =>
        if c == '_' then some n
        else (Number.digitValue? radix c).map fun d => radix * n + d)
      0

/-- An integer with an optional sign in radix ten. -/
def readSigned? : List Char → Option Int
  | '-' :: cs => (readNat? 10 cs).map fun n => -(n : Int)
  | '+' :: cs => (readNat? 10 cs).map fun n => (n : Int)
  | cs => (readNat? 10 cs).map fun n => (n : Int)

/-- The integer that a text denotes: white space around it is dropped, and an empty text is
zero. -/
def ofText? (text : String) : Option Int :=
  let cs := Text.trimBoth Text.isWhiteSpace text.toList
  if cs.isEmpty then some 0
  else
    match Number.markedRadix? cs with
    | some (radix, digits) => (readNat? radix digits).map fun n => (n : Int)
    | none => readSigned? cs

end EcmaEval.Integer
