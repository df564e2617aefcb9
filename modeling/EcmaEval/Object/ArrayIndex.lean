import EcmaEval.Number.Read

/-!
# Array indices

A property key names an element of an array when it is the decimal text of a natural number below
`2 ^ 32 - 1`.  Leading zeros and signs make it an ordinary key.
-/

namespace EcmaEval

/-- One more than the greatest array index. -/
def arrayIndexLimit : Nat := Nat.pow 2 32 - 1

/-- The digits are the decimal text of a natural number. -/
def isCanonicalNumeral : List Char → Bool
  | [] => false
  | ['0'] => true
  | '0' :: _ => false
  | cs => cs.all Number.isDecimalDigit

/-- The array index that a key denotes. -/
def arrayIndex? (key : String) : Option Nat :=
  let cs := key.toList
  if isCanonicalNumeral cs then
    let n := Number.natOfDigits cs
    if n < arrayIndexLimit then some n else none
  else none

/-- The key of an array index. -/
def indexKey (i : Nat) : String := toString i

end EcmaEval
