import EcmaEval.Value.Basic
import EcmaEval.Number.Arithmetic
import EcmaEval.Number.Text
import EcmaEval.Integer.Arithmetic
import EcmaEval.Integer.Text

/-!
# Conversion and comparison of primitive values

Everything here looks at a value alone.  An object is true, converts to no number and equals itself
only; what its methods make of it is decided elsewhere.

## Main definitions

* `Value.strictEqual`, `Value.looseEqual`, `Value.sameValueZero`: the equalities of values
* `Value.lessThan`: the order of numbers, integers and strings
* `Value.toNumber`, `Value.primitiveText`: the number and the text of a primitive value
-/

namespace EcmaEval.Value

/-- The truth of a value. -/
def isTrue : Value → Bool
  | undefined | null => false
  | boolean b => b
  | number x => !(Number.isZero x || x.isNaN)
  | string s => !s.isEmpty
  | bigint n => n ≠ 0
  | object _ => true

/-- The number that a primitive value converts to. -/
def toNumber : Value → Float
  | undefined | object _ => Number.nan
  | null => 0.0
  | boolean b => if b then 1.0 else 0.0
  | number x => x
  | string s => Number.ofText s.text
  | bigint n => Integer.toNumber n

/-- The text of a value; `className` writes the class of an object. -/
def textWith (className : ObjectId → String) : Value → String
  | undefined => "undefined"
  | null => "null"
  | boolean b => if b then "true" else "false"
  | number x => Number.toText x
  | string s => s.text
  | bigint n => Integer.toText n
  | object id => "[object " ++ className id ++ "]"

/-- The text of a primitive value. -/
def primitiveText (v : Value) : String := v.textWith fun _ => "Object"

/-- The key of a property that a number names. -/
def keyOfNumber (x : Float) : String := Number.toText x

/-- Equality without conversion. -/
def strictEqual : Value → Value → Bool
  | undefined, undefined => true
  | null, null => true
  | boolean a, boolean b => a == b
  | number x, number y => Number.equal x y
  | string s, string t => s == t
  | bigint m, bigint n => m == n
  | object p, object q => p == q
  | _, _ => false

/-- Equality without conversion under which the not-a-number equals itself. -/
def sameValueZero : Value → Value → Bool
  | number x, number y => Number.sameValueZero x y
  | v, w => strictEqual v w

/-- A number equals an integer as an exact value. -/
def numberEqualsInteger (x : Float) (n : Int) : Bool :=
  Integer.ofNumber? x == some n

/-- A boolean as a number, any other value as it is. -/
def unboolean : Value → Value
  | boolean b => number (if b then 1.0 else 0.0)
  | v => v

/-- Equality of two primitive values that are no booleans.  A string is compared with a number as a
number, and with an integer as an integer. -/
def mixedEqual : Value → Value → Bool
  | null, undefined | undefined, null => true
  | number x, string s | string s, number x => Number.equal x (Number.ofText s.text)
  | bigint n, string s | string s, bigint n => Integer.ofText? s.text == some n
  | bigint n, number x | number x, bigint n => numberEqualsInteger x n
  | v, w => strictEqual v w

/-- Equality of primitive values with conversion. -/
def looseEqual : Value → Value → Bool
  | boolean a, boolean b => a == b
  | v, w => mixedEqual v.unboolean w.unboolean

/-- `v < w` for primitive values, undefined where one of them converts to no number.  Two strings
are ordered by their units, two integers as they are, and all else as numbers. -/
def lessThan : Value → Value → Option Bool
  | string s, string t => some (s.compare t == .lt)
  | bigint m, bigint n => some (m < n)
  | v, w => Number.lessThan v.toNumber w.toNumber

end EcmaEval.Value
