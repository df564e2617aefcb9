import EcmaEval.Engine.Convert
import EcmaEval.Number.Words
import EcmaEval.Program.Operator

/-!
# Operators

What the operators make of values.

## Main definitions

* `ArithmeticOperator`: the operators that take two numbers or two integers
* `Engine.add`: the sum or the joined text of two values
* `Engine.binary`: an operator with two operands
* `Heap.typeOf`: the type of a value as a text
-/

namespace EcmaEval

/-- The type of a value, as the program sees it. -/
def Heap.typeOf (h : Heap) : Value → String
  | .undefined => "undefined"
  | .null => "object"
  | .boolean _ => "boolean"
  | .number _ => "number"
  | .string _ => "string"
  | .bigint _ => "bigint"
  | .object id => if (h.get id).isCallable then "function" else "object"

/-- An operator of two numbers or two integers. -/
inductive ArithmeticOperator where
  | add
  | subtract
  | multiply
  | divide
  | modulo
  | power
  | leftShift
  | rightShift
  | unsignedRightShift
  | bitwiseAnd
  | bitwiseOr
  | bitwiseXor
  deriving DecidableEq, Repr

namespace ArithmeticOperator

/-- The operator on numbers. -/
def onNumbers : ArithmeticOperator → Float → Float → Float
  | add, x, y => x + y
  | subtract, x, y => x - y
  | multiply, x, y => x * y
  | divide, x, y => x / y
  | modulo, x, y => Number.remainder x y
  | power, x, y => Number.power x y
  | leftShift, x, y => Number.leftShift x y
  | rightShift, x, y => Number.signedRightShift x y
  | unsignedRightShift, x, y => Number.unsignedRightShift x y
  | bitwiseAnd, x, y => Number.bitwiseAnd x y
  | bitwiseOr, x, y => Number.bitwiseOr x y
  | bitwiseXor, x, y => Number.bitwiseXor x y

/-- A result that may be missing, with the fault for that. -/
def faulty (result : Except Integer.Failure Int) : Except Fault Int :=
  result.mapError .integer

/-- The operator on integers. -/
def onIntegers : ArithmeticOperator → Int → Int → Except Fault Int
  | add, m, n => .ok (m + n)
  | subtract, m, n => .ok (m - n)
  | multiply, m, n => .ok (m * n)
  | divide, m, n => faulty (Integer.divide m n)
  | modulo, m, n => faulty (Integer.remainder m n)
  | power, m, n => faulty (Integer.power m n)
  | leftShift, m, n => .ok (Integer.leftShift m n)
  | rightShift, m, n => .ok (Integer.rightShift m n)
  | unsignedRightShift, _, _ => .error .bigintUnsignedShift
  | bitwiseAnd, m, n => .ok (Integer.bitwiseAnd m n)
  | bitwiseOr, m, n => .ok (Integer.bitwiseOr m n)
  | bitwiseXor, m, n => .ok (Integer.bitwiseXor m n)

/-- The operator on values for arithmetic, which have to be of one type. -/
def apply (op : ArithmeticOperator) : Numeric → Numeric → Except Fault Value
  | .number x, .number y => .ok (.number (op.onNumbers x y))
  | .bigint m, .bigint n => (op.onIntegers m n).map .bigint
  | _, _ => .error .mixedBigint

end ArithmeticOperator

namespace Engine

open EcmaEval.Action

variable (engine : Engine)

/-- Gives a value or throws a fault. -/
def orFault {α : Type} : Except Fault α → Action α
  | .ok x => pure x
  | .error f => throwFault f

/-- An arithmetic operator on values. -/
def arithmetic (op : ArithmeticOperator) (v w : Value) : Action Value := do
  let left ← engine.toNumeric v
  let right ← engine.toNumeric w
  orFault (op.apply left right)

/-- The sum of two values: strings are put together, and all else is added. -/
def add (v w : Value) : Action Value := do
  let left ← engine.toPrimitive v .number
  let right ← engine.toPrimitive w .number
  if left.isString || right.isString then
    return .string (unitsOfPrimitive left ++ unitsOfPrimitive right)
  orFault (ArithmeticOperator.add.apply (.ofPrimitive left) (.ofPrimitive right))

/-- `v < w`, undefined where one of them is not a number.  The left value is converted first. -/
def less (v w : Value) : Action (Option Bool) := do
  let left ← engine.toPrimitive v .number
  let right ← engine.toPrimitive w .number
  return left.lessThan right

/-- `w < v`, with the value `v` on the left of the operator converted first. -/
def lessFlipped (v w : Value) : Action (Option Bool) := do
  let left ← engine.toPrimitive v .number
  let right ← engine.toPrimitive w .number
  return right.lessThan left

/-- An object has or inherits a key. -/
def hasKey (key object : Value) : Action Bool := do
  match object with
  | .object id =>
    let key ← engine.toKey key
    readHeap (·.has id key)
  | object =>
    let key ← engine.toText key
    throwFault (.keyInNonObject key (← readHeap (·.inspect object)))

/-- A binary operator on values. -/
def binary (op : BinaryOperator) (v w : Value) : Action Value :=
  match op with
  | .add => engine.add v w
  | .subtract => engine.arithmetic .subtract v w
  | .multiply => engine.arithmetic .multiply v w
  | .divide => engine.arithmetic .divide v w
  | .modulo => engine.arithmetic .modulo v w
  | .power => engine.arithmetic .power v w
  | .leftShift => engine.arithmetic .leftShift v w
  | .rightShift => engine.arithmetic .rightShift v w
  | .unsignedRightShift => engine.arithmetic .unsignedRightShift v w
  | .bitwiseAnd => engine.arithmetic .bitwiseAnd v w
  | .bitwiseOr => engine.arithmetic .bitwiseOr v w
  | .bitwiseXor => engine.arithmetic .bitwiseXor v w
  | .equal => return .boolean (← engine.looseEqual v w)
  | .notEqual => return .boolean (!(← engine.looseEqual v w))
  | .strictEqual => return .boolean (v.strictEqual w)
  | .strictNotEqual => return .boolean (!v.strictEqual w)
  | .less => return .boolean ((← engine.less v w) == some true)
  | .greater => return .boolean ((← engine.lessFlipped v w) == some true)
  | .lessOrEqual => return .boolean ((← engine.lessFlipped v w) == some false)
  | .greaterOrEqual => return .boolean ((← engine.less v w) == some false)
  | .hasKey => return .boolean (← engine.hasKey v w)
  | .instanceOf => return .boolean (← engine.instanceOf v w)

/-- The number of a value, for the operator that converts to one. -/
def plus (v : Value) : Action Value := do
  match ← engine.toNumeric v with
  | .number x => return .number x
  | .bigint _ => throwFault .bigintToNumber

/-- The opposite of a value. -/
def minus (v : Value) : Action Value := do
  match ← engine.toNumeric v with
  | .number x => return .number (Number.unaryMinus x)
  | .bigint n => return .bigint (-n)

/-- A value with its bits turned over. -/
def bitwiseNot (v : Value) : Action Value := do
  match ← engine.toNumeric v with
  | .number x => return .number (Number.bitwiseNot x)
  | .bigint n => return .bigint (Integer.bitwiseNot n)

end Engine

/-- A value for arithmetic after a step. -/
def UpdateOperator.apply : UpdateOperator → Numeric → Numeric
  | .increment, .number x => .number (x + 1.0)
  | .increment, .bigint n => .bigint (n + 1)
  | .decrement, .number x => .number (x - 1.0)
  | .decrement, .bigint n => .bigint (n - 1)

/-- A logical operator gives its first operand. -/
def LogicalOperator.keeps : LogicalOperator → Value → Bool
  | .and, v => !v.isTrue
  | .or, v => v.isTrue
  | .coalesce, v => !v.isNullish

end EcmaEval
