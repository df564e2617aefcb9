import EcmaEval.Engine.Convert
import EcmaEval.Number.Arithmetic

/-!
# `Number`, `Boolean`, `BigInt` and `Math`

The functions of the primitive types without parts, the functions of `Math`, and the global
functions, which all read numbers.
-/

namespace EcmaEval.Engine

open EcmaEval.Action

variable (engine : Engine)

/-- The fault of a method of a primitive type that was called on something else. -/
def wrongReceiver {α : Type} (typeName : String) (signature : String × Nat) : Action α :=
  throwFault (.primitiveReceiver typeName signature.1)

/-- The radix of an optional argument. -/
def radixArgument (v : Value) : Action Nat := do
  if v.isUndefined then return 10
  let radix := Number.toIntegerOrInfinity (← engine.toNumber v)
  if 2.0 ≤ radix && radix ≤ 36.0 then return Number.clampIndex radix 36
  throwFault .radix

/-- The number of places of an argument. -/
def placesArgument (v : Value) : Action Nat := do
  let places := Number.toIntegerOrInfinity (← engine.toNumber v)
  if 0.0 ≤ places && places ≤ 100.0 then return Number.clampIndex places 100
  throwFault .fixedPlaces

/-- A test of a number; any other value fails it. -/
def testNumber (v : Value) (p : Float → Bool) : Value :=
  match v with
  | .number x => .boolean (p x)
  | _ => .boolean false

/-- Calls a method of numbers, or a function of `Number`. -/
def callNumber (f : NumberFunction) (this : Value) (args : List Value) : Action Value := do
  let first := Value.argument args 0
  match f with
  | .construct =>
    match args with
    | [] => return .number 0.0
    | v :: _ =>
      match ← engine.toNumeric v with
      | .number x => return .number x
      | .bigint n => return .number (Integer.toNumber n)
  | .isInteger => return testNumber first Number.isIntegral
  | .isNaN => return testNumber first Float.isNaN
  | .isFinite => return testNumber first Float.isFinite
  | method =>
    match this with
    | .number x =>
      match method with
      | .toString => return .ofText (Number.toRadixText x (← engine.radixArgument first))
      | .toFixed => return .ofText (Number.toFixedText x (← engine.placesArgument first))
      | _ => return this
    | _ => wrongReceiver "Number" method.signature

/-- Calls a method of booleans, or `Boolean`. -/
def callBoolean (f : WrapperFunction) (this : Value) (args : List Value) : Action Value :=
  match f, this with
  | .construct, _ => return .boolean (Value.argument args 0).isTrue
  | .toString, .boolean _ => return .ofText this.primitiveText
  | .valueOf, .boolean _ => return this
  | f, _ => wrongReceiver "Boolean" (f.signature "Boolean")

/-- The integer that a primitive value converts to. -/
def toInteger (v : Value) : Action Int :=
  match v with
  | .bigint n => return n
  | .boolean b => return if b then 1 else 0
  | .number x =>
    orElseThrow (Integer.ofNumber? x) (throwFault (.bigintFromFraction (Number.toText x)))
  | .string s => orElseThrow (Integer.ofText? s.text) (throwFault (.bigintFromText s.text))
  | v => throwFault (.bigintFromOther v.primitiveText)

/-- Calls a method of integers, or `BigInt`. -/
def callInteger (f : WrapperFunction) (this : Value) (args : List Value) : Action Value := do
  match f, this with
  | .construct, _ =>
    return .bigint (← toInteger (← engine.toPrimitive (Value.argument args 0) .number))
  | .toString, .bigint n =>
    return .ofText (Integer.toRadixText n (← engine.radixArgument (Value.argument args 0)))
  | .valueOf, .bigint _ => return this
  | f, _ => wrongReceiver "BigInt" (f.signature "BigInt")

/-- Calls a function of `Math`. -/
def callMath (f : MathFunction) (args : List Value) : Action Value := do
  let onFirst (g : Float → Float) : Action Value := do
    return .number (g (← engine.toNumber (Value.argument args 0)))
  let onAll (g : Float → Float → Float) (start : Float) : Action Value := do
    return .number ((← args.mapM engine.toNumber).foldl g start)
  match f with
  | .abs => onFirst Float.abs
  | .floor => onFirst Number.floor
  | .ceil => onFirst Number.ceil
  | .round => onFirst Number.round
  | .trunc => onFirst Number.trunc
  | .sign => onFirst Number.sign
  | .sqrt => onFirst Float.sqrt
  | .cbrt => onFirst Number.cubeRoot
  | .pow =>
    let base ← engine.toNumber (Value.argument args 0)
    let exponent ← engine.toNumber (Value.argument args 1)
    return .number (Number.power base exponent)
  | .max => onAll Number.max (-Number.infinity)
  | .min => onAll Number.min Number.infinity

/-- Calls a global function. -/
def callGlobal (f : GlobalFunction) (args : List Value) : Action Value := do
  let first := Value.argument args 0
  match f with
  | .parseInt =>
    let text ← engine.toText first
    let radix := Number.toInt32 (← engine.toNumber (Value.argument args 1))
    return .number (Number.readIntegerFront text radix)
  | .parseFloat => return .number (Number.readDecimalFront (← engine.toText first))
  | .isNaN => return .boolean (← engine.toNumber first).isNaN
  | .isFinite => return .boolean (← engine.toNumber first).isFinite

end EcmaEval.Engine
