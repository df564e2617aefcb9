import EcmaEval.Engine.Convert
import EcmaEval.Number.Words
import EcmaEval.Text.Case
import EcmaEval.Text.Blank

/-!
# `String`

The functions of `String` and the methods of strings.

## Main definitions

* `Engine.splitUnits`: the pieces of a string between separators
* `Engine.callStringMethod`: the methods of strings
* `Engine.maxStringLength`: the limit for strings that are made by repeating
-/

namespace EcmaEval.Engine

open EcmaEval.Action

variable (engine : Engine)

/-- The greatest number of units that repetition and padding build. -/
def maxStringLength : Nat := Nat.pow 2 29 - 24

/-- The string that a method works on. -/
def receivedUnits (this : Value) (method : StringMethod) : Action UnitString :=
  match this with
  | .string s => return s
  | .undefined | .null => throwFault (.stringReceiver method.signature.1)
  | v => engine.toUnits v

/-- The number without fraction of an optional argument. -/
def integerArgument (arg : Option Value) (default : Float) : Action Float := do
  match arg with
  | none | some .undefined => return default
  | some v => return Number.toIntegerOrInfinity (← engine.toNumber v)

/-- The index of an optional argument, cut to the bounds 0 and `size`. -/
def clampedArgument (arg : Option Value) (default size : Nat) : Action Nat := do
  return Number.clampIndex (← engine.integerArgument arg (Float.ofNat default)) size

/-- The index that an optional argument names in a string; no object is converted. -/
def unitIndex (arg : Option Value) (size default : Nat) : Nat :=
  match arg with
  | none | some .undefined => default
  | some v => Number.relativeIndex v.toNumber size

/-- The value of an index that may be missing. -/
def indexValue : Option Nat → Value
  | some i => .ofNat i
  | none => .number (-1.0)

/-- The strings before each occurrence of `separator` from index `start` on, and the rest of the
string.  A separator is not empty, so that there are at most as many as there are units. -/
def splitUnits (s separator : UnitString) : (fuel start : Nat) → List UnitString
  | 0, start => [s.slice start s.size]
  | fuel + 1, start =>
    match s.indexOf? separator start with
    | some found => s.slice start found :: splitUnits s separator fuel (found + separator.size)
    | none => [s.slice start s.size]

/-- The pieces of a string between separators; an empty separator stands between all units. -/
def pieces (s separator : UnitString) : List UnitString :=
  if separator.isEmpty then (List.range s.size).map s.unitAt
  else splitUnits s separator s.size 0

/-- The greatest number of pieces, if no other is given. -/
def maxPieces : Nat := Nat.pow 2 32 - 1

/-- An array of the pieces of a string. -/
def splitString (s : UnitString) (args : List Value) : Action Value := do
  -- The limit is converted before the separator.
  let limit ←
    match Value.argument args 1 with
    | .undefined => pure maxPieces
    | v => do pure (Number.toUInt32 (← engine.toNumber v)).toNat
  let parts ←
    match Value.argument args 0 with
    | .undefined => pure [s]
    | v => do pure (pieces s (← engine.toUnits v))
  newArrayOf ((parts.take limit).map .string)

/-- A string filled up to a length on one side. -/
def padString (s : UnitString) (args : List Value) (atStart : Bool) : Action UnitString := do
  let target ← engine.integerArgument args[0]? 0.0
  let filler ←
    match Value.argument args 1 with
    | .undefined => pure (UnitString.ofString " ")
    | v => engine.toUnits v
  -- A string that is long enough needs no filler, whatever the limit.
  if target ≤ Float.ofNat s.size || filler.isEmpty then return s
  if Float.ofNat maxStringLength < target then throwFault .stringLength
  let fill := filler.cycle (Number.clampIndex target maxStringLength - s.size)
  return if atStart then fill ++ s else s ++ fill

/-- Copies of a string, one after the other. -/
def repeatString (s : UnitString) (count : Float) : Action UnitString := do
  if count < 0.0 || count.isInf then throwFault (.repeatCount (Number.toText count))
  if s.isEmpty || Number.isZero count then return ∅
  if Float.ofNat maxStringLength < Float.ofNat s.size * count then throwFault .stringLength
  return s.replicate (Number.clampIndex count maxStringLength)

/-- The last index at which a string occurs, from the index that an argument names downwards. -/
def lastIndex (s search : UnitString) (arg : Value) : Action (Option Nat) := do
  let greatest := s.size - search.size
  let start ←
    match arg with
    | .undefined => pure greatest
    | v => do
      let x ← engine.toNumber v
      pure (if x.isNaN then greatest
        else Number.clampIndex (Number.toIntegerOrInfinity x) greatest)
  return if s.size < search.size then none else s.lastIndexOf? search start

/-- Calls a method of strings. -/
def callStringMethod (method : StringMethod) (s : UnitString) (args : List Value) :
    Action Value := do
  let first := Value.argument args 0
  match method with
  | .charAt =>
    let x ← engine.integerArgument args[0]? 0.0
    if x < 0.0 || Float.ofNat s.size ≤ x then return .string ∅
    return .string (s.unitAt (Number.clampIndex x s.size))
  | .charCodeAt =>
    let x ← engine.integerArgument args[0]? 0.0
    if x < 0.0 then return .number Number.nan
    match s.units[Number.clampIndex x s.size]? with
    | some u => return .ofNat u.toNat
    | none => return .number Number.nan
  | .indexOf =>
    let search ← engine.toUnits first
    return indexValue (s.indexOf? search (← engine.clampedArgument args[1]? 0 s.size))
  | .lastIndexOf =>
    let search ← engine.toUnits first
    return indexValue (← engine.lastIndex s search (Value.argument args 1))
  | .includes =>
    let search ← engine.toUnits first
    let start ← engine.clampedArgument args[1]? 0 s.size
    return .boolean (s.indexOf? search start).isSome
  | .startsWith =>
    let search ← engine.toUnits first
    let start ← engine.clampedArgument args[1]? 0 s.size
    return .boolean ((s.slice start s.size).startsWith search)
  | .endsWith =>
    let search ← engine.toUnits first
    let stop ← engine.clampedArgument args[1]? s.size s.size
    return .boolean ((s.slice 0 stop).endsWith search)
  | .slice =>
    let start := unitIndex args[0]? s.size 0
    return .string (s.slice start (unitIndex args[1]? s.size s.size))
  | .substring =>
    let start ← engine.clampedArgument args[0]? 0 s.size
    let stop ← engine.clampedArgument args[1]? s.size s.size
    return .string (s.slice (min start stop) (max start stop))
  | .toUpperCase => return .string (.ofChars (Text.toUpper s.text.toList))
  | .toLowerCase => return .string (.ofChars (Text.toLower s.text.toList))
  | .trim => return .string ((s.dropFront Text.isBlankUnit).dropBack Text.isBlankUnit)
  | .trimStart => return .string (s.dropFront Text.isBlankUnit)
  | .trimEnd => return .string (s.dropBack Text.isBlankUnit)
  | .split => engine.splitString s args
  | .repetition => return .string (← repeatString s (← engine.integerArgument args[0]? 0.0))
  | .padStart => return .string (← engine.padString s args true)
  | .padEnd => return .string (← engine.padString s args false)
  | .concat =>
    let parts ← args.mapM engine.toUnits
    return .string (parts.foldl (· ++ ·) s)

/-- The code unit of a value. -/
def toUnit (v : Value) : Action UInt16 := do
  return (Number.toUInt32 (← engine.toNumber v)).toUInt16

/-- Calls a function of `String`. -/
def callString (f : StringFunction) (this : Value) (args : List Value) : Action Value := do
  match f with
  | .construct =>
    match args with
    | [] => return .string ∅
    | v :: _ => return .string (← engine.toUnits v)
  | .fromCharCode => return .string ⟨(← args.mapM engine.toUnit).toArray⟩
  | .method m => engine.callStringMethod m (← engine.receivedUnits this m) args
  | .toString | .valueOf =>
    match this with
    | .string _ => return this
    | _ => throwFault (.primitiveReceiver "String" f.signature.1)

end EcmaEval.Engine
