import EcmaEval.Text.Units

/-!
# Values

The values that programs compute with.  Objects live in a heap and frames of variables in a store
of their own; a value names an object, and a closure names a frame, by its place there.

## Main definitions

* `Value`: the values of programs
* `ObjectId`, `FrameId`: the places of objects and frames
-/

namespace EcmaEval

/-- The place of an object in a heap. -/
structure ObjectId where
  index : Nat
  deriving DecidableEq, Inhabited, Repr

/-- The place of a frame in a store of frames. -/
structure FrameId where
  index : Nat
  deriving DecidableEq, Inhabited, Repr

/-- A value. -/
inductive Value where
  | undefined
  | null
  | boolean (value : Bool)
  | number (value : Float)
  | string (value : UnitString)
  | bigint (value : Int)
  | object (id : ObjectId)
  deriving Inhabited

namespace Value

/-- The string value of a text. -/
def ofText (s : String) : Value := .string (.ofString s)

/-- The number value of a natural number. -/
def ofNat (n : Nat) : Value := .number (Float.ofNat n)

/-- The value is `undefined`. -/
def isUndefined : Value → Bool
  | undefined => true
  | _ => false

/-- The value stands for the absence of one. -/
def isNullish : Value → Bool
  | undefined | null => true
  | _ => false

/-- The object that the value is. -/
def object? : Value → Option ObjectId
  | object id => some id
  | _ => none

/-- The value is an object. -/
def isObject (v : Value) : Bool := v.object?.isSome

/-- The value is a string. -/
def isString : Value → Bool
  | string _ => true
  | _ => false

/-- The value with a place in a list of arguments; a missing one is `undefined`. -/
def argument (args : List Value) (i : Nat) : Value := args.getD i .undefined

end Value

end EcmaEval
