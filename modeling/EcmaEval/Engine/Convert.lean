import EcmaEval.Engine.Access

/-!
# Conversion

Conversions call the methods of objects; those of primitive values are fixed.

## Main definitions

* `Engine.toPrimitive`: the value that stands for an object
* `Engine.toNumeric`: a number or an unbounded integer
* `Engine.toKey`: the key that a value is as a property
* `Engine.set`: writes a property of a value
* `Engine.iterate`: the values that a value lists
* `Engine.instanceOf`: a value is an instance of a constructor
-/

namespace EcmaEval

/-- Which primitive value of an object is wanted. -/
inductive Preference where
  | number
  | string
  deriving DecidableEq, Repr

/-- The methods that may give the primitive value of an object, in the order in which they are
asked. -/
def Preference.methods : Preference → List String
  | .number => ["valueOf", "toString"]
  | .string => ["toString", "valueOf"]

/-- A value for arithmetic. -/
inductive Numeric where
  | number (value : Float)
  | bigint (value : Int)
  deriving Inhabited

/-- A value for arithmetic as a value. -/
def Numeric.toValue : Numeric → Value
  | number x => .number x
  | bigint n => .bigint n

/-- The value for arithmetic of a primitive value. -/
def Numeric.ofPrimitive : Value → Numeric
  | .bigint n => .bigint n
  | v => .number v.toNumber

namespace Engine

open EcmaEval.Action

variable (engine : Engine)

/-- The first primitive value that one of some methods of an object gives. -/
def primitiveByMethods (id : ObjectId) : List String → Action Value
  | [] => throwFault .noPrimitive
  | method :: rest => do
    let f ← engine.getOf id method
    if ← readHeap (·.isCallable f) then
      let result ← engine.callValue f (.object id) []
      if result.isObject then primitiveByMethods id rest else return result
    else primitiveByMethods id rest

/-- The primitive value of a value. -/
def toPrimitive (v : Value) (preference : Preference) : Action Value :=
  match v with
  | .object id => engine.primitiveByMethods id preference.methods
  | v => return v

/-- The string of a primitive value. -/
def unitsOfPrimitive : Value → UnitString
  | .string s => s
  | v => .ofString v.primitiveText

/-- The string of a value. -/
def toUnits (v : Value) : Action UnitString := do
  return unitsOfPrimitive (← engine.toPrimitive v .string)

/-- The text of the string of a value. -/
def toText (v : Value) : Action String := do
  return (← engine.toUnits v).text

/-- The number of a value. -/
def toNumber (v : Value) : Action Float := do
  return (← engine.toPrimitive v .number).toNumber

/-- The value for arithmetic of a value. -/
def toNumeric (v : Value) : Action Numeric := do
  return .ofPrimitive (← engine.toPrimitive v .number)

/-- The property key of a value. -/
def toKey (v : Value) : Action String :=
  match v with
  | .string s => return s.text
  | .number x => return Value.keyOfNumber x
  | v => engine.toText v

/-- Equality with conversion. -/
def looseEqual (v w : Value) : Action Bool := do
  match v, w with
  | .object _, .object _ => return v.strictEqual w
  | .object _, _ =>
    if w.isNullish then return false
    return (← engine.toPrimitive v .number).looseEqual w
  | _, .object _ =>
    if v.isNullish then return false
    return v.looseEqual (← engine.toPrimitive w .number)
  | _, _ => return v.looseEqual w

/-- A value written to an array: the length is converted to a number, and neither it nor an index
may be too great. -/
def checkArrayWrite (key : String) (value : Value) : Action Value := do
  if key = "length" then
    let x ← engine.toNumber value
    if (Object.arrayLength? (.number x)).isSome then return .number x
    throwFault .arrayLength
  match arrayIndex? key with
  | some i => if i < maxArrayLength then return value else throwFault .arrayLength
  | none => return value

/-- Writes a value of the receiver's own. -/
def writeOwn (receiver : Value) (key : String) (value : Value) : Action Unit := do
  match receiver with
  | .object id =>
    let value ←
      if ← readHeap fun h => (h.get id).isArray then engine.checkArrayWrite key value
      else pure value
    modifyObject id (·.setOwn key value)
  | _ => return

/-- Writes under a key for a receiver.  A function that an object or its prototypes have for that
is called; otherwise the receiver gets a value of its own. -/
def setProperty (id : ObjectId) (key : String) (value receiver : Value) : Action Unit := do
  match ← readHeap (·.find? id key) with
  | some (.accessor _ (some setter) _) =>
    let _ ← engine.callValue setter receiver [value]
  -- What is written to a getter alone is dropped.
  | some (.accessor (some _) none _) => return
  | _ => engine.writeOwn receiver key value

/-- Writes under a key of a value.  A primitive value drops what is written. -/
def set (target : Value) (key : String) (value : Value) : Action Unit :=
  match target with
  | .undefined | .null => throwFault (.writeOfNullish key target.primitiveText)
  | .object id => engine.setProperty id key value target
  | _ => return

/-- The values of an array or the characters of a string. -/
def iterate (v : Value) : Action (Array Value) := do
  match v with
  | .string s => return (s.text.toList.map fun c => .ofText c.toString).toArray
  | .object id =>
    match ← readHeap fun h => (h.get id).elements? with
    | some elements => return elements
    | none => throwFault (.notIterable (← readHeap (·.inspect v)))
  | v => throwFault (.notIterable (← readHeap (·.inspect v)))

/-- The function that a bound function calls in the end, looking through at most `fuel` of them. -/
def unbound (h : Heap) : (fuel : Nat) → ObjectId → ObjectId
  | 0, id => id
  | fuel + 1, id =>
    match (h.get id).callable? with
    | some (.bound target _ _) => unbound h fuel target
    | _ => id

/-- The value was constructed by a constructor, or inherits from an object that could have been. -/
def instanceOf (v constructor : Value) : Action Bool := do
  match constructor, ← readHeap (·.isCallable constructor) with
  | .object id, true =>
    let target ← readHeap fun h => unbound h h.size id
    match v with
    | .object o =>
      match ← engine.getOf target "prototype" with
      -- The object itself is not one of its own prototypes.
      | .object prototype => readHeap fun h => (h.chain o).tail.contains prototype
      | _ => throwFault .instanceOfNonObject
    | _ => return false
  | _, _ => throwFault .instanceOfNonFunction

/-- The elements of an array, or the values of an object under the indices below its length. -/
def listElements (id : ObjectId) : Action (Array Value) := do
  match ← readHeap fun h => (h.get id).elements? with
  | some elements => return elements
  | none =>
    let length := Number.toIntegerOrInfinity (← engine.toNumber (← engine.getOf id "length"))
    if Float.ofNat maxArrayLength < length then throwFault .arrayLength
    let count := Number.clampIndex length maxArrayLength
    let values ← (List.range count).mapM fun i => engine.getOf id (indexKey i)
    return values.toArray

end Engine

end EcmaEval
