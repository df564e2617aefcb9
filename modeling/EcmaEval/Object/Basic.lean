import EcmaEval.Object.Callable
import EcmaEval.Object.PropertyTable
import EcmaEval.Object.ArrayIndex

/-!
# Objects

An object has properties under names, a prototype, and a kind.  The elements of an array are held
apart from its named properties, and so is its length; `Object.getOwn?` shows them together, and
the writing operations sort a key to where it belongs.

## Main definitions

* `Object`: the properties, the prototype and the kind of an object
* `Object.getOwn?`: the property under a key
* `Object.setOwn`, `Object.define`, `Object.remove`: write, define and remove a property
* `Object.ownKeys`: the keys in the order in which they are listed
-/

namespace EcmaEval

/-- How a promise was settled. -/
inductive Settlement where
  | fulfilled (value : Value)
  | rejected (reason : Value)
  deriving Inhabited

/-- What waits for a promise: functions for its two outcomes, and the promise of their result. -/
structure Reaction where
  onFulfilled : Value
  onRejected : Value
  derived : ObjectId

/-- The state of a promise. -/
inductive PromiseState where
  /-- Not settled; `decided` tells whether its executor has used one of its functions, and the
  reactions stand in the order in which they came. -/
  | pending (decided : Bool) (reactions : List Reaction)
  | settled (outcome : Settlement)

/-- What an object is besides its properties. -/
inductive ObjectKind where
  | ordinary
  | array (elements : Array Value)
  | function (body : Callable)
  | error
  | promise (state : PromiseState)

/-- The class that an object was created as. -/
inductive ObjectClass where
  | object
  | array
  | function
  | error
  | promise
  | string
  | number
  | boolean
  | bigint
  deriving DecidableEq, Repr

/-- The name of a class of objects. -/
def ObjectClass.name : ObjectClass → String
  | .object => "Object"
  | .array => "Array"
  | .function => "Function"
  | .error => "Error"
  | .promise => "Promise"
  | .string => "String"
  | .number => "Number"
  | .boolean => "Boolean"
  | .bigint => "BigInt"

/-- The class of the objects of a kind. -/
def ObjectKind.objectClass : ObjectKind → ObjectClass
  | ordinary => .object
  | array _ => .array
  | function _ => .function
  | error => .error
  | promise _ => .promise

/-- An object. -/
structure Object where
  kind : ObjectKind
  prototype : Option ObjectId
  properties : PropertyTable
  objectClass : ObjectClass

/-- The greatest number of elements of an array. -/
def maxArrayLength : Nat := Nat.pow 2 22

/-- Elements cut or filled up with `undefined` to a count. -/
def resizeElements (elements : Array Value) (count : Nat) : Array Value :=
  if count ≤ elements.size then elements.shrink count
  else elements ++ Array.replicate (count - elements.size) .undefined

/-- Elements with the one at an index replaced, after filling up to it. -/
def writeElement (elements : Array Value) (i : Nat) (value : Value) : Array Value :=
  let elements := if i < elements.size then elements else resizeElements elements (i + 1)
  elements.setIfInBounds i value

namespace Object

/-- A new object without properties. -/
def new (prototype : Option ObjectId) (kind : ObjectKind) : Object where
  kind
  prototype
  properties := ∅
  objectClass := kind.objectClass

instance : Inhabited Object := ⟨new none .ordinary⟩

/-- The elements of an array. -/
def elements? (o : Object) : Option (Array Value) :=
  match o.kind with
  | .array elements => some elements
  | _ => none

/-- What a function object runs. -/
def callable? (o : Object) : Option Callable :=
  match o.kind with
  | .function body => some body
  | _ => none

/-- The state of a promise. -/
def promiseState? (o : Object) : Option PromiseState :=
  match o.kind with
  | .promise state => some state
  | _ => none

/-- The object is an array. -/
def isArray (o : Object) : Bool := o.elements?.isSome

/-- The object is a function. -/
def isCallable (o : Object) : Bool := o.callable?.isSome

/-- The object is a class. -/
def isClass (o : Object) : Bool :=
  match o.kind with
  | .function (.class _) => true
  | _ => false

/-- The object's own property of a key.  An array has its length and its elements as
properties. -/
def getOwn? (o : Object) (key : String) : Option Property :=
  match o.kind with
  | .array elements =>
    if key = "length" then some (.hidden (.ofNat elements.size))
    else
      match arrayIndex? key with
      | some i => elements[i]?.map .plain
      | none => o.properties.get? key
  | _ => o.properties.get? key

/-- The object has a property of its own under a key. -/
def hasOwn (o : Object) (key : String) : Bool := (o.getOwn? key).isSome

/-- The value that the object itself holds under a key; no function is called. -/
def ownValue? (o : Object) (key : String) : Option Value := (o.getOwn? key).bind Property.value?

/-- The text that the object itself holds under a key, empty if there is none. -/
def ownText (o : Object) (key : String) : String :=
  match o.ownValue? key with
  | some (.string s) => s.text
  | _ => ""

/-- The object with other elements. -/
def withElements (o : Object) (change : Array Value → Array Value) : Object :=
  match o with
  | { kind := .array elements, prototype, properties, objectClass } =>
    { kind := .array (change elements), prototype, properties, objectClass }
  | o => o

/-- The object with a property of its own.  An index of an array takes the value alone, unless it
is too great. -/
def define (o : Object) (key : String) (property : Property) : Object :=
  match o.isArray, arrayIndex? key with
  | true, some i =>
    match property.value? with
    | some value => if i < maxArrayLength then o.withElements (writeElement · i value) else o
    -- An accessor cannot stand for an element.
    | none => o
  | _, _ => { o with properties := o.properties.insert key property }

/-- The object with a listed value. -/
def insertPlain (o : Object) (key : String) (value : Value) : Object :=
  o.define key (.plain value)

/-- The object with a value that is not listed. -/
def insertHidden (o : Object) (key : String) (value : Value) : Object :=
  o.define key (.hidden value)

/-- The length that a value sets for an array. -/
def arrayLength? : Value → Option Nat
  | .number x =>
    match Number.toInt? x with
    | some n => if 0 ≤ n ∧ n ≤ maxArrayLength then some n.toNat else none
    | none => none
  | _ => none

/-- The object with a named property written as a value.  An accessor is left as it is, and so is a
value that may not be written. -/
def writeNamed (o : Object) (key : String) (value : Value) : Object :=
  { o with properties := o.properties.write key value }

/-- The object with a value written to a key of its own; no function is called.  Writing the length
of an array cuts or fills it. -/
def setOwn (o : Object) (key : String) (value : Value) : Object :=
  match o.isArray, arrayIndex? key with
  | true, some i => if i < maxArrayLength then o.withElements (writeElement · i value) else o
  | true, none =>
    if key = "length" then
      match arrayLength? value with
      | some count => o.withElements (resizeElements · count)
      | none => o
    else o.writeNamed key value
  | false, _ => o.writeNamed key value

/-- The object without a property, and whether the key may be removed.  An element of an array
becomes `undefined`. -/
def remove (o : Object) (key : String) : Object × Bool :=
  match o.isArray, arrayIndex? key with
  -- The elements behind it stay where they are.
  | true, some i => (o.withElements (·.setIfInBounds i .undefined), true)
  | true, none =>
    if key = "length" then (o, false)
    else ({ o with properties := o.properties.erase key }, true)
  | false, _ => ({ o with properties := o.properties.erase key }, true)

/-- Keys by their array index, least first. -/
def sortByIndex (keys : List (Nat × String)) : List (Nat × String) :=
  keys.mergeSort fun a b => a.1 ≤ b.1

/-- The array index of a key with the key. -/
def indexed? (key : String) : Option (Nat × String) :=
  (arrayIndex? key).map fun i => (i, key)

/-- The keys of the elements of an array. -/
def elementKeys (o : Object) : List (Nat × String) :=
  match o.elements? with
  | some elements => (List.range elements.size).map fun i => (i, indexKey i)
  | none => []

/-- The names under which properties are kept, all or only the listed ones. -/
def namedKeys (o : Object) (onlyEnumerable : Bool) : List String :=
  o.properties.listed onlyEnumerable

/-- The object's own keys: array indices from the least on, then the others in the order in which
they came. -/
def ownKeys (o : Object) (onlyEnumerable : Bool) : List String :=
  let named := o.namedKeys onlyEnumerable
  (sortByIndex (o.elementKeys ++ named.filterMap indexed?)).map Prod.snd ++
    named.filter fun key => (arrayIndex? key).isNone

end Object

end EcmaEval
