import EcmaEval.Machine.Basic

/-!
# Creating objects

Objects of each kind, with the prototypes of the realm.
-/

namespace EcmaEval.Action

/-- An ordinary object with a prototype. -/
def newObjectWith (prototype : Option ObjectId) : Action ObjectId :=
  allocate (.new prototype .ordinary)

/-- An ordinary object. -/
def newObject : Action ObjectId := do
  newObjectWith (← readRealm (·.objectPrototype))

/-- An array. -/
def newArray (elements : Array Value) : Action Value := do
  let prototype ← readRealm (·.arrayPrototype)
  return .object (← allocate (.new prototype (.array elements)))

/-- An array of the elements of a list. -/
def newArrayOf (elements : List Value) : Action Value := newArray elements.toArray

/-- A promise. -/
def newPromise : Action ObjectId := do
  let prototype ← readRealm (·.promisePrototype)
  allocate (.new prototype (.promise (.pending false [])))

/-- A function of the program has a prototype for the objects that it constructs. -/
def needsPrototype : Callable → Bool
  | .closure node _ home => node.constructs home
  | _ => false

/-- A function object with its name and the number of arguments it announces. -/
def newFunction (body : Callable) (name : String) (length : Nat) : Action ObjectId := do
  let prototype ← readRealm (·.functionPrototype)
  let id ← allocate <|
    (Object.new prototype (.function body)).define "length" (.fixed (.ofNat length))
      |>.define "name" (.fixed (.ofText name))
  if needsPrototype body then
    -- The function and the prototype of its instances name each other.
    let instances ← newObject
    modifyObject instances (·.insertHidden "constructor" (.object id))
    modifyObject id (·.define "prototype" (.hidden (.object instances)))
  return id

/-- A function object for a function that is not written in the program. -/
def newNative (f : Native) : Action Value := do
  let (name, length) := f.signature
  return .object (← newFunction (.native f) name length)

/-- An error object of a kind. -/
def newError (kind : ErrorKind) (message : String) : Action ObjectId := do
  let prototype ← readRealm (·.prototypeOf kind)
  let blank := Object.new prototype .error
  allocate <|
    if message.isEmpty then blank else blank.insertHidden "message" (.ofText message)

/-- The error object of a fault. -/
def newFault (f : Fault) : Action Value := do
  return .object (← newError f.kind f.message)

/-- Throws the error object of a fault. -/
def throwFault {α : Type} (f : Fault) : Action α := do
  throwValue (← newFault f)

end EcmaEval.Action
