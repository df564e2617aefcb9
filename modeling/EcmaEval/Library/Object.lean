import EcmaEval.Engine.Convert

/-!
# `Object`

The functions of `Object` and the methods that all objects inherit.

## Main definitions

* `Engine.defineFrom`: defines a property from an object that describes it
* `Engine.setPrototype`: gives an object a prototype, unless that closed a cycle
* `Engine.callObject`: the functions of objects
-/

namespace EcmaEval.Engine

open EcmaEval.Action

variable (engine : Engine)

/-- The keys of the units of a string. -/
def unitKeys (s : UnitString) : List String := (List.range s.size).map indexKey

/-- The listed keys of a value. -/
def listedKeys (v : Value) : Action (List String) := do
  match v with
  | .object id => readHeap fun h => (h.get id).ownKeys true
  | .string s => return unitKeys s
  | .undefined | .null => throwFault .objectFromNullish
  | _ => return []

/-- The values of keys of a value, each made into another one. -/
def mapKeys (v : Value) (f : String → Value → Action Value) (keys : List String) :
    Action (List Value) :=
  keys.mapM fun key => do f key (← engine.get v key)

/-- Copies the listed properties of a value to an object. -/
def assignFrom (target source : Value) : Action Unit := do
  unless source.isNullish do
    for key in ← listedKeys source do
      engine.set target key (← engine.get source key)

/-- The prototype that a value stands for. -/
def prototypeOfValue (v : Value) : Action (Option ObjectId) := do
  match v with
  | .object id => return some id
  | .null => return none
  | v => throwFault (.prototypeType (← readHeap (·.inspect v)))

/-- The value that stands for a prototype. -/
def valueOfPrototype : Option ObjectId → Value
  | some id => .object id
  | none => .null

/-- An attribute of a property descriptor, if the descriptor has it. -/
def attribute? (descriptor : ObjectId) (name : String) : Action (Option Value) := do
  if ← readHeap (·.has descriptor name) then
    return some (← engine.getOf descriptor name)
  return none

/-- Fails unless a value may stand for a getter or setter. -/
def checkAccessor (f : Option Value) (fault : String → Fault) : Action Unit := do
  if let some f := f then
    unless f.isUndefined || (← readHeap (·.isCallable f)) do
      throwFault (fault (← readHeap (·.inspect f)))

/-- The attributes of a property that a descriptor asks for. -/
structure Attributes where
  value : Option Value
  writable : Option Bool
  enumerable : Option Bool
  getter : Option Value
  setter : Option Value

/-- The attributes are those of a pair of functions. -/
def Attributes.isAccessor (a : Attributes) : Bool := a.getter.isSome || a.setter.isSome

/-- The attributes also describe a value. -/
def Attributes.isData (a : Attributes) : Bool := a.value.isSome || a.writable.isSome

/-- The property with the given attributes.  Those that are missing are taken from the property
that it replaces, or have their defaults. -/
def Attributes.toProperty (a : Attributes) (existing : Option Property) : Property :=
  let enumerable := a.enumerable.getD (existing.any Property.enumerable)
  if a.isAccessor then
    let getter := a.getter.or (existing.bind Property.getter?)
    let setter := a.setter.or (existing.bind Property.setter?)
    .accessor (getter.filter (!·.isUndefined)) (setter.filter (!·.isUndefined)) enumerable
  else
    .data ((a.value.or (existing.bind Property.value?)).getD .undefined)
      (a.writable.getD (existing.any Property.writable)) enumerable

/-- The attributes that a descriptor object has. -/
def readAttributes (descriptor : ObjectId) : Action Attributes := do
  let value ← engine.attribute? descriptor "value"
  let writable ← engine.attribute? descriptor "writable"
  let enumerable ← engine.attribute? descriptor "enumerable"
  let getter ← engine.attribute? descriptor "get"
  let setter ← engine.attribute? descriptor "set"
  return ⟨value, writable.map Value.isTrue, enumerable.map Value.isTrue, getter, setter⟩

/-- Gives an object the property that a descriptor describes. -/
def defineFrom (id : ObjectId) (key : String) (descriptor : Value) : Action Unit := do
  match descriptor with
  | .object d =>
    let attributes ← engine.readAttributes d
    checkAccessor attributes.getter .getterType
    checkAccessor attributes.setter .setterType
    let existing ← readHeap fun h => (h.get id).getOwn? key
    if attributes.isAccessor && attributes.isData then throwFault .mixedDescriptor
    modifyObject id (·.define key (attributes.toProperty existing))
  | v => throwFault (.descriptorType (← readHeap (·.inspect v)))

/-- All own keys of a value, listed or not. -/
def ownNames (v : Value) : Action (List String) := do
  match v with
  | .object id =>
    readHeap fun h =>
      let o := h.get id
      o.ownKeys false ++ (if o.isArray then ["length"] else [])
  | .string s => return unitKeys s ++ ["length"]
  | .undefined | .null => throwFault .objectFromNullish
  | _ => return []

/-- The name of the kind of a value. -/
def kindTag (h : Heap) : Value → String
  | .undefined => "Undefined"
  | .null => "Null"
  | .boolean _ => "Boolean"
  | .number _ => "Number"
  | .string _ => "String"
  | .bigint _ => "BigInt"
  | .object id => (h.get id).kind.objectClass.name

/-- A value has a property of its own under a key. -/
def hasOwnProperty (this : Value) (key : String) : Action Bool := do
  match this with
  | .object id => readHeap fun h => (h.get id).hasOwn key
  | .string s => return key = "length" || (arrayIndex? key).any (· < s.size)
  | .undefined | .null => throwFault .objectFromNullish
  | _ => return false

/-- Gives an object another prototype, unless that would close a cycle. -/
def setPrototype (target : Value) (prototype : Option ObjectId) : Action Value := do
  match target with
  | .object id =>
    let cyclic ← readHeap fun h => prototype.any fun p => (h.chain p).contains id
    if cyclic then throwFault .cyclicPrototype
    modifyObject id ({ · with prototype })
    return target
  | .undefined | .null => throwFault .setPrototypeOfNullish
  | _ => return target

/-- An object with a prototype and the properties that descriptors describe. -/
def createObject (prototype properties : Value) : Action Value := do
  let id ← newObjectWith (← prototypeOfValue prototype)
  unless properties.isUndefined do
    for key in ← listedKeys properties do
      engine.defineFrom id key (← engine.get properties key)
  return .object id

/-- Calls a function of `Object`. -/
def callObject (f : ObjectFunction) (this : Value) (args : List Value) : Action Value := do
  let first := Value.argument args 0
  match f with
  | .construct =>
    if first.isObject then return first
    if (← readTarget).isSome then return this
    return .object (← newObject)
  | .hasOwnProperty => return .boolean (← hasOwnProperty this (← engine.toKey first))
  | .toString => return .ofText ("[object " ++ (← readHeap (kindTag · this)) ++ "]")
  | .valueOf => if this.isNullish then throwFault .objectFromNullish else return this
  | .keys => newArrayOf ((← listedKeys first).map .ofText)
  | .values => newArrayOf (← engine.mapKeys first (fun _ v => return v) (← listedKeys first))
  | .entries =>
    let pair key v := newArray #[.ofText key, v]
    newArrayOf (← engine.mapKeys first pair (← listedKeys first))
  | .assign =>
    unless first.isObject do throwFault .assignTarget
    for source in args.drop 1 do engine.assignFrom first source
    return first
  | .getPrototypeOf =>
    match first with
    | .object id => return valueOfPrototype (← readHeap fun h => (h.get id).prototype)
    | .undefined | .null => throwFault .objectFromNullish
    | v => return valueOfPrototype (← readRealm (·.primitivePrototype? v))
  | .setPrototypeOf => setPrototype first (← prototypeOfValue (Value.argument args 1))
  | .create => engine.createObject first (Value.argument args 1)
  | .getOwnPropertyNames => newArrayOf ((← ownNames first).map .ofText)
  | .defineProperty =>
    match first with
    | .object id =>
      let key ← engine.toKey (Value.argument args 1)
      engine.defineFrom id key (Value.argument args 2)
      return first
    | _ => throwFault .definePropertyTarget

end EcmaEval.Engine
