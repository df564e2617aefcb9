import EcmaEval.Eval.Function
import EcmaEval.Eval.Reference

/-!
# Classes

A class is a function object that constructs instances.  Its methods stand on the prototype of the
instances, or on the class itself when they are static.  An instance gets the fields of a class when
the constructor of that class starts, or in a derived class as soon as the parent has made the
instance.

## Main definitions

* `Engine.makeClass`: the function object of a class, with its methods and static parts
* `Engine.constructInstance`: what `new` does for a class
* `Engine.callSuper`: lets the parent construct the instance, and then gives it its fields
-/

namespace EcmaEval

/-- A static part of a class, whose key is known. -/
inductive StaticElement where
  | field (key : String) (initializer : Option Expression)
  | block (statements : List Statement)

/-- A method of a class, whose key is known. -/
structure MethodDefinition where
  key : String
  kind : MethodKind
  isStatic : Bool
  node : FunctionNode

/-- The parts of a class body, each in the order in which they stand. -/
structure ClassParts where
  fields : List FieldDefinition := []
  methods : List MethodDefinition := []
  statics : List StaticElement := []

/-- The name of a method. -/
def MethodKind.functionName (kind : MethodKind) (key : String) : String :=
  match kind with
  | .getter => "get " ++ key
  | .setter => "set " ++ key
  | .method | .constructor => key

/-- The property that a method becomes.  A getter and a setter of one key share a property. -/
def MethodKind.toProperty (kind : MethodKind) (f : Value) (existing : Option Property)
    (enumerable : Bool) : Property :=
  match kind with
  | .getter => .accessor (some f) (existing.bind Property.setter?) enumerable
  | .setter => .accessor (existing.bind Property.getter?) (some f) enumerable
  | .method | .constructor => .data f true enumerable

namespace Engine

open EcmaEval.Action

variable (engine : Engine)

/-- Gives an object a method, which has that object as its home. -/
def defineMethod (target : ObjectId) (scope : FrameId) (enumerable : Bool)
    (m : MethodDefinition) : Action Unit := do
  let f ← newClosure m.node scope (m.kind.functionName m.key) (some target)
  let existing ← readHeap fun h => (h.get target).properties.get? m.key
  modifyObject target (·.define m.key (m.kind.toProperty f existing enumerable))

/-- A frame for initializers, in which `this` and the home object are given. -/
def initializerFrame (scope : FrameId) (this : Value) (home : ObjectId) : Action FrameId :=
  addFrame { parent := some scope, kind := .function, this := some (.bound this), home }

/-- The value of a field. -/
def fieldValue (frame : Action FrameId) (key : String) (initializer : Option Expression) :
    Action Value := do
  match initializer with
  | some e => engine.evaluateAs key (← frame) e
  | none => return .undefined

/-- Gives an instance the fields of a class, in order. -/
def initializeFields (definition : ClassDefinition) (instanceId : ObjectId) : Action Unit := do
  let frame := initializerFrame definition.scope (.object instanceId) definition.prototype
  for field in definition.fields do
    let value ← engine.fieldValue frame field.key field.initializer
    modifyObject instanceId (·.insertPlain field.key value)

/-- The constructor that a class extends, and the prototype of its instances' prototype. -/
def heritage (scope : FrameId) (e : Option Expression) :
    Action (Option ObjectId × Option ObjectId) := do
  match e with
  | none => return (none, some (← readRealm (·.objectPrototype)))
  | some e =>
    let v ← engine.evaluate scope e
    match v, ← readHeap (·.isConstructor v) with
    | .null, _ => return (none, none)
    | .object parent, true =>
      match ← engine.getOf parent "prototype" with
      | .object prototype => return (some parent, some prototype)
      | .null => return (some parent, none)
      | _ => throwFault .heritagePrototype
    | _, _ => throwFault (.heritageNotConstructor (← readHeap (·.inspect v)))

/-- The parts of a class body.  Every key is evaluated once, in the order of the body. -/
def classParts (scope : FrameId) : List ClassElement → ClassParts → Action ClassParts
  | [], parts => return parts
  | element :: rest, parts => do
    match element with
    | .method .constructor _ _ _ => classParts scope rest parts
    | .method kind isStatic key node =>
      let key ← engine.propertyKey scope key
      let methods := parts.methods ++ [⟨key, kind, isStatic, node⟩]
      classParts scope rest { parts with methods }
    | .field true key value =>
      let key ← engine.propertyKey scope key
      classParts scope rest { parts with statics := parts.statics ++ [.field key value] }
    | .field false key value =>
      let key ← engine.propertyKey scope key
      classParts scope rest { parts with fields := parts.fields ++ [⟨key, value⟩] }
    | .staticBlock body =>
      classParts scope rest { parts with statics := parts.statics ++ [.block body] }

/-- Runs a static part of a class. -/
def runStatic (classId : ObjectId) (scope : FrameId) (element : StaticElement) :
    Action Unit := do
  let frame ← initializerFrame scope (.object classId) classId
  match element with
  | .field key initializer =>
    let value ← engine.fieldValue (return frame) key initializer
    modifyObject classId (·.insertPlain key value)
  | .block body =>
    let _ ← engine.executeBody frame body
    let _ ← takeSignal

/-- The function object of a class. -/
def newClass (definition : ClassDefinition) : Action ObjectId := do
  let length := (definition.constructor?.map FunctionNode.expectedArguments).getD 0
  let id ← newFunction (.class definition) definition.name length
  -- The static parts of the parent are inherited.
  if definition.parent.isSome then
    modifyObject id ({ · with prototype := definition.parent })
  modifyObject id (·.define "prototype" (.fixed (.object definition.prototype)))
  modifyObject definition.prototype (·.insertHidden "constructor" (.object id))
  return id

/-- Makes a class.  One without a name of its own gets the given name. -/
def makeClass (name : String) (scope : FrameId) (node : ClassNode) : Action Value := do
  let scope ← addBlock scope
  let (parent, prototypeParent) ← engine.heritage scope node.heritage
  let prototype ← newObjectWith prototypeParent
  let parts ← engine.classParts scope node.body {}
  let id ← newClass {
    name := node.name.getD name
    constructor? := node.constructor?
    parent, prototype, scope
    fields := parts.fields }
  for m in parts.methods do
    defineMethod (if m.isStatic then id else prototype) scope false m
  -- The name is there for the static parts, but not for the keys.
  if let some own := node.name then
    modifyFrame scope (·.declareConstant own (.object id))
  for element in parts.statics do engine.runStatic id scope element
  return .object id

/-- A new object whose prototype is that of the instances of a constructor. -/
def allocateInstance (newTarget : ObjectId) : Action ObjectId := do
  match ← engine.getOf newTarget "prototype" with
  | .object prototype => newObjectWith (some prototype)
  | _ => newObject

/-- Constructs an instance of a class without a constructor of its own. -/
def constructByDefault (definition : ClassDefinition) (args : List Value) (newTarget : ObjectId) :
    Action Value := do
  let instanceId ←
    match definition.parent with
    | none => engine.allocateInstance newTarget
    | some parent =>
      match ← engine.construct parent args newTarget with
      | .object id => pure id
      | _ => throwFault .derivedResult
  engine.initializeFields definition instanceId
  return .object instanceId

/-- The frame in which a constructor runs.  In a class that extends none the instance is there from
the start. -/
def constructorFrame (definition : ClassDefinition) (args : List Value) (newTarget : ObjectId) :
    Action FrameId := do
  let arguments ← newArrayOf args
  let frame : Frame := {
    parent := some definition.scope
    kind := .function
    home := some definition.prototype }
  let id ← addFrame (frame.declareConstant "arguments" arguments)
  if definition.parent.isSome then
    modifyFrame id ({ · with
      this := some .uninitialized
      superCall := some { definition, newTarget } })
  else
    let instanceId ← engine.allocateInstance newTarget
    modifyFrame id ({ · with this := some (.bound (.object instanceId)) })
    engine.initializeFields definition instanceId
  return id

/-- Constructs an instance of a class. -/
def constructInstance (definition : ClassDefinition) (args : List Value) (newTarget : ObjectId) :
    Action Value := do
  match definition.constructor? with
  | none => engine.constructByDefault definition args newTarget
  | some node =>
    let frame ← engine.constructorFrame definition args newTarget
    let result ← engine.runFunction node frame args
    -- An object that the constructor returns takes the place of the instance.
    if result.isObject then return result
    match ← readFrames fun fs => (fs.get frame).this with
    | some (.bound v) => return v
    | _ => throwFault .superMissing

/-- Calls the constructor of the parent class; `args` gives the arguments. -/
def callSuper (scope : FrameId) (args : Action (List Value)) : Action Value := do
  let some frame ← readFrames (·.find? scope fun f => f.superCall.isSome)
    | throwFault .superOutsideConstructor
  -- The arguments come first: one of them may construct the parent itself.
  let args ← args
  match ← readFrames (·.get frame) with
  | { this := some (.bound _), .. } => throwFault .superTwice
  | { superCall := some { definition, newTarget }, .. } =>
    let some parent := definition.parent | throwFault .superOfNull
    match ← engine.construct parent args newTarget with
    | .object instanceId =>
      modifyFrame frame ({ · with this := some (.bound (.object instanceId)) })
      engine.initializeFields definition instanceId
      return .object instanceId
    | _ => throwFault .superNotObject
  | _ => throwFault .superOutsideConstructor

end Engine

end EcmaEval
