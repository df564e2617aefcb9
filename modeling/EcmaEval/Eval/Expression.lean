import EcmaEval.Engine.Operator
import EcmaEval.Eval.Class

/-!
# Expressions

How each form of expression is evaluated.  Operands are evaluated from left to right, and the target
of an assignment before the value.

## Main definitions

* `Engine.evaluateExpression`: the value of an expression
* `Engine.assign`: an assignment
* `Engine.evaluateCall`: a call, with the receiver that its form gives it
-/

namespace EcmaEval

/-- A short text of a callee, for the report that it cannot be called. -/
def Expression.calleeText : Expression → String
  | .identifier name => name
  | .this => "this"
  | .super => "super"
  | .member base (.name name) => base.calleeText ++ "." ++ name
  | .member base (.computed _) => base.calleeText ++ "[...]"
  | .call callee _ => callee.calleeText ++ "(...)"
  | e => e.kindName

/-- The key of an object literal that stands for the prototype of the object. -/
def prototypeKey : String := "__proto__"

/-- A member of an object literal sets the prototype of the object. -/
def ObjectMember.setsPrototype (m : ObjectMember) (key : String) : Bool :=
  key = prototypeKey && !m.shorthand && !(m.key matches .computed _)

/-- What a function member of an object literal is for. -/
def MemberKind.methodKind : MemberKind → MethodKind
  | .getter => .getter
  | .setter => .setter
  | _ => .method

namespace Engine

open EcmaEval.Action

variable (engine : Engine)

/-- The value of a literal. -/
def literalValue (l : Literal) : Action Value :=
  match l with
  | .null => return .null
  | .boolean b => return .boolean b
  | .number x => return .number x
  | .string s => return .ofText s
  | .bigint digits =>
    match Integer.ofText? digits with
    | some n => return .bigint n
    | none => breakDown (.malformed "BigInt literal" digits)

/-- The values of a list of expressions after `values`; a spread adds all values of its operand, and
a hole the undefined value. -/
def evaluateList (scope : FrameId) (values : Array Value) :
    List (Option Expression) → Action (Array Value)
  | [] => return values
  | none :: rest => evaluateList scope (values.push .undefined) rest
  | some (.spread operand) :: rest => do
    let added ← iterate (← engine.evaluate scope operand)
    evaluateList scope (values ++ added) rest
  | some e :: rest => do
    let value ← engine.evaluate scope e
    evaluateList scope (values.push value) rest

/-- The values of the arguments of a call. -/
def evaluateArguments (scope : FrameId) (args : List Expression) : Action (List Value) := do
  return (← engine.evaluateList scope #[] (args.map some)).toList

/-- Copies the listed properties of a value to a new object as values. -/
def copyProperties (target : ObjectId) (source : Value) : Action Unit := do
  match source with
  | .object id =>
    for key in ← readHeap fun h => (h.get id).ownKeys true do
      let value ← engine.getOf id key
      modifyObject target (·.insertPlain key value)
  | .string s =>
    for i in List.range s.size do
      modifyObject target (·.insertPlain (indexKey i) (.string (s.unitAt i)))
  | _ => return

/-- Sets a prototype from a value; what is neither an object nor null changes nothing. -/
def setLiteralPrototype (id : ObjectId) (v : Value) : Action Unit :=
  match v with
  | .object p => modifyObject id ({ · with prototype := some p })
  | .null => modifyObject id ({ · with prototype := none })
  | _ => return

/-- Gives an object a member of an object literal. -/
def addMember (scope : FrameId) (id : ObjectId) (m : ObjectMember) : Action Unit := do
  match m.kind with
  | .spread => engine.copyProperties id (← engine.evaluate scope m.value)
  | .value =>
    let key ← engine.propertyKey scope m.key
    let value ← engine.evaluateAs key scope m.value
    if m.setsPrototype key then setLiteralPrototype id value
    else modifyObject id (·.insertPlain key value)
  | kind =>
    let key ← engine.propertyKey scope m.key
    match m.value with
    | .function node =>
      defineMethod id scope true { key, kind := kind.methodKind, isStatic := false, node }
    | e => breakDown (.malformed "FunctionExpression" e.kindName)

/-- The text of a template: its texts with the substitutions between them, after `written`. -/
def templateText (scope : FrameId) (written : String) :
    List (Option String) → List Expression → Action String
  | [], _ => return written
  | none :: _, _ => breakDown (.malformed "cooked template string" "invalid escape")
  | some text :: texts, [] => templateText scope (written ++ text) texts []
  | some text :: texts, e :: rest => do
    let substitution ← engine.toText (← engine.evaluate scope e)
    templateText scope (written ++ text ++ substitution) texts rest

/-- Deletes what an expression stands for, and tells whether it is gone. -/
def delete (scope : FrameId) (operand : Expression) : Action Bool := do
  match operand with
  | .member .super _ => throwFault .superDeleted
  | .member object key =>
    let base ← engine.evaluate scope object
    let key ← engine.memberKey scope key
    match base with
    | .object id =>
      let removed ← readHeap fun h => ((h.get id).remove key).2
      modifyObject id fun o => (o.remove key).1
      return removed
    | .undefined | .null => throwFault (.deleteOfNullish key base.primitiveText)
    | _ => return true
  -- A name stays bound whatever the answer.
  | .identifier _ => return true
  | e =>
    let _ ← engine.evaluate scope e
    return true

/-- The type of what an expression stands for.  A name that is not bound has the type of
`undefined`. -/
def typeOfOperand (scope : FrameId) (operand : Expression) : Action Value := do
  match operand, ← readFrames fun fs => isUnbound fs operand with
  | .identifier _, true => return .ofText "undefined"
  | e, _ =>
    let v ← engine.evaluate scope e
    return .ofText (← readHeap (·.typeOf v))
where
  /-- The expression is a name that the frames do not bind. -/
  isUnbound (fs : Frames) : Expression → Bool
    | .identifier name => (fs.lookup? scope name).isNone
    | _ => false

/-- An operator with one operand. -/
def unary (scope : FrameId) (op : UnaryOperator) (operand : Expression) : Action Value := do
  match op with
  | .not => return .boolean !(← engine.evaluate scope operand).isTrue
  | .plus => engine.plus (← engine.evaluate scope operand)
  | .minus => engine.minus (← engine.evaluate scope operand)
  | .bitwiseNot => engine.bitwiseNot (← engine.evaluate scope operand)
  | .typeOf => engine.typeOfOperand scope operand
  | .void =>
    let _ ← engine.evaluate scope operand
    return .undefined
  | .delete => return .boolean (← engine.delete scope operand)

/-- An assignment. -/
def assign (scope : FrameId) (op : AssignmentOperator) (target value : Expression) :
    Action Value := do
  let reference ← engine.resolve scope target
  match op with
  | .plain =>
    let result ← engine.evaluateAs reference.nameHint scope value
    engine.writeReference scope reference result
    return result
  | .logical op =>
    let current ← engine.readReference scope reference
    if op.keeps current then return current
    let result ← engine.evaluateAs reference.nameHint scope value
    engine.writeReference scope reference result
    return result
  | .compound op =>
    -- The old value is read before the operand is evaluated, which may change it.
    let current ← engine.readReference scope reference
    let result ← engine.binary op current (← engine.evaluate scope value)
    engine.writeReference scope reference result
    return result

/-- A step up or down, which gives the new value or the old one. -/
def update (scope : FrameId) (op : UpdateOperator) (before : Bool) (target : Expression) :
    Action Value := do
  let reference ← engine.resolve scope target
  let old ← engine.toNumeric (← engine.readReference scope reference)
  let new := op.apply old
  engine.writeReference scope reference new.toValue
  return if before then new.toValue else old.toValue

/-- The function of a member access, with the receiver and the key. -/
def memberFunction (scope : FrameId) (object : Expression) (key : MemberKey) :
    Action (Value × Value × String) := do
  match object with
  | .super =>
    let key ← engine.memberKey scope key
    let f ← engine.getSuper scope key
    return (← thisValue scope, f, key)
  | object =>
    let base ← engine.evaluate scope object
    let key ← engine.memberKey scope key
    return (base, ← engine.get base key, key)

/-- A call.  A function that is read from an object has that object as its receiver. -/
def evaluateCall (scope : FrameId) (callee : Expression) (args : List Expression) :
    Action Value := do
  match callee with
  | .super => engine.callSuper scope (engine.evaluateArguments scope args)
  | .member object key =>
    -- The arguments are evaluated also when there is nothing to call.
    let (this, f, key) ← engine.memberFunction scope object key
    let args ← engine.evaluateArguments scope args
    unless ← readHeap (·.isCallable f) do throwFault (.memberNotFunction key)
    engine.callValue f this args
  | callee =>
    let f ← engine.evaluate scope callee
    let args ← engine.evaluateArguments scope args
    unless ← readHeap (·.isCallable f) do throwFault (.notFunction callee.calleeText)
    engine.callValue f .undefined args

/-- The construction of an object. -/
def evaluateNew (scope : FrameId) (callee : Expression) (args : List Expression) :
    Action Value := do
  let constructor ← engine.evaluate scope callee
  let args ← engine.evaluateArguments scope args
  match constructor, ← readHeap (·.isConstructor constructor) with
  | .object id, true => engine.construct id args id
  | _, _ => throwFault (.notConstructor callee.calleeText)

/-- The value of the last of some expressions, all of which are evaluated. -/
def evaluateSequence (scope : FrameId) (last : Value) : List Expression → Action Value
  | [] => return last
  | e :: rest => do evaluateSequence scope (← engine.evaluate scope e) rest

/-- Evaluates an expression.  A function or class without a name of its own gets the given name. -/
def evaluateExpression (name : String) (scope : FrameId) (e : Expression) : Action Value := do
  match e with
  | .literal l => literalValue l
  | .identifier name => nameValue scope name
  | .this => thisValue scope
  | .super => breakDown (.malformed "super call or super property" e.kindName)
  | .spread _ => breakDown (.malformed "expression" e.kindName)
  | .array elements => newArray (← engine.evaluateList scope #[] elements)
  | .object members =>
    let id ← newObject
    members.forM (engine.addMember scope id)
    return .object id
  | .function node => functionExpression name scope node
  | .arrow node => newClosure node scope name none
  | .class node => engine.makeClass name scope node
  | .unary op operand => engine.unary scope op operand
  | .binary op left right =>
    let v ← engine.evaluate scope left
    engine.binary op v (← engine.evaluate scope right)
  | .logical op left right =>
    let v ← engine.evaluate scope left
    if op.keeps v then return v else engine.evaluate scope right
  | .update op before target => engine.update scope op before target
  | .assign op target value => engine.assign scope op target value
  | .conditional test consequent alternate =>
    if (← engine.evaluate scope test).isTrue then engine.evaluate scope consequent
    else engine.evaluate scope alternate
  | .call callee args => engine.evaluateCall scope callee args
  | .new callee args => engine.evaluateNew scope callee args
  | .member .super key => engine.getSuper scope (← engine.memberKey scope key)
  | .member object key =>
    let base ← engine.evaluate scope object
    engine.get base (← engine.memberKey scope key)
  | .template texts substitutions =>
    return .ofText (← engine.templateText scope "" texts substitutions)
  | .await operand => await (← engine.evaluate scope operand)
  | .sequence parts => engine.evaluateSequence scope .undefined parts
  -- These forms can be written, but there is nothing to evaluate them to.
  | .regExp .. | .optionalChain .. | .taggedTemplate .. | .yield .. | .newTarget =>
    breakDown (.unsupported e.kindName)

end Engine

end EcmaEval
