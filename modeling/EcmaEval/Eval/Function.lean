import EcmaEval.Eval.Hoist
import EcmaEval.Library.Promise

/-!
# Functions of the program

A call binds the parameters in a new frame inside the one that the function closes over, and runs
the body there.  An asynchronous function runs to its end too, and gives a promise of what it
returned or threw.

## Main definitions

* `Engine.callClosure`: calls a function of the program
* `Engine.bindParameters`: binds the parameters of a call
* `Engine.promiseOfAction`: the promise of what an action gives or throws
* `Engine.await`: suspends for the outcome of a promise
-/

namespace EcmaEval

namespace Engine

open EcmaEval.Action

variable (engine : Engine)

/-- The function of an expression.  One with a name of its own sees itself under that name; one
without gets the given name. -/
def functionExpression (name : String) (scope : FrameId) (node : FunctionNode) :
    Action Value := do
  match node.name with
  | none => newClosure node scope name none
  | some own =>
    let inner ← addBlock scope
    let f ← newClosure node inner own none
    modifyFrame inner (·.declareConstant own f)
    return f

/-- The name that a parameter binds and its value, for the argument at index `i`. -/
def parameter (frame : FrameId) (args : List Value) (i : Nat) (p : Pattern) :
    Action (String × Value) := do
  match p with
  | .identifier name => return (name, .argument args i)
  | .withDefault (.identifier name) default =>
    let v := Value.argument args i
    if v.isUndefined then return (name, ← engine.evaluateAs name frame default)
    return (name, v)
  | .rest (.identifier name) => return (name, ← newArrayOf (args.drop i))
  | .withDefault target _ | .rest target | target => breakDown (.unsupported target.kindName)

/-- Binds parameters in order, from the argument at index `i` on. -/
def bindParameters (frame : FrameId) (args : List Value) : (i : Nat) → List Pattern → Action Unit
  | _, [] => return
  | i, p :: rest => do
    let (name, value) ← engine.parameter frame args i p
    modifyFrame frame (·.declareVariable name value)
    bindParameters frame args (i + 1) rest

/-- Binds the parameters of a function and runs its body. -/
def runBody (node : FunctionNode) (frame : FrameId) (args : List Value) : Action Value := do
  engine.bindParameters frame args 0 node.params
  match node.body with
  | .expression e => engine.evaluate frame e
  | .block statements =>
    let _ ← engine.executeBody frame statements
    match ← takeSignal with
    | some (.return v) => return v
    | _ => return .undefined

/-- A promise of what an action gives or throws. -/
def promiseOfAction (a : Action Value) : Action Value := do
  match ← attempt a with
  | .ok v => newSettledPromise (engine.resolvePromise · v)
  | .error reason => newSettledPromise (engine.settle · (.rejected reason))

/-- Runs a function in a frame that was prepared for it. -/
def runFunction (node : FunctionNode) (frame : FrameId) (args : List Value) : Action Value :=
  if node.isAsync then engine.promiseOfAction (engine.runBody node frame args)
  else engine.runBody node frame args

/-- The frame of a call.  An arrow has no receiver and no list of arguments of its own. -/
def callFrame (node : FunctionNode) (scope : FrameId) (home : Option ObjectId) (this : Value)
    (args : List Value) : Action FrameId := do
  let frame : Frame := { parent := some scope, kind := .function }
  if node.isArrow then addFrame frame
  else
    let arguments ← newArrayOf args
    addFrame ({ frame with this := some (.bound this), home }.declareConstant "arguments" arguments)

/-- Calls a function of the program. -/
def callClosure (node : FunctionNode) (scope : FrameId) (home : Option ObjectId) (this : Value)
    (args : List Value) : Action Value := do
  engine.runFunction node (← callFrame node scope home this args) args

/-- The outcome of a promise that is settled; any other value stands for itself. -/
def resume (v : Value) : Action Value := do
  match ← promiseOf? v with
  | none => return v
  | some (_, .settled (.fulfilled result)) => return result
  | some (_, .settled (.rejected reason)) => throwValue reason
  | some (_, .pending ..) => throwFault .awaitPending

/-- Suspends for a value, and goes on at once with its outcome. -/
def await (v : Value) : Action Value := do
  raise (.suspend v)
  -- The suspension ends where it began, so what is taken out is what was just put in.
  match ← takeSignal with
  | some (.suspend v) => resume v
  | _ => return .undefined

end Engine

end EcmaEval
