import EcmaEval.Eval.Loop
import EcmaEval.Eval.Expression

/-!
# Statements

How each form of statement is executed.

## Main definitions

* `Engine.executeStatement`: what each form of statement does
* `Engine.executeTry`: a try statement, whose final part has the last word
* `Engine.executeSwitch`: a switch
* `Engine.executeProgram`: the statements of a program
-/

namespace EcmaEval

/-- The signal is a break to one of some labels. -/
def Signal.breaksTo (labels : List String) : Signal → Bool
  | .break (some label) => labels.contains label
  | _ => false

/-- The signal is a break without a label. -/
def Signal.isBreak : Signal → Bool
  | .break none => true
  | _ => false

namespace Engine

open EcmaEval.Action

variable (engine : Engine)

/-- Executes the handler of a try statement for a thrown value. -/
def executeHandler (scope : FrameId) (handler : CatchClause) (thrown : Value) :
    Action Value := do
  let scope ← addBlock scope
  match handler.param with
  | some (.identifier name) => modifyFrame scope (·.declareVariable name thrown)
  | some target => breakDown (.unsupported target.kindName)
  | none => pure ()
  engine.executeBlock scope handler.body

/-- Executes the body of a try statement, and its handler for what the body throws. -/
def executeGuarded (scope : FrameId) (body : List Statement) (handler : Option CatchClause) :
    Action Value := do
  match handler with
  | none => engine.executeBlock scope body
  | some handler =>
    match ← attempt (engine.executeBlock scope body) with
    | .ok v => return v
    | .error thrown => engine.executeHandler scope handler thrown

/-- Executes a try statement.  Its final part gives the value, drops what was thrown before it, and
keeps the signal of the parts before it unless it leaves one itself. -/
def executeTry (scope : FrameId) (body : List Statement) (handler : Option CatchClause)
    (finalizer : Option (List Statement)) : Action Value := do
  match finalizer with
  | none => engine.executeGuarded scope body handler
  | some finalizer =>
    let _ ← attempt (engine.executeGuarded scope body handler)
    let pending ← takeSignal
    let value ← engine.executeBlock scope finalizer
    reinstate pending
    return value

/-- The cases from the first one that is equal to the discriminant on. -/
def matchingCases (scope : FrameId) (discriminant : Value) :
    List SwitchCase → Action (Option (List SwitchCase))
  | [] => return none
  | c :: rest => do
    match c.test with
    | none => matchingCases scope discriminant rest
    | some test =>
      if discriminant.strictEqual (← engine.evaluate scope test) then return some (c :: rest)
      matchingCases scope discriminant rest

/-- Executes cases in order until one leaves a signal.  The value is that of the last one. -/
def executeCases (scope : FrameId) (last : Value) : List SwitchCase → Action Value
  | [] => return last
  | c :: rest => do
    let value ← engine.executeList scope c.body
    if ← isSignaled then return value
    executeCases scope value rest

/-- Executes a switch: from the case that matches on, or else from the default on. -/
def executeSwitch (scope : FrameId) (discriminant : Expression) (cases : List SwitchCase) :
    Action Value := do
  let value ← engine.evaluate scope discriminant
  let scope ← addBlock scope
  -- All cases share one frame, so all of them declare before one is selected.
  cases.forM fun c => hoist scope c.body
  let selected ← engine.matchingCases scope value cases
  -- The default may stand anywhere; the cases behind it follow it.
  let default := cases.dropWhile fun c => c.test.isSome
  let result ← engine.executeCases scope .undefined (selected.getD default)
  absorb Signal.isBreak
  return result

/-- Executes a statement with labels. -/
def executeLabeled (scope : FrameId) (labels : List String) : Statement → Action Value
  | .labeled label body => executeLabeled scope (labels ++ [label]) body
  | body => do
    let value ←
      -- A loop needs its labels, because a `continue` to one of them starts its next round.
      if body.isLoop then engine.executeLoop labels scope body else engine.execute scope body
    absorb (Signal.breaksTo labels)
    return value

/-- Ends a statement with a signal. -/
def leave (s : Signal) : Action Value := do
  raise s
  return .undefined

/-- Executes a statement. -/
def executeStatement (scope : FrameId) (s : Statement) : Action Value := do
  match s with
  | .empty | .debugger | .function _ => return .undefined
  | .expression e => engine.evaluate scope e
  | .block body => engine.executeBlock scope body
  | .declaration kind declarators =>
    engine.executeDeclaration scope kind declarators
    return .undefined
  | .if test consequent alternate =>
    if (← engine.evaluate scope test).isTrue then engine.execute scope consequent
    else
      match alternate with
      | some statement => engine.execute scope statement
      | none => return .undefined
  | .while .. | .doWhile .. | .for .. | .forIn .. | .forOf .. => engine.executeLoop [] scope s
  | .return value =>
    match value with
    | some e => leave (.return (← engine.evaluate scope e))
    | none => leave (.return .undefined)
  | .break label => leave (.break label)
  | .continue label => leave (.continue label)
  | .throw e => throwValue (← engine.evaluate scope e)
  | .try body handler finalizer => engine.executeTry scope body handler finalizer
  | .switch discriminant cases => engine.executeSwitch scope discriminant cases
  | .labeled .. => engine.executeLabeled scope [] s
  | .with .. => breakDown (.unsupported s.kindName)
  | .class node =>
    let name := node.name.getD ""
    let v ← engine.makeClass name scope node
    modifyFrame scope (·.declareVariable name v)
    return .undefined

/-- Executes the statements of a program.  Its value is that of a return, or else that of the last
statement that has one. -/
def executeProgram (scope : FrameId) (p : Program) : Action Value := do
  let value ← engine.executeBody scope p.body
  match ← takeSignal with
  | some (.return v) => return v
  | _ => return value

end Engine

end EcmaEval
