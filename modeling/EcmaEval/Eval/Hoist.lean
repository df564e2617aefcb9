import EcmaEval.Engine.Basic

/-!
# Declarations before the run

Before statements run, the names that `var` declares anywhere in them are bound in the frame of the
function, and the functions that they declare are bound in their own frame.  The search for names
stops at functions and classes, which declare their own.

Statements run one after the other until one of them leaves a signal.  The value of the sequence is
that of its last statement that has one.

## Main definitions

* `Statement.variableNames`: the names that `var` declares in a statement
* `Action.hoist`: binds what statements declare before they run
* `Action.newClosure`: the function object of a function and the frame around it
* `Engine.executeBlock`: a block, in a frame of its own
* `Engine.executeBody`: a body, whose declarations are bound first
-/

namespace EcmaEval

mutual

/-- The names that a pattern binds. -/
def Pattern.names : Pattern → List String
  | .identifier name => [name]
  | .withDefault target _ | .rest target => target.names
  | .array elements => namesOfElements elements
  | .object members => namesOfMembers members

/-- The names that the elements of a pattern bind. -/
def namesOfElements : List (Option Pattern) → List String
  | [] => []
  | none :: rest => namesOfElements rest
  | some target :: rest => target.names ++ namesOfElements rest

/-- The names that the properties of a pattern bind. -/
def namesOfMembers : List PatternMember → List String
  | [] => []
  | ⟨_, bound⟩ :: rest => bound.names ++ namesOfMembers rest

end

/-- The names of a declaration that belong to the function around it. -/
def declaredNames (kind : DeclarationKind) (declarators : List Declarator) : List String :=
  match kind with
  | .variable => declarators.flatMap fun d => d.target.names
  | _ => []

/-- The names that the head of a loop declares for the function around it. -/
def ForHead.variableNames : ForHead → List String
  | .declaration .variable bound => bound.names
  | _ => []

/-- The names that the first part of a loop declares for the function around it. -/
def ForInit.variableNames : ForInit → List String
  | .declaration kind declarators => declaredNames kind declarators
  | .expression _ => []

mutual

/-- The names that `var` declares in a statement. -/
def Statement.variableNames : Statement → List String
  | .declaration kind declarators => declaredNames kind declarators
  | .if _ consequent alternate => consequent.variableNames ++ variableNamesOfOption alternate
  | .while _ body | .doWhile body _ | .labeled _ body | .with _ body => body.variableNames
  | .for init _ _ body => (init.map ForInit.variableNames).getD [] ++ body.variableNames
  | .forIn head _ body | .forOf head _ body => head.variableNames ++ body.variableNames
  | .block body => variableNamesOfList body
  | .try body handler finalizer =>
    variableNamesOfList body ++ variableNamesOfHandler handler ++
      variableNamesOfFinalizer finalizer
  | .switch _ cases => variableNamesOfCases cases
  | .empty | .debugger | .expression _ | .return _ | .break _ | .continue _ | .throw _
  | .function _ | .class _ => []

/-- The names that `var` declares in statements. -/
def variableNamesOfList : List Statement → List String
  | [] => []
  | statement :: rest => statement.variableNames ++ variableNamesOfList rest

/-- The names that `var` declares in a statement that may be missing. -/
def variableNamesOfOption : Option Statement → List String
  | none => []
  | some statement => statement.variableNames

/-- The names that `var` declares in the handler of a try statement. -/
def variableNamesOfHandler : Option CatchClause → List String
  | none => []
  | some ⟨_, body⟩ => variableNamesOfList body

/-- The names that `var` declares in the final part of a try statement. -/
def variableNamesOfFinalizer : Option (List Statement) → List String
  | none => []
  | some body => variableNamesOfList body

/-- The names that `var` declares in the cases of a switch. -/
def variableNamesOfCases : List SwitchCase → List String
  | [] => []
  | ⟨_, body⟩ :: rest => variableNamesOfList body ++ variableNamesOfCases rest

end

/-- The frame with a name bound to `undefined`, unless it binds it already. -/
def Frame.declareMissing (f : Frame) (name : String) : Frame :=
  if f.binds name then f else f.declareVariable name .undefined

namespace Action

/-- A function of the program that closes over a frame. -/
def newClosure (node : FunctionNode) (scope : FrameId) (name : String) (home : Option ObjectId) :
    Action Value := do
  if node.isGenerator then breakDown (.unsupported "GeneratorFunction")
  return .object (← newFunction (.closure node scope home) name node.expectedArguments)

/-- Binds the functions that statements declare. -/
def hoistFunctions (scope : FrameId) : List Statement → Action Unit
  | [] => return
  | .function node :: rest => do
    let name := node.name.getD ""
    let f ← newClosure node scope name none
    modifyFrame scope (·.declareConstant name f)
    hoistFunctions scope rest
  | _ :: rest => hoistFunctions scope rest

/-- Binds what statements declare before they run. -/
def hoist (scope : FrameId) (statements : List Statement) : Action Unit := do
  let names := variableNamesOfList statements
  unless names.isEmpty do
    let target ← readFrames (·.variableScope scope)
    modifyFrame target fun f => names.foldl Frame.declareMissing f
  -- Functions come second, so that a function wins over a variable of its name.
  hoistFunctions scope statements

end Action

end EcmaEval

/-! # Statements in sequence -/

namespace EcmaEval

/-- The statement gives its value to the sequence that it stands in. -/
def Statement.producesValue : Statement → Bool
  | .empty | .debugger | .declaration .. | .function _ | .class _ | .return _ | .break _
  | .continue _ => false
  | _ => true

namespace Engine

open EcmaEval.Action

variable (engine : Engine)

/-- Executes statements in order; `last` is the value so far. -/
def executeFrom (scope : FrameId) (last : Value) : List Statement → Action Value
  | [] => return last
  | statement :: rest => do
    let value ← engine.execute scope statement
    let last := if statement.producesValue then value else last
    if ← isSignaled then return last
    executeFrom scope last rest

/-- Executes statements in order. -/
def executeList (scope : FrameId) (statements : List Statement) : Action Value :=
  engine.executeFrom scope .undefined statements

/-- Executes statements in order, after binding what they declare. -/
def executeBody (scope : FrameId) (statements : List Statement) : Action Value := do
  hoist scope statements
  engine.executeList scope statements

/-- Executes statements in a frame of their own. -/
def executeBlock (scope : FrameId) (statements : List Statement) : Action Value := do
  engine.executeBody (← addBlock scope) statements

end Engine

end EcmaEval
