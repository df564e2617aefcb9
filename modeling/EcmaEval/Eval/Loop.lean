import EcmaEval.Eval.Reference
import EcmaEval.Library.Array

/-!
# Declarations and loops

A declaration binds its variables when it is executed, and the head of a loop binds one in every
round.

A loop runs its body in one frame that all its rounds share.  It ends when there is no other round,
or when its body leaves a signal that does not call for the next round.  The value of a loop is that
of the last round.

## Main definitions

* `Engine.executeDeclaration`: the variables of a declaration
* `Engine.bindHead`: what the head of a loop binds
* `AfterRound.ofSignal`: what a loop does after a round
* `Engine.runRounds`: the rounds of a loop
* `Engine.executeLoop`: a loop with labels
-/

namespace EcmaEval.Engine

open EcmaEval.Action

variable (engine : Engine)

/-- Binds a name in the way that a kind of declaration does. -/
def declare (scope : FrameId) (kind : DeclarationKind) (name : String) (value : Value) :
    Action Unit := do
  match kind with
  | .variable =>
    let target ← readFrames (·.variableScope scope)
    modifyFrame target (·.declareVariable name value)
  | .lexical => modifyFrame scope (·.declareVariable name value)
  | .constant => modifyFrame scope (·.declareConstant name value)

/-- Binds one variable of a declaration.  A `var` without a value leaves what is there. -/
def executeDeclarator (scope : FrameId) (kind : DeclarationKind) (d : Declarator) :
    Action Unit := do
  match d.target with
  | .identifier name =>
    match d.init, kind with
    | some e, _ => declare scope kind name (← engine.evaluateAs name scope e)
    | none, .variable => return
    | none, _ => declare scope kind name .undefined
  | target => breakDown (.unsupported target.kindName)

/-- Binds the variables of a declaration in order. -/
def executeDeclaration (scope : FrameId) (kind : DeclarationKind)
    (declarators : List Declarator) : Action Unit :=
  declarators.forM (engine.executeDeclarator scope kind)

/-- Binds the key or element of a round of a loop. -/
def bindHead (scope : FrameId) (head : ForHead) (value : Value) : Action Unit := do
  match head with
  | .declaration kind (.identifier name) => declare scope kind name value
  | .declaration _ target => breakDown (.unsupported target.kindName)
  | .target e => engine.writeReference scope (← engine.resolve scope e) value

end EcmaEval.Engine

/-! ## Loops -/

namespace EcmaEval

/-- What a loop does after a round. -/
inductive AfterRound where
  | next
  /-- Ends and leaves what is not aimed at the loop. -/
  | stop (rest : Option Signal)

/-- What a loop with some labels does after a round that left a signal. -/
def AfterRound.ofSignal (labels : List String) : Option Signal → AfterRound
  | none | some (.continue none) => .next
  | some (.break none) => .stop none
  | some (.continue (some label)) =>
    if labels.contains label then .next else .stop (some (.continue (some label)))
  | some (.break (some label)) =>
    if labels.contains label then .stop none else .stop (some (.break (some label)))
  | some (.return v) => .stop (some (.return v))
  | some (.suspend v) => .stop (some (.suspend v))

/-- The statement is a loop. -/
def Statement.isLoop : Statement → Bool
  | .while .. | .doWhile .. | .for .. | .forIn .. | .forOf .. => true
  | _ => false

namespace Engine

open EcmaEval.Action

variable (engine : Engine)

/-- Takes out a signal that is aimed at a loop with some labels, and tells whether the loop goes
on. -/
def loopContinues (labels : List String) : Action Bool := do
  match AfterRound.ofSignal labels (← takeSignal) with
  | .next => return true
  | .stop rest =>
    reinstate rest
    return false

/-- Runs the rounds of a loop.  From the state of the loop `enter` finds whether there is another
round, and prepares it; `last` is the value so far. -/
def runRounds {σ : Type} (labels : List String) (enter : σ → Action (Option σ))
    (body : Action Value) : (fuel : Nat) → σ → (last : Value) → Action Value
  | 0, _, _ => exhausted
  | fuel + 1, s, last => do
    match ← enter s with
    | none => return last
    | some s =>
      let value ← body
      if ← loopContinues labels then runRounds labels enter body fuel s value else return value

/-- Runs a loop from a state on. -/
def runLoop {σ : Type} (labels : List String) (scope : FrameId) (body : Statement) (start : σ)
    (enter : σ → Action (Option σ)) : Action Value :=
  runRounds labels enter (engine.execute scope body) engine.fuel start .undefined

/-- The condition of a loop holds; a missing one does. -/
def loopTest (scope : FrameId) (test : Option Expression) : Action Bool := do
  match test with
  | some e => return (← engine.evaluate scope e).isTrue
  | none => return true

/-- Executes the first part of a loop with three parts. -/
def executeInit (scope : FrameId) (init : Option ForInit) : Action Unit := do
  match init with
  | some (.declaration kind declarators) => engine.executeDeclaration scope kind declarators
  | some (.expression e) =>
    let _ ← engine.evaluate scope e
  | none => return

/-- The keys that a loop over the keys of a value visits. -/
def keysToVisit (v : Value) : Action (List String) := do
  match v with
  | .object id => readHeap (·.loopKeys id)
  | .string s => return (List.range s.size).map indexKey
  | _ => return []

/-- Prepares a round for the first of the values that are left. -/
def enterListed (scope : FrameId) (head : ForHead) :
    List Value → Action (Option (List Value))
  | [] => return none
  | v :: rest => do
    engine.bindHead scope head v
    return some rest

/-- Prepares a round for the element of an array at an index.  Elements that are added while the
loop runs are visited too. -/
def enterElement (scope : FrameId) (head : ForHead) (id : ObjectId) (i : Nat) :
    Action (Option Nat) := do
  match ← elementAt? id i with
  | none => return none
  | some v =>
    engine.bindHead scope head v
    return some (i + 1)

/-- Executes a loop with labels. -/
def executeLoop (labels : List String) (scope : FrameId) (loop : Statement) :
    Action Value := do
  let scope ← addBlock scope
  match loop with
  | .while test body =>
    engine.runLoop labels scope body () fun _ => do
      return if ← engine.loopTest scope test then some () else none
  | .doWhile body test =>
    engine.runLoop labels scope body false fun started => do
      if started then return if ← engine.loopTest scope test then some true else none
      else return some true
  | .for init test update body =>
    engine.executeInit scope init
    engine.runLoop labels scope body false fun started => do
      if started then
        if let some e := update then
          let _ ← engine.evaluate scope e
      return if ← engine.loopTest scope test then some true else none
  | .forIn head object body =>
    let keys ← keysToVisit (← engine.evaluate scope object)
    engine.runLoop labels scope body (keys.map .ofText) (engine.enterListed scope head)
  | .forOf head iterable body =>
    let source ← engine.evaluate scope iterable
    match source, ← readHeap (isArrayValue · source) with
    -- An array is read round by round; the characters of a string cannot change.
    | .object id, true => engine.runLoop labels scope body 0 (engine.enterElement scope head id)
    | _, _ =>
      let values ← iterate source
      engine.runLoop labels scope body values.toList (engine.enterListed scope head)
  | s => breakDown (.malformed "loop statement" s.kindName)
where
  /-- The value is an array. -/
  isArrayValue (h : Heap) : Value → Bool
    | .object id => (h.get id).isArray
    | _ => false

end Engine

end EcmaEval
