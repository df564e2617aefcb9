import EcmaEval.Engine.Convert

/-!
# `Promise`

A promise is settled once.  What waits for it runs as soon as it is settled, in the order in which
it came, and what is attached to a settled promise runs at once: nothing is put off.

## Main definitions

* `Engine.settlePromise`: settles a promise and runs what waits for it
* `Engine.resolvePromise`: settles a promise with a value, or as another promise is
* `Engine.attachReaction`: what a promise calls when it is settled
* `Engine.callResolver`: one of the two functions that settle a promise
-/

namespace EcmaEval

/-- The function that waits for an outcome. -/
def Reaction.handler (r : Reaction) : Settlement → Value
  | .fulfilled _ => r.onFulfilled
  | .rejected _ => r.onRejected

/-- The value or the reason of an outcome. -/
def Settlement.value : Settlement → Value
  | .fulfilled v => v
  | .rejected v => v

namespace Engine

open EcmaEval.Action

variable (engine : Engine)

/-- The state of a promise. -/
def promiseState? (id : ObjectId) : Action (Option PromiseState) :=
  readHeap fun h => (h.get id).promiseState?

/-- The promise that a value is, with its state. -/
def promiseOf? (v : Value) : Action (Option (ObjectId × PromiseState)) :=
  readHeap fun h => do
    let id ← v.object?
    let state ← (h.get id).promiseState?
    return (id, state)

/-- Changes the state of a promise. -/
def setPromiseState (id : ObjectId) (state : PromiseState) : Action Unit :=
  modifyObject id ({ · with kind := .promise state })

/-- Lets a reaction wait for a promise.  A settled promise is left as it is. -/
def addReaction (id : ObjectId) (reaction : Reaction) : Action Unit := do
  match ← promiseState? id with
  | some (.pending decided reactions) =>
    setPromiseState id (.pending decided (reactions ++ [reaction]))
  | _ => return

/-- Settles a promise with a value.  A promise for a value lends its own outcome, now or when it has
one; a promise that would wait for itself is rejected. -/
def resolvePromise (id : ObjectId) (v : Value) : Action Unit := do
  match ← promiseOf? v with
  | none => engine.settle id (.fulfilled v)
  | some (source, state) =>
    if source = id then engine.settle id (.rejected (← newFault .promiseCycle))
    else
      match state with
      | .settled outcome => engine.settle id outcome
      | .pending .. =>
        addReaction source { onFulfilled := .undefined, onRejected := .undefined, derived := id }

/-- Passes an outcome to a reaction.  Without a function for it the outcome goes on to the derived
promise, else the result of the function does. -/
def runReaction (outcome : Settlement) (reaction : Reaction) : Action Unit := do
  let handler := reaction.handler outcome
  if ← readHeap (·.isCallable handler) then
    match ← attempt (engine.callValue handler .undefined [outcome.value]) with
    | .ok result => engine.resolvePromise reaction.derived result
    | .error reason => engine.settle reaction.derived (.rejected reason)
  else
    match outcome with
    | .fulfilled v => engine.resolvePromise reaction.derived v
    | .rejected _ => engine.settle reaction.derived outcome

/-- Settles a promise that is pending, and runs what waits for it. -/
def settlePromise (id : ObjectId) (outcome : Settlement) : Action Unit := do
  match ← promiseState? id with
  | some (.pending _ reactions) =>
    -- The state changes first: a reaction may look at the promise or attach another one.
    setPromiseState id (.settled outcome)
    reactions.forM (engine.runReaction outcome)
  | _ => return

/-- Attaches functions to a promise, and gives the promise of their result. -/
def attachReaction (this onFulfilled onRejected : Value) : Action Value := do
  match ← promiseOf? this with
  | none => throwFault .thenReceiver
  | some (id, state) =>
    let derived ← newPromise
    let reaction : Reaction := { onFulfilled, onRejected, derived }
    match state with
    | .settled outcome => engine.runReaction outcome reaction
    | .pending .. => addReaction id reaction
    return .object derived

/-- A promise that is settled at once by an action. -/
def newSettledPromise (settle : ObjectId → Action Unit) : Action Value := do
  let id ← newPromise
  settle id
  return .object id

/-- Runs one of the functions that an executor got.  Only the first use of one of them counts. -/
def callResolver (id : ObjectId) (fulfills : Bool) (v : Value) : Action Value := do
  match ← promiseState? id with
  | some (.pending false reactions) =>
    -- From here on neither function of the pair has an effect, though the promise may still wait.
    setPromiseState id (.pending true reactions)
    if fulfills then engine.resolvePromise id v else engine.settle id (.rejected v)
    return .undefined
  | _ => return .undefined

/-- Runs a function that waits for either outcome, and passes the outcome on. -/
def callAfterwards (callback : Value) (fulfills : Bool) (v : Value) : Action Value := do
  let _ ← engine.callValue callback .undefined []
  if fulfills then return v else throwValue v

/-- Makes an object a promise, and runs its executor. -/
def constructPromise (this executor : Value) : Action Value := do
  match ← readTarget, this with
  | some _, .object id =>
    unless ← readHeap (·.isCallable executor) do
      throwFault (.promiseExecutor (← readHeap (·.textOf executor)))
    setPromiseState id (.pending false [])
    let resolve ← newNative (.resolver id true)
    let reject ← newNative (.resolver id false)
    match ← attempt (engine.callValue executor .undefined [resolve, reject]) with
    | .ok _ => return this
    | .error reason =>
      -- What the executor throws counts as a use of the second function.
      let _ ← engine.callValue reject .undefined [reason]
      return this
  | _, _ => throwFault .promiseWithoutNew

/-- Calls a function of `Promise`. -/
def callPromise (f : PromiseFunction) (this : Value) (args : List Value) : Action Value := do
  let first := Value.argument args 0
  match f with
  | .construct => engine.constructPromise this first
  | .resolve =>
    if (← promiseOf? first).isSome then return first
    newSettledPromise (engine.resolvePromise · first)
  | .reject => newSettledPromise (engine.settle · (.rejected first))
  | .thenCall => engine.attachReaction this first (Value.argument args 1)
  | .catchCall => engine.attachReaction this .undefined first
  | .finallyCall =>
    if ← readHeap (·.isCallable first) then
      let onFulfilled ← newNative (.afterwards first true)
      let onRejected ← newNative (.afterwards first false)
      engine.attachReaction this onFulfilled onRejected
    else engine.attachReaction this first first

end Engine

end EcmaEval
