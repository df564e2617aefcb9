import EcmaEval.Object.Builtin
import EcmaEval.Value.Basic
import EcmaEval.Program.Tree

/-!
# Functions as values

What a function object runs: a function of the program with the frame it closes over, a class, a
function that the library or the host provides, or another function with its receiver and first
arguments bound.

## Main definitions

* `Callable`: what a function object runs
* `HostFunction`: a function of the host, by the steps that its calls take
* `ClassDefinition`: what a class keeps for its instances
* `Native`: the functions that are not written in a program
-/

namespace EcmaEval

/-- What a function of the host asks of the machine in the middle of a call. -/
inductive HostRequest where
  | call (callee this : Value) (args : List Value)
  | get (target : Value) (key : String)
  | set (target : Value) (key : String) (value : Value)
  | toNumber (v : Value)

/-- The values that a request names. -/
def HostRequest.values : HostRequest → List Value
  | call callee this args => callee :: this :: args
  | get target _ => [target]
  | set target _ value => [target, value]
  | toNumber v => [v]

/-- The steps of a call of a host function.  It ends in one of three ways, or asks the machine for
something and goes on with what it gets or with what was thrown. -/
inductive HostSteps where
  | give (v : Value)
  | throw (v : Value)
  /-- Fails in a way that no program can handle. -/
  | fail (feature : String)
  | ask (request : HostRequest) (next : Except Value Value → HostSteps)

/-- The only objects that the steps name are among those that are known, or come up as answers. -/
def HostSteps.KnowsOnly : HostSteps → List Value → Prop
  | give v, known | throw v, known => v.isObject = true → v ∈ known
  | fail _, _ => True
  | ask request next, known =>
    (∀ v ∈ request.values, v.isObject = true → v ∈ known) ∧
      (∀ v, (next (.ok v)).KnowsOnly (v :: known)) ∧
      ∀ v, (next (.error v)).KnowsOnly (v :: known)

/-- A function that a host lends to a program. -/
structure HostFunction where
  name : String
  /-- The number of arguments that the function announces. -/
  arity : Nat
  /-- What a call with a receiver and arguments does. -/
  steps : (this : Value) → (args : List Value) → HostSteps
  /-- The host keeps no objects of the machine. -/
  knowsOnly : ∀ this args, (steps this args).KnowsOnly (this :: args)

namespace HostFunction

theorem argument_mem {args : List Value} {i : Nat} (this : Value)
    (h : (Value.argument args i).isObject = true) : .argument args i ∈ this :: args := by
  refine .tail _ ?_
  unfold Value.argument at h ⊢
  rw [List.getD_eq_getElem?_getD] at h ⊢
  cases hfound : args[i]? with
  | none =>
    rw [hfound] at h
    cases h
  | some v => exact List.mem_of_getElem? hfound

/-- Gives its first argument back. -/
def firstArgument : HostFunction where
  name := "arg0"
  arity := 1
  steps _ args := .give (.argument args 0)
  knowsOnly this _ := argument_mem this

/-- Gives its receiver back. -/
def receiver : HostFunction where
  name := "this"
  arity := 1
  steps this _ := .give this
  knowsOnly _ _ _ := .head _

/-- Counts its arguments. -/
def argumentCount : HostFunction where
  name := "count"
  arity := 1
  steps _ args := .give (.ofNat args.length)
  knowsOnly _ _ := nofun

/-- Throws its first argument. -/
def throwArgument : HostFunction where
  name := "throw"
  arity := 1
  steps _ args := .throw (.argument args 0)
  knowsOnly this _ := argument_mem this

/-- Fails in a way that no program can handle. -/
def breakDown : HostFunction where
  name := "fatal"
  arity := 1
  steps _ _ := .fail "HostFatal"
  knowsOnly _ _ := trivial

end HostFunction

/-- A check of a test on a value. -/
inductive Matcher where
  | toBe
  | toEqual
  | toBeUndefined
  | toBeTrue
  | toBeFalse
  | toBeNaN
  | toHaveLength
  | toHaveProperty
  | toBeInstanceOf
  | toThrow
  | toThrowWithMessage
  | toBeGreaterThan
  | toBeGreaterThanOrEqual
  | toBeLessThan
  | toBeLessThanOrEqual
  | toEval
  | toEvalTo
  deriving DecidableEq, Repr

namespace Matcher

/-- The name and the announced arguments of the check. -/
def signature : Matcher → String × Nat
  | toBe => ("toBe", 1)
  | toEqual => ("toEqual", 1)
  | toBeUndefined => ("toBeUndefined", 0)
  | toBeTrue => ("toBeTrue", 0)
  | toBeFalse => ("toBeFalse", 0)
  | toBeNaN => ("toBeNaN", 0)
  | toHaveLength => ("toHaveLength", 1)
  | toHaveProperty => ("toHaveProperty", 1)
  | toBeInstanceOf => ("toBeInstanceOf", 1)
  | toThrow => ("toThrow", 1)
  | toThrowWithMessage => ("toThrowWithMessage", 2)
  | toBeGreaterThan => ("toBeGreaterThan", 1)
  | toBeGreaterThanOrEqual => ("toBeGreaterThanOrEqual", 1)
  | toBeLessThan => ("toBeLessThan", 1)
  | toBeLessThanOrEqual => ("toBeLessThanOrEqual", 1)
  | toEval => ("toEval", 0)
  | toEvalTo => ("toEvalTo", 1)

/-- All checks, in the order in which an expectation lists them. -/
def all : List Matcher :=
  [toBe, toEqual, toBeUndefined, toBeTrue, toBeFalse, toBeNaN, toHaveLength, toHaveProperty,
   toBeInstanceOf, toThrow, toThrowWithMessage, toBeGreaterThan, toBeGreaterThanOrEqual,
   toBeLessThan, toBeLessThanOrEqual, toEval, toEvalTo]

/-- The check can also be asked for in the negative. -/
def isNegatable : Matcher → Bool
  | toBe | toEqual | toBeNaN | toHaveProperty | toEval | toThrow => true
  | _ => false

end Matcher

/-- A function that declares tests, or a check within one. -/
inductive SuiteFunction where
  | test
  | describe
  | expect
  /-- A check of the value `actual`, which is the assertion `number` of its test. -/
  | check (matcher : Matcher) (negated : Bool) (actual : Value) (number : Nat)

/-- The name and the announced arguments of the function. -/
def SuiteFunction.signature : SuiteFunction → String × Nat
  | .test => ("test", 2)
  | .describe => ("describe", 2)
  | .expect => ("expect", 1)
  | .check matcher .. => matcher.signature

/-- A function that is not written in the program. -/
inductive Native where
  | builtin (f : Builtin)
  /-- One of the two functions that settle a promise for its executor. -/
  | resolver (promise : ObjectId) (fulfills : Bool)
  /-- Calls a function when a promise is settled, and passes the settlement on. -/
  | afterwards (callback : Value) (fulfills : Bool)
  | host (f : HostFunction)
  | suite (f : SuiteFunction)

namespace Native

/-- The name and the announced arguments of the function. -/
def signature : Native → String × Nat
  | builtin f => f.signature
  | resolver .. | afterwards .. => ("", 1)
  | host f => (f.name, f.arity)
  | suite f => f.signature

/-- The function constructs objects. -/
def isConstructor : Native → Bool
  | builtin f => f.isConstructor
  | _ => false

end Native

/-- A field that a class gives to its instances. -/
structure FieldDefinition where
  key : String
  initializer : Option Expression

/-- What building an instance of a class needs. -/
structure ClassDefinition where
  name : String
  constructor? : Option FunctionNode
  /-- The constructor of the class that this one extends. -/
  parent : Option ObjectId
  /-- The prototype of the instances. -/
  prototype : ObjectId
  fields : List FieldDefinition
  /-- The frame that binds the name of the class inside it. -/
  scope : FrameId

/-- What a function object runs. -/
inductive Callable where
  /-- A function of the program, the frame it closes over and the object it is a method of. -/
  | closure (node : FunctionNode) (scope : FrameId) (home : Option ObjectId)
  | «class» (definition : ClassDefinition)
  | native (f : Native)
  /-- A function with its receiver and its first arguments. -/
  | bound (target : ObjectId) (receiver : Value) (arguments : List Value)

/-- A function of the program may construct objects unless it is an arrow, asynchronous or a
method. -/
def FunctionNode.constructs (node : FunctionNode) (home : Option ObjectId) : Bool :=
  !node.isArrow && !node.isAsync && home.isNone

end EcmaEval
