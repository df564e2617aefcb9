import EcmaEval.Machine.Create

/-!
# Realms

A realm is a library of its own: its prototypes, its functions and the frame that binds them.  The
order in which an object gets its properties is the order in which they are listed.

## Main definitions

* `Action.newRealm`: a library in frames and objects of its own
* `Action.enterNewRealm`: lets programs run in a new realm
* `Action.inNewRealm`: runs an action in a new realm, and then goes back
-/

namespace EcmaEval.Action

/-- Declares a name in the frame of the library. -/
def declareGlobal (name : String) (value : Value) : Action Unit := do
  modifyFrame (← readRealm (·.globalFrame)) (·.declareVariable name value)

/-- Gives an object functions of the library as methods. -/
def installMethods (target : ObjectId) (fs : List Builtin) : Action Unit :=
  fs.forM fun f => do
    let v ← newNative (.builtin f)
    modifyObject target (·.insertHidden f.signature.1 v)

/-- Gives an object numbers that cannot be changed. -/
def installConstants (target : ObjectId) (constants : List (String × Float)) : Action Unit :=
  modifyObject target fun o =>
    constants.foldl (fun o (name, x) => o.define name (.fixed (.number x))) o

/-- Makes a function the constructor of a prototype, and declares it. -/
def installConstructor (f : Builtin) (prototype : ObjectId) : Action ObjectId := do
  let id ← newFunction (.native (.builtin f)) f.signature.1 f.signature.2
  modifyObject id (·.define "prototype" (.fixed (.object prototype)))
  modifyObject prototype (·.insertHidden "constructor" (.object id))
  declareGlobal f.signature.1 (.object id)
  return id

/-- Installs the constructor of errors of a kind, and gives their prototype its texts. -/
def installError (kind : ErrorKind) : Action ObjectId := do
  let prototype ← readRealm (·.prototypeOf kind)
  modifyObject prototype fun o =>
    (o.insertHidden "name" (.ofText kind.name)).insertHidden "message" (.ofText "")
  installConstructor (.error kind) prototype

/-- Installs the constructors of errors.  The special ones inherit from the general one. -/
def installErrors : Action Unit := do
  let base ← installError .error
  installMethods (← readRealm (·.errorPrototype)) [.errorToString]
  for kind in [ErrorKind.type, .reference, .range, .syntactic] do
    let id ← installError kind
    modifyObject id ({ · with prototype := some base })

/-- Installs `Object`. -/
def installObject : Action Unit := do
  let prototype ← readRealm (·.objectPrototype)
  installMethods prototype [.object .hasOwnProperty, .object .toString, .object .valueOf]
  let id ← installConstructor (.object .construct) prototype
  installMethods id <| .map .object
    [.keys, .values, .entries, .assign, .getPrototypeOf, .setPrototypeOf, .create,
     .getOwnPropertyNames, .defineProperty]

/-- Installs the methods of functions. -/
def installFunction : Action Unit := do
  installMethods (← readRealm (·.functionPrototype)) <| .map .function
    [.call, .apply, .bind, .toString]

/-- Installs `Array`. -/
def installArray : Action Unit := do
  let prototype ← readRealm (·.arrayPrototype)
  let id ← installConstructor (.array .construct) prototype
  installMethods id (.map .array [.isArray, .ofElements, .fromSource])
  installMethods prototype <| .map .array
    [.push, .pop, .shift, .unshift, .slice, .splice, .concat, .join, .toString, .indexOf,
     .includes, .reverse, .sort, .forEach, .map, .filter, .find, .findIndex, .some, .every,
     .reduce]

/-- Installs `String`. -/
def installString : Action Unit := do
  let prototype ← readRealm (·.stringPrototype)
  let id ← installConstructor (.string .construct) prototype
  installMethods id [.string .fromCharCode]
  installMethods prototype (StringMethod.all.map fun m => .string (.method m))
  installMethods prototype [.string .toString, .string .valueOf]

/-- The numbers that `Number` holds. -/
def numberConstants : List (String × Float) :=
  [("MAX_SAFE_INTEGER", 9007199254740991.0),
   ("MIN_SAFE_INTEGER", -9007199254740991.0),
   ("EPSILON", 2.220446049250313e-16),
   ("MAX_VALUE", 1.7976931348623157e308),
   ("MIN_VALUE", 5e-324),
   ("POSITIVE_INFINITY", Number.infinity),
   ("NEGATIVE_INFINITY", -Number.infinity),
   ("NaN", Number.nan)]

/-- Installs `Number`. -/
def installNumber : Action Unit := do
  let prototype ← readRealm (·.numberPrototype)
  let id ← installConstructor (.number .construct) prototype
  installConstants id numberConstants
  installMethods id (.map .number [.isInteger, .isNaN, .isFinite])
  installMethods prototype (.map .number [.toString, .toFixed, .valueOf])

/-- Installs `Boolean`. -/
def installBoolean : Action Unit := do
  let prototype ← readRealm (·.booleanPrototype)
  let _ ← installConstructor (.boolean .construct) prototype
  installMethods prototype [.boolean .toString, .boolean .valueOf]

/-- Installs `BigInt`. -/
def installInteger : Action Unit := do
  let prototype ← readRealm (·.bigintPrototype)
  let _ ← installConstructor (.bigint .construct) prototype
  installMethods prototype [.bigint .toString, .bigint .valueOf]

/-- The numbers that `Math` holds. -/
def mathConstants : List (String × Float) :=
  [("PI", 3.141592653589793),
   ("E", 2.718281828459045),
   ("LN2", 0.6931471805599453),
   ("LN10", 2.302585092994046),
   ("LOG2E", 1.4426950408889634),
   ("LOG10E", 0.4342944819032518),
   ("SQRT2", 1.4142135623730951),
   ("SQRT1_2", 0.7071067811865476)]

/-- Installs `Math`. -/
def installMath : Action Unit := do
  let id ← newObject
  installConstants id mathConstants
  installMethods id <| .map .math
    [.abs, .floor, .ceil, .round, .trunc, .sign, .sqrt, .cbrt, .pow, .max, .min]
  declareGlobal "Math" (.object id)

/-- Installs the global functions. -/
def installGlobals : Action Unit := do
  for f in [GlobalFunction.parseInt, .parseFloat, .isNaN, .isFinite] do
    declareGlobal f.signature.1 (← newNative (.builtin (.global f)))

/-- Installs `Promise`. -/
def installPromise : Action Unit := do
  let prototype ← readRealm (·.promisePrototype)
  let id ← installConstructor (.promise .construct) prototype
  installMethods id (.map .promise [.resolve, .reject])
  installMethods prototype (.map .promise [.thenCall, .catchCall, .finallyCall])

/-- Installs `console`. -/
def installConsole : Action Unit := do
  let id ← newObject
  installMethods id [.log, .logError]
  declareGlobal "console" (.object id)

/-- Installs the library. -/
def installLibrary : Action Unit := do
  installObject
  installFunction
  installErrors
  installArray
  installString
  installNumber
  installBoolean
  installInteger
  installMath
  installGlobals
  installPromise
  installConsole

/-- The frame of the library before the library is installed. -/
def constantsFrame : Frame :=
  ({ parent := none, kind := .global } : Frame)
    |>.declareConstant "undefined" .undefined
    |>.declareConstant "NaN" (.number Number.nan)
    |>.declareConstant "Infinity" (.number Number.infinity)

/-- The frames and prototypes of a realm, which have no properties yet. -/
def newRealm : Action Realm := do
  let objectPrototype ← newObjectWith none
  let derived (objectClass : ObjectClass) : Action ObjectId :=
    allocate { Object.new (some objectPrototype) .ordinary with objectClass }
  let functionPrototype ← derived .function
  let arrayPrototype ← derived .array
  let stringPrototype ← derived .string
  let numberPrototype ← derived .number
  let booleanPrototype ← derived .boolean
  let bigintPrototype ← derived .bigint
  let promisePrototype ← derived .promise
  let errorPrototype ← newObjectWith objectPrototype
  let typeErrorPrototype ← newObjectWith errorPrototype
  let referenceErrorPrototype ← newObjectWith errorPrototype
  let rangeErrorPrototype ← newObjectWith errorPrototype
  let syntaxErrorPrototype ← newObjectWith errorPrototype
  let globalFrame ← addFrame constantsFrame
  let programFrame ← addFrame { parent := some globalFrame, kind := .function }
  return {
    globalFrame, programFrame, objectPrototype, functionPrototype, arrayPrototype,
    stringPrototype, numberPrototype, booleanPrototype, bigintPrototype, promisePrototype,
    errorPrototype, typeErrorPrototype, referenceErrorPrototype, rangeErrorPrototype,
    syntaxErrorPrototype }

/-- Leaves the realm of the machine for a new one. -/
def enterNewRealm : Action Unit := do
  let realm ← newRealm
  fun m => .ok () { m with realm }
  installLibrary

/-- Runs an action in a realm of its own, with the default options, and comes back. -/
def inNewRealm {α : Type} (a : Action α) : Action α := fun m =>
  let realm := m.realm
  let options := m.options
  let signal := m.signal
  let newTarget := m.newTarget
  let joining := m.joining
  let tests := m.tests
  let inner :=
    { m with options := {}, signal := none, newTarget := none, joining := [], tests := {} }
  -- Heap, frames and output are shared; what belongs to the realm alone is put back.
  match (do enterNewRealm; a) inner with
  | .ok x m => .ok x { m with realm, options, signal, newTarget, joining, tests }
  | .error e m => .error e { m with realm, options, signal, newTarget, joining, tests }

end EcmaEval.Action
