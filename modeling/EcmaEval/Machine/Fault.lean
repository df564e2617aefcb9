import EcmaEval.Object.Builtin
import EcmaEval.Integer.Arithmetic

/-!
# Faults

The errors that the evaluator itself throws.  A fault is a cause; the kind of the error object that
a program catches, and its message, follow from it.

## Main definitions

* `Fault`: why the evaluator throws
* `Fault.kind`, `Fault.message`: the error object of a fault
-/

namespace EcmaEval

/-- Why the evaluator throws. -/
inductive Fault where
  | notDefined (name : String)
  | notDeclared (name : String)
  | constantAssigned
  /-- A property of `undefined` or `null`, written as `shown`, was read. -/
  | readOfNullish (key shown : String)
  | writeOfNullish (key shown : String)
  | deleteOfNullish (key shown : String)
  | noPrimitive
  | notFunction (shown : String)
  | memberNotFunction (key : String)
  | notConstructor (shown : String)
  | classCalled (name : String)
  | notIterable (shown : String)
  | instanceOfNonFunction
  | instanceOfNonObject
  | keyInNonObject (key shown : String)
  | bigintToNumber
  | mixedBigint
  | bigintUnsignedShift
  | integer (failure : Integer.Failure)
  | awaitPending
  | heritageNotConstructor (shown : String)
  | heritagePrototype
  | derivedResult
  | superOutsideConstructor
  | superTwice
  | superOfNull
  | superNotObject
  | superMissing
  | thisBeforeSuper
  | superProperty
  | superDeleted
  | objectFromNullish
  | assignTarget
  | prototypeType (shown : String)
  | setPrototypeOfNullish
  | cyclicPrototype
  | definePropertyTarget
  | descriptorType (shown : String)
  | getterType (shown : String)
  | setterType (shown : String)
  | mixedDescriptor
  | argumentListType
  | bindTarget
  | functionTextTarget
  | errorTextTarget
  | arrayLength
  | arrayReceiver (method : String)
  | comparator
  | emptyReduce
  | stringReceiver (method : String)
  /-- A method of a primitive type has a receiver of another type. -/
  | primitiveReceiver (typeName method : String)
  | stringLength
  | repeatCount (shown : String)
  | radix
  | fixedPlaces
  | bigintFromFraction (shown : String)
  | bigintFromText (text : String)
  | bigintFromOther (shown : String)
  | promiseWithoutNew
  | promiseExecutor (shown : String)
  | promiseCycle
  | thenReceiver
  | expectOutsideTest
  deriving DecidableEq, Repr

namespace Fault

/-- The kind of error object that a fault throws. -/
def kind : Fault → ErrorKind
  | notDefined _ | notDeclared _ | superTwice | superMissing | superDeleted => .reference
  | integer _ | arrayLength | stringLength | repeatCount _ | radix | fixedPlaces
  | bigintFromFraction _ => .range
  | superProperty | bigintFromText _ => .syntactic
  | expectOutsideTest => .error
  | _ => .type

/-- The message of a fault. -/
def message : Fault → String
  | notDefined name => name ++ " is not defined"
  | notDeclared name => "assignment to undeclared variable " ++ name
  | constantAssigned => "Assignment to constant variable."
  | readOfNullish key shown => "cannot read property \"" ++ key ++ "\" of " ++ shown
  | writeOfNullish key shown => "cannot set property \"" ++ key ++ "\" of " ++ shown
  | deleteOfNullish key shown => "cannot delete property \"" ++ key ++ "\" of " ++ shown
  | noPrimitive => "Cannot convert object to primitive value"
  | notFunction shown => shown ++ " is not a function"
  | memberNotFunction key => "property \"" ++ key ++ "\" is not a function"
  | notConstructor shown => shown ++ " is not a constructor"
  | classCalled name => "Class constructor " ++ name ++ " cannot be invoked without 'new'"
  | notIterable shown => shown ++ " is not iterable"
  | instanceOfNonFunction => "Right-hand side of 'instanceof' is not callable"
  | instanceOfNonObject => "Function has non-object prototype in instanceof check"
  | keyInNonObject key shown =>
    "Cannot use 'in' operator to search for '" ++ key ++ "' in " ++ shown
  | bigintToNumber => "Cannot convert a BigInt value to a number"
  | mixedBigint => "Cannot mix BigInt and other types, use explicit conversions"
  | bigintUnsignedShift => "BigInts have no unsigned right shift, use >> instead"
  | integer failure => failure.message
  | awaitPending => "await on a promise that is still pending"
  | heritageNotConstructor shown =>
    "Class extends value " ++ shown ++ " is not a constructor or null"
  | heritagePrototype => "Class extends value does not have valid prototype property"
  | derivedResult => "Derived constructors may only return object or undefined"
  | superOutsideConstructor => "must call super in class constructor"
  | superTwice => "Super constructor may only be called once"
  | superOfNull => "Super constructor null of anonymous class is not a constructor"
  | superNotObject => "super constructor did not return an object"
  | superMissing =>
    "Must call super constructor in derived class before accessing 'this' or returning from " ++
      "derived constructor"
  | thisBeforeSuper => "must call super first"
  | superProperty => "'super' keyword unexpected here"
  | superDeleted => "Unsupported reference to 'super'"
  | objectFromNullish => "Cannot convert undefined or null to object"
  | assignTarget => "Object.assign target must be an object"
  | prototypeType shown => "Object prototype may only be an Object or null: " ++ shown
  | setPrototypeOfNullish => "Object.setPrototypeOf called on null or undefined"
  | cyclicPrototype => "Cyclic __proto__ value"
  | definePropertyTarget => "Object.defineProperty called on non-object"
  | descriptorType shown => "Property description must be an object: " ++ shown
  | getterType shown => "Getter must be a function: " ++ shown
  | setterType shown => "Setter must be a function: " ++ shown
  | mixedDescriptor =>
    "Invalid property descriptor. Cannot both specify accessors and a value or writable attribute"
  | argumentListType => "CreateListFromArrayLike called on non-object"
  | bindTarget => "Bind must be called on a function"
  | functionTextTarget => "Function.prototype.toString requires that 'this' be a Function"
  | errorTextTarget => "Error.prototype.toString called on non-object"
  | arrayLength => "Invalid array length"
  | arrayReceiver method => "Array.prototype." ++ method ++ " called on non-array"
  | comparator => "The comparison function must be either a function or undefined"
  | emptyReduce => "Reduce of empty array with no initial value"
  | stringReceiver method =>
    "String.prototype." ++ method ++ " called on null or undefined"
  | primitiveReceiver typeName method =>
    typeName ++ ".prototype." ++ method ++ " requires that 'this' be a " ++ typeName
  | stringLength => "Invalid string length"
  | repeatCount shown => "Invalid count value: " ++ shown
  | radix => "toString() radix must be between 2 and 36"
  | fixedPlaces => "toFixed() digits argument must be between 0 and 100"
  | bigintFromFraction shown =>
    "The number " ++ shown ++ " cannot be converted to a BigInt because it is not an integer"
  | bigintFromText text => "Cannot convert " ++ text ++ " to a BigInt"
  | bigintFromOther shown => "Cannot convert " ++ shown ++ " to a BigInt"
  | promiseWithoutNew => "Promise constructor cannot be invoked without 'new'"
  | promiseExecutor shown => "Promise resolver " ++ shown ++ " is not a function"
  | promiseCycle => "Chaining cycle detected for promise"
  | thenReceiver => "Promise.prototype.then called on non-promise"
  | expectOutsideTest => "expect() called outside of a test"

end Fault

end EcmaEval
