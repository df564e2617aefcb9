/-!
# The functions of the library

The functions that every program finds defined, by the object they belong to, each with its name,
the number of arguments it announces and whether it constructs objects.
-/

namespace EcmaEval

/-- A kind of error object. -/
inductive ErrorKind where
  | error
  | type
  | reference
  | range
  | syntactic
  deriving DecidableEq, Repr

/-- The name of a kind of error. -/
def ErrorKind.name : ErrorKind → String
  | .error => "Error"
  | .type => "TypeError"
  | .reference => "ReferenceError"
  | .range => "RangeError"
  | .syntactic => "SyntaxError"

/-- The functions of `Object` and its prototype. -/
inductive ObjectFunction where
  | construct
  | hasOwnProperty
  | toString
  | valueOf
  | keys
  | values
  | entries
  | assign
  | getPrototypeOf
  | setPrototypeOf
  | create
  | getOwnPropertyNames
  | defineProperty
  deriving DecidableEq, Repr

/-- The name and the announced arguments of the function. -/
def ObjectFunction.signature : ObjectFunction → String × Nat
  | .construct => ("Object", 1)
  | .hasOwnProperty => ("hasOwnProperty", 1)
  | .toString => ("toString", 0)
  | .valueOf => ("valueOf", 0)
  | .keys => ("keys", 1)
  | .values => ("values", 1)
  | .entries => ("entries", 1)
  | .assign => ("assign", 2)
  | .getPrototypeOf => ("getPrototypeOf", 1)
  | .setPrototypeOf => ("setPrototypeOf", 2)
  | .create => ("create", 2)
  | .getOwnPropertyNames => ("getOwnPropertyNames", 1)
  | .defineProperty => ("defineProperty", 3)

/-- The methods of functions. -/
inductive FunctionMethod where
  | call
  | apply
  | bind
  | toString
  deriving DecidableEq, Repr

/-- The name and the announced arguments of the method. -/
def FunctionMethod.signature : FunctionMethod → String × Nat
  | .call => ("call", 1)
  | .apply => ("apply", 2)
  | .bind => ("bind", 1)
  | .toString => ("toString", 0)

/-- The functions of `Array` and its prototype. -/
inductive ArrayFunction where
  | construct
  | isArray
  | ofElements
  | fromSource
  | push
  | pop
  | shift
  | unshift
  | slice
  | splice
  | concat
  | join
  | toString
  | indexOf
  | includes
  | reverse
  | sort
  | forEach
  | map
  | filter
  | find
  | findIndex
  | some
  | every
  | reduce
  deriving DecidableEq, Repr

/-- The name and the announced arguments of the function. -/
def ArrayFunction.signature : ArrayFunction → String × Nat
  | .construct => ("Array", 1)
  | .isArray => ("isArray", 1)
  | .ofElements => ("of", 0)
  | .fromSource => ("from", 1)
  | .push => ("push", 1)
  | .pop => ("pop", 0)
  | .shift => ("shift", 0)
  | .unshift => ("unshift", 1)
  | .slice => ("slice", 2)
  | .splice => ("splice", 2)
  | .concat => ("concat", 1)
  | .join => ("join", 1)
  | .toString => ("toString", 0)
  | .indexOf => ("indexOf", 1)
  | .includes => ("includes", 1)
  | .reverse => ("reverse", 0)
  | .sort => ("sort", 1)
  | .forEach => ("forEach", 1)
  | .map => ("map", 1)
  | .filter => ("filter", 1)
  | .find => ("find", 1)
  | .findIndex => ("findIndex", 1)
  | .some => ("some", 1)
  | .every => ("every", 1)
  | .reduce => ("reduce", 1)

/-- The methods of the string prototype that take their receiver as a string. -/
inductive StringMethod where
  | charAt
  | charCodeAt
  | indexOf
  | lastIndexOf
  | includes
  | startsWith
  | endsWith
  | slice
  | substring
  | toUpperCase
  | toLowerCase
  | trim
  | trimStart
  | trimEnd
  | split
  | repetition
  | padStart
  | padEnd
  | concat
  deriving DecidableEq, Repr

/-- The name and the announced arguments of the method. -/
def StringMethod.signature : StringMethod → String × Nat
  | .charAt => ("charAt", 1)
  | .charCodeAt => ("charCodeAt", 1)
  | .indexOf => ("indexOf", 1)
  | .lastIndexOf => ("lastIndexOf", 1)
  | .includes => ("includes", 1)
  | .startsWith => ("startsWith", 1)
  | .endsWith => ("endsWith", 1)
  | .slice => ("slice", 2)
  | .substring => ("substring", 2)
  | .toUpperCase => ("toUpperCase", 0)
  | .toLowerCase => ("toLowerCase", 0)
  | .trim => ("trim", 0)
  | .trimStart => ("trimStart", 0)
  | .trimEnd => ("trimEnd", 0)
  | .split => ("split", 2)
  | .repetition => ("repeat", 1)
  | .padStart => ("padStart", 2)
  | .padEnd => ("padEnd", 2)
  | .concat => ("concat", 1)

/-- The methods of the string prototype, in the order of its properties. -/
def StringMethod.all : List StringMethod :=
  [.charAt, .charCodeAt, .indexOf, .lastIndexOf, .includes, .startsWith, .endsWith, .slice,
   .substring, .toUpperCase, .toLowerCase, .trim, .trimStart, .trimEnd, .split, .repetition,
   .padStart, .padEnd, .concat]

/-- The functions of `String` and its prototype. -/
inductive StringFunction where
  | construct
  | fromCharCode
  | method (m : StringMethod)
  | toString
  | valueOf
  deriving DecidableEq, Repr

/-- The name and the announced arguments of the function. -/
def StringFunction.signature : StringFunction → String × Nat
  | .construct => ("String", 1)
  | .fromCharCode => ("fromCharCode", 1)
  | .method m => m.signature
  | .toString => ("toString", 0)
  | .valueOf => ("valueOf", 0)

/-- The functions of `Number` and its prototype. -/
inductive NumberFunction where
  | construct
  | isInteger
  | isNaN
  | isFinite
  | toString
  | toFixed
  | valueOf
  deriving DecidableEq, Repr

/-- The name and the announced arguments of the function. -/
def NumberFunction.signature : NumberFunction → String × Nat
  | .construct => ("Number", 1)
  | .isInteger => ("isInteger", 1)
  | .isNaN => ("isNaN", 1)
  | .isFinite => ("isFinite", 1)
  | .toString => ("toString", 1)
  | .toFixed => ("toFixed", 1)
  | .valueOf => ("valueOf", 0)

/-- The functions of a type of primitive values that only converts and shows them. -/
inductive WrapperFunction where
  | construct
  | toString
  | valueOf
  deriving DecidableEq, Repr

/-- The name and the announced arguments of the function, for a type with a name. -/
def WrapperFunction.signature (typeName : String) : WrapperFunction → String × Nat
  | .construct => (typeName, 1)
  | .toString => ("toString", 0)
  | .valueOf => ("valueOf", 0)

/-- The functions of `Math`. -/
inductive MathFunction where
  | abs
  | floor
  | ceil
  | round
  | trunc
  | sign
  | sqrt
  | cbrt
  | pow
  | max
  | min
  deriving DecidableEq, Repr

/-- The name and the announced arguments of the function. -/
def MathFunction.signature : MathFunction → String × Nat
  | .abs => ("abs", 1)
  | .floor => ("floor", 1)
  | .ceil => ("ceil", 1)
  | .round => ("round", 1)
  | .trunc => ("trunc", 1)
  | .sign => ("sign", 1)
  | .sqrt => ("sqrt", 1)
  | .cbrt => ("cbrt", 1)
  | .pow => ("pow", 2)
  | .max => ("max", 2)
  | .min => ("min", 2)

/-- The functions of `Promise` and its prototype. -/
inductive PromiseFunction where
  | construct
  | resolve
  | reject
  | thenCall
  | catchCall
  | finallyCall
  deriving DecidableEq, Repr

/-- The name and the announced arguments of the function. -/
def PromiseFunction.signature : PromiseFunction → String × Nat
  | .construct => ("Promise", 1)
  | .resolve => ("resolve", 1)
  | .reject => ("reject", 1)
  | .thenCall => ("then", 2)
  | .catchCall => ("catch", 1)
  | .finallyCall => ("finally", 1)

/-- The functions without an object of their own. -/
inductive GlobalFunction where
  | parseInt
  | parseFloat
  | isNaN
  | isFinite
  deriving DecidableEq, Repr

/-- The name and the announced arguments of the function. -/
def GlobalFunction.signature : GlobalFunction → String × Nat
  | .parseInt => ("parseInt", 2)
  | .parseFloat => ("parseFloat", 1)
  | .isNaN => ("isNaN", 1)
  | .isFinite => ("isFinite", 1)

/-- A function of the library. -/
inductive Builtin where
  | object (f : ObjectFunction)
  | function (f : FunctionMethod)
  | error (kind : ErrorKind)
  | errorToString
  | array (f : ArrayFunction)
  | string (f : StringFunction)
  | number (f : NumberFunction)
  | boolean (f : WrapperFunction)
  | bigint (f : WrapperFunction)
  | math (f : MathFunction)
  | promise (f : PromiseFunction)
  | global (f : GlobalFunction)
  | log
  | logError
  deriving DecidableEq, Repr

namespace Builtin

/-- The name and the announced arguments of the function. -/
def signature : Builtin → String × Nat
  | object f => f.signature
  | function f => f.signature
  | error kind => (kind.name, 1)
  | errorToString => ("toString", 0)
  | array f => f.signature
  | string f => f.signature
  | number f => f.signature
  | boolean f => f.signature "Boolean"
  | bigint f => f.signature "BigInt"
  | math f => f.signature
  | promise f => f.signature
  | global f => f.signature
  | log => ("log", 0)
  | logError => ("error", 0)

/-- The function constructs objects. -/
def isConstructor : Builtin → Bool
  | object .construct | array .construct | promise .construct | error _ => true
  | _ => false

end Builtin

end EcmaEval
