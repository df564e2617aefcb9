import EcmaEval.Grammar.Pattern

/-!
# Functions and classes

Blocks, and the forms of functions that are written with the word `function` or as methods.

A class body is read element by element; it may have one constructor.
-/

namespace EcmaEval.Grammar

open Parse

/-- A block in its braces. -/
def block (inner : Phrases) : Parse (List Statement) := do
  expect .leftBrace
  untilMark .rightBrace inner.item inner.fuel

/-- The body of a function in its braces. -/
def bodyBlock (inner : Phrases) : Parse (List Statement) :=
  withIn (block inner)

/-- The parameters and the body of a function that is not an arrow. -/
def functionRest (inner : Phrases) (name : Option String)
    (isAsync isGenerator superProperty superCall : Bool) : Parse FunctionNode :=
  within (·.inOwnBody isAsync isGenerator superProperty superCall) do
    let params ← parameters inner
    let body ← bodyBlock inner
    return { name, params, body := .block body, isArrow := false, isAsync, isGenerator }

/-- A function declaration, at the word `function`. -/
def functionDeclaration (inner : Phrases) (isAsync : Bool) : Parse Statement := do
  expectWord .functionWord
  let isGenerator ← skipMark .star
  let name ← expectName
  return .function (← functionRest inner (some name) isAsync isGenerator false false)

/-- A function expression, at the word `function`. -/
def functionExpression (inner : Phrases) (isAsync : Bool) : Parse Expression := do
  expectWord .functionWord
  let isGenerator ← skipMark .star
  let name ← skipName
  return .function (← functionRest inner name isAsync isGenerator false false)

/-- A method, at its parameters.  Its name comes from its key. -/
def method (inner : Phrases) (isAsync isGenerator superCall : Bool) : Parse FunctionNode :=
  functionRest inner none isAsync isGenerator true superCall

/-- The token ends the name of a member, so that a modifier before it is that name. -/
def endsMemberName : Token → Bool
  | .punctuator mark =>
    match mark with
    | .leftParen | .assign | .semicolon | .rightBrace | .comma | .colon => true
    | _ => false
  | .endOfInput => true
  | _ => false

/-- The word at hand is a modifier and not the name of a member. -/
def isModifier : Parse Bool := do
  let (token, _) ← peek
  return !endsMemberName token

/-- What kind of accessor a word announces. -/
def accessorWord? : Token → Option MethodKind
  | .identifier "get" => some .getter
  | .identifier "set" => some .setter
  | _ => none

/-- Passes the word of an accessor, if one stands here as a modifier. -/
def skipAccessor : Parse MethodKind := do
  match accessorWord? (← current) with
  | some kind =>
    if ← isModifier then
      advance
      return kind
    return .method
  | none => return .method

end EcmaEval.Grammar

/-! # Classes -/

namespace EcmaEval.Grammar

open Parse

/-- The context of a field's value and of a static block. -/
def initializerContext (c : Context) : Context :=
  c.inOwnBody false false true false

/-- The value of a field. -/
def fieldValue (inner : Phrases) : Parse Expression :=
  within initializerContext (withIn inner.assignment)

/-- A static block, behind its word. -/
def staticBlock (inner : Phrases) : Parse ClassElement :=
  within initializerContext do
    return .staticBlock (← bodyBlock inner)

/-- The key is the plain name `constructor`. -/
def isConstructorKey : PropertyKey → Bool
  | .identifier name | .string name => name == "constructor"
  | _ => false

/-- A method of a class, at its parameters. -/
def classMethod (inner : Phrases) (derived isStatic isAsync isGenerator : Bool)
    (kind : MethodKind) (key : PropertyKey) : Parse ClassElement := do
  if isConstructorKey key && !isStatic then
    unless kind = .method do fail .accessorConstructor
    if isAsync || isGenerator then fail .asyncConstructor
    return .method .constructor isStatic key (← method inner isAsync isGenerator derived)
  return .method kind isStatic key (← method inner isAsync isGenerator false)

/-- A field of a class, behind its key. -/
def classField (inner : Phrases) (isStatic : Bool) (key : PropertyKey) : Parse ClassElement := do
  if isConstructorKey key then fail .constructorField
  let value ← if ← skipMark .assign then some <$> fieldValue inner else pure none
  endStatement
  return .field isStatic key value

/-- Passes the word `async`, if it stands here as a modifier of a method on the same line. -/
def skipAsync : Parse Bool := do
  unless ← atWord .asyncWord do return false
  unless ← isModifier do return false
  let (_, lineEnd) ← peek
  -- Before a line end the word is the key of a field.
  if lineEnd then return false
  advance
  return true

/-- An element of a class, behind the word `static` that it may have. -/
def classMember (inner : Phrases) (derived isStatic : Bool) : Parse ClassElement := do
  let isAsync ← skipAsync
  let isGenerator ← skipMark .star
  let kind ← if isAsync || isGenerator then pure .method else skipAccessor
  let key ← propertyKey inner
  if ← atMark .leftParen then
    classMethod inner derived isStatic isAsync isGenerator kind key
  else if kind ≠ .method || isAsync || isGenerator then unexpected
  else classField inner isStatic key

/-- An element of a class. -/
def classElement (inner : Phrases) (derived : Bool) : Parse ClassElement := do
  unless ← atWord .staticWord do return ← classMember inner derived false
  unless ← isModifier do return ← classMember inner derived false
  advance
  if ← atMark .leftBrace then staticBlock inner
  else classMember inner derived true

/-- The element is the constructor. -/
def isConstructor : ClassElement → Bool
  | .method .constructor .. => true
  | _ => false

/-- The elements of a class up to its closing brace. -/
def classElements (inner : Phrases) (derived hasConstructor : Bool) :
    (fuel : Nat) → Parse (List ClassElement)
  | 0 => fail .exhausted
  | fuel + 1 => do
    if ← skipMark .rightBrace then return []
    if ← skipMark .semicolon then return ← classElements inner derived hasConstructor fuel
    let element ← classElement inner derived
    if isConstructor element && hasConstructor then fail .repeatedConstructor
    let others ← classElements inner derived (hasConstructor || isConstructor element) fuel
    return element :: others

/-- A class.  A declaration needs a name. -/
def classNode (inner : Phrases) (isDeclaration : Bool) : Parse ClassNode := do
  expectWord .classWord
  let name ← if isDeclaration then some <$> expectName else skipName
  let heritage ←
    if ← atWord .extendsWord then
      advance
      some <$> inner.operand
    else pure none
  expect .leftBrace
  let body ← classElements inner heritage.isSome false inner.fuel
  return { name, heritage, body }

end EcmaEval.Grammar
