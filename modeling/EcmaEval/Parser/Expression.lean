import EcmaEval.Parser.Flags

/-!
# Methods for expressions

The methods of the parser read the phrases that the readers of their names in the grammar read.  The
grammar hands what surrounds a phrase down to its reader; here each phrase finds it in the flags, as
the methods around it and before it have left them.

Flags are written by `Flagged.allowIn` and by the methods for functions, for the values of fields
and for static blocks.  Behind an error they do not matter, because nothing is read any more.

## Main definitions

* `Parser.functionRest`, `Parser.arrow`: functions
* `Parser.fieldValue`, `Parser.staticBlock`: code that is read like a method
* `Parser.assignment`, `Parser.expression`: expressions
-/

namespace EcmaEval.Parser

open Parse Grammar
open Flagged (allowIn enterFunction leaveFunction)

/-! ## Patterns and keys -/

def propertyKey (inner : Methods) : Flagged PropertyKey := do
  match ← current with
  | .punctuator .leftBracket =>
    advance
    let key ← allowIn inner.assignment
    expect .rightBracket
    return .computed key
  | .identifier name => advance; return .identifier name
  | .keyword word => advance; return .identifier word.text
  | .boolean value => advance; return .identifier (if value then "true" else "false")
  | .null => advance; return .identifier "null"
  | .string value => advance; return .string value
  | .numeric value => advance; return .number value
  | .bigint digits => advance; return .string digits
  | _ => unexpected

def defaulted (inner : Methods) (target : Pattern) : Flagged Pattern := do
  if ← skipMark .assign then
    return .withDefault target (← allowIn inner.assignment)
  return target

def patternElement (inner : Methods) : Flagged (Option Pattern) := do
  if ← skipMark .comma then return none
  if ← skipMark .ellipsis then
    let target ← inner.pattern
    unless ← atMark .rightBracket do unexpected
    return some (.rest target)
  let element ← defaulted inner (← inner.pattern)
  separator .rightBracket
  return some element

def patternMember (inner : Methods) : Flagged PatternMember := do
  if ← atMark .ellipsis then fail .restInObjectPattern
  let shorthand ← name?
  let key ← propertyKey inner
  let target ←
    if ← skipMark .colon then defaulted inner (← inner.pattern)
    else
      match shorthand with
      | some name => defaulted inner (.identifier name)
      | none => unexpected
  separator .rightBrace
  return ⟨key, target⟩

def pattern (inner : Methods) : Flagged Pattern := do
  if let some name ← skipName then return .identifier name
  if ← skipMark .leftBracket then
    return .array (← Flagged.untilMark .rightBracket (patternElement inner) inner.fuel)
  if ← skipMark .leftBrace then
    return .object (← Flagged.untilMark .rightBrace (patternMember inner) inner.fuel)
  unexpected

def parameter (inner : Methods) : Flagged Pattern := do
  if ← skipMark .ellipsis then
    let target ← inner.pattern
    unless ← atMark .rightParen do fail .restNotLast
    return .rest target
  let target ← defaulted inner (← inner.pattern)
  separator .rightParen
  return target

def parameters (inner : Methods) : Flagged (List Pattern) := do
  expect .leftParen
  Flagged.untilMark .rightParen (parameter inner) inner.fuel

/-! ## Functions and classes -/

def block (inner : Methods) : Flagged (List Statement) := do
  expect .leftBrace
  Flagged.untilMark .rightBrace inner.item inner.fuel

def bodyBlock (inner : Methods) : Flagged (List Statement) :=
  allowIn (block inner)

/-- The parameters and the body of a function that is not an arrow.  What `super` may be used for is
written over what entering the function has left. -/
def functionRest (inner : Methods) (name : Option String)
    (isAsync isGenerator superProperty superCall : Bool) : Flagged FunctionNode := do
  let saved ← enterFunction isAsync isGenerator false
  modify ({ · with superProperty, superCall })
  let (params, body) ← (do
    let params ← parameters inner
    return (params, ← bodyBlock inner))
  leaveFunction saved
  return { name, params, body := .block body, isArrow := false, isAsync, isGenerator }

def functionDeclaration (inner : Methods) (isAsync : Bool) : Flagged Statement := do
  expectWord .functionWord
  let isGenerator ← skipMark .star
  let name ← expectName
  return .function (← functionRest inner (some name) isAsync isGenerator false false)

def functionExpression (inner : Methods) (isAsync : Bool) : Flagged Expression := do
  expectWord .functionWord
  let isGenerator ← skipMark .star
  let name ← skipName
  return .function (← functionRest inner name isAsync isGenerator false false)

def method (inner : Methods) (isAsync isGenerator superCall : Bool) : Flagged FunctionNode :=
  functionRest inner none isAsync isGenerator true superCall

/-- The value of a field, read like the body of a method. -/
def fieldValue (inner : Methods) : Flagged Expression := do
  let saved ← enterFunction false false false
  modify ({ · with superProperty := true })
  let value ← allowIn inner.assignment
  leaveFunction saved
  return value

/-- A static block, read like the body of a method. -/
def staticBlock (inner : Methods) : Flagged ClassElement := do
  let saved ← enterFunction false false false
  modify ({ · with superProperty := true })
  let body ← bodyBlock inner
  leaveFunction saved
  return .staticBlock body

def classMethod (inner : Methods) (derived isStatic isAsync isGenerator : Bool)
    (kind : MethodKind) (key : PropertyKey) : Flagged ClassElement := do
  if isConstructorKey key && !isStatic then
    unless kind = .method do fail .accessorConstructor
    if isAsync || isGenerator then fail .asyncConstructor
    return .method .constructor isStatic key (← method inner isAsync isGenerator derived)
  return .method kind isStatic key (← method inner isAsync isGenerator false)

def classField (inner : Methods) (isStatic : Bool) (key : PropertyKey) : Flagged ClassElement := do
  if isConstructorKey key then fail .constructorField
  let value ← if ← skipMark .assign then some <$> fieldValue inner else pure none
  endStatement
  return .field isStatic key value

def classMember (inner : Methods) (derived isStatic : Bool) : Flagged ClassElement := do
  let isAsync ← skipAsync
  let isGenerator ← skipMark .star
  let kind ← if isAsync || isGenerator then pure .method else skipAccessor
  let key ← propertyKey inner
  if ← atMark .leftParen then
    classMethod inner derived isStatic isAsync isGenerator kind key
  else if kind ≠ .method || isAsync || isGenerator then unexpected
  else classField inner isStatic key

def classElement (inner : Methods) (derived : Bool) : Flagged ClassElement := do
  unless ← atWord .staticWord do return ← classMember inner derived false
  unless ← isModifier do return ← classMember inner derived false
  advance
  if ← atMark .leftBrace then staticBlock inner
  else classMember inner derived true

def classElements (inner : Methods) (derived hasConstructor : Bool) :
    (fuel : Nat) → Flagged (List ClassElement)
  | 0 => fail .exhausted
  | fuel + 1 => do
    if ← skipMark .rightBrace then return []
    if ← skipMark .semicolon then return ← classElements inner derived hasConstructor fuel
    let element ← classElement inner derived
    if isConstructor element && hasConstructor then fail .repeatedConstructor
    let others ← classElements inner derived (hasConstructor || isConstructor element) fuel
    return element :: others

def classNode (inner : Methods) (isDeclaration : Bool) : Flagged ClassNode := do
  expectWord .classWord
  let name ← if isDeclaration then some <$> expectName else skipName
  let heritage ←
    if ← atWord .extendsWord then
      advance
      some <$> inner.operand
    else pure none
  expect .leftBrace
  let body ← classElements inner heritage.isSome false inner.fuel
  return { name, heritage, body }

/-! ## Compound literals -/

def spreadable (inner : Methods) : Flagged Expression := do
  if ← skipMark .ellipsis then return .spread (← inner.assignment)
  inner.assignment

def argument (inner : Methods) : Flagged Expression := do
  let value ← spreadable inner
  separator .rightParen
  return value

def arguments (inner : Methods) : Flagged (List Expression) := do
  expect .leftParen
  allowIn (Flagged.untilMark .rightParen (argument inner) inner.fuel)

def arrayElement (inner : Methods) : Flagged (Option Expression) := do
  if ← skipMark .comma then return none
  let value ← spreadable inner
  separator .rightBracket
  return some value

def arrayLiteral (inner : Methods) : Flagged Expression := do
  expect .leftBracket
  return .array (← allowIn (Flagged.untilMark .rightBracket (arrayElement inner) inner.fuel))

def keyedMember (inner : Methods) (isAsync isGenerator : Bool) (kind : MethodKind) :
    Flagged ObjectMember := do
  let shorthand ← name?
  let key ← propertyKey inner
  if ← atMark .leftParen then
    let node ← method inner isAsync isGenerator false
    return ⟨methodMemberKind kind, key, .function node, false⟩
  if kind ≠ .method || isAsync || isGenerator then unexpected
  if ← skipMark .colon then
    return ⟨.value, key, ← inner.assignment, false⟩
  match shorthand with
  | none => unexpected
  | some name =>
    if ← atMark .assign then fail .shorthandWithValue
    return ⟨.value, key, .identifier name, true⟩

def objectMember (inner : Methods) : Flagged ObjectMember := do
  if ← skipMark .ellipsis then
    return ⟨.spread, .identifier "", ← inner.assignment, false⟩
  let isAsync ← if ← atWord .asyncWord then isModifier else pure false
  if isAsync then advance
  let isGenerator ← skipMark .star
  let kind ← if isAsync || isGenerator then pure .method else skipAccessor
  keyedMember inner isAsync isGenerator kind

def objectLiteral (inner : Methods) : Flagged Expression := do
  expect .leftBrace
  let member := do
    let m ← objectMember inner
    separator .rightBrace
    return m
  return .object (← allowIn (Flagged.untilMark .rightBrace member inner.fuel))

def substitutions (inner : Methods) :
    (fuel : Nat) → Flagged (List (Option String) × List Expression)
  | 0 => fail .exhausted
  | fuel + 1 => do
    advance
    let value ← allowIn inner.expression
    unless ← atMark .rightBrace do unexpected
    match ← special Lexer.readTemplateContinuation with
    | .template .middle cooked raw =>
      replaceCurrent (.template .middle cooked raw)
      let (texts, values) ← substitutions inner fuel
      return (cooked :: texts, value :: values)
    | .template .tail cooked _ =>
      advance
      return ([cooked], [value])
    | _ => unexpected

def template (inner : Methods) : Flagged (List (Option String) × List Expression) := do
  match ← current with
  | .template .whole cooked _ =>
    advance
    return ([cooked], [])
  | .template .head cooked _ =>
    let (texts, values) ← substitutions inner inner.fuel
    return (cooked :: texts, values)
  | _ => unexpected

/-! ## Operands -/

/-- The body of an arrow function, which is a block or an expression. -/
def arrowBody (inner : Methods) : Flagged FunctionBody := do
  if ← atMark .leftBrace then FunctionBody.block <$> bodyBlock inner
  else FunctionBody.expression <$> inner.assignment

/-- An arrow function behind its parameters, of which only the body has flags of its own. -/
def arrow (inner : Methods) (params : List Pattern) (isAsync : Bool) : Flagged Expression := do
  expect .arrow
  let saved ← enterFunction isAsync false true
  let body ← arrowBody inner
  leaveFunction saved
  return .arrow { name := none, params, body, isArrow := true, isAsync, isGenerator := false }

def grouped (inner : Methods) : Flagged Grouped := do
  if ← skipMark .ellipsis then
    let target ← inner.pattern
    unless ← atMark .rightParen do fail .restNotLast
    return .rest target
  let e ← inner.assignment
  if ← atMark .rightParen then return .value e false
  expect .comma
  return .value e true

def group (inner : Methods) : Flagged Expression := do
  expect .leftParen
  let parts ← allowIn (Flagged.untilMark .rightParen (grouped inner) inner.fuel)
  if ← atArrow then
    match parts.mapM Grouped.toPattern? with
    | some params => arrow inner params false
    | none => fail .invalidPattern
  else
    match groupValues? parts with
    | some [e] => return e
    | some (e :: es) => return .sequence (e :: es)
    | _ => unexpected

def asyncOperand (inner : Methods) : Flagged Expression := do
  let (next, lineEnd) ← peek
  advance
  if lineEnd then return .identifier "async"
  match next with
  | .keyword .functionWord => functionExpression inner true
  | .punctuator .leftParen =>
    let args ← arguments inner
    if ← atArrow then arrow inner (← toParameters args) true
    else return .call (.identifier "async") args
  | .identifier _ =>
    let name ← expectName
    if ← atArrow then arrow inner [.identifier name] true else unexpected
  | _ =>
    if ← atArrow then arrow inner [.identifier "async"] false
    else return .identifier "async"

def plainTemplate (inner : Methods) : Flagged Expression := do
  let (texts, values) ← template inner
  if texts.any Option.isNone then fail .invalidTemplateEscape
  return .template texts values

def named (inner : Methods) : Flagged Expression := do
  let name ← expectName
  if ← atArrow then arrow inner [.identifier name] false
  else return .identifier name

def primary (inner : Methods) : Flagged Expression := do
  match ← current with
  | .keyword .thisWord => advance; return .this
  | .keyword .superWord => superOperand
  | .keyword .asyncWord => asyncOperand inner
  | .keyword .functionWord => functionExpression inner false
  | .keyword .classWord => return .class (← classNode inner false)
  | .null => advance; return .literal .null
  | .boolean value => advance; return .literal (.boolean value)
  | .numeric value => advance; return .literal (.number value)
  | .string value => advance; return .literal (.string value)
  | .bigint digits => advance; return .literal (.bigint digits)
  | .punctuator .slash => regExp ""
  | .punctuator .slashAssign => regExp "="
  | .punctuator .leftParen => group inner
  | .punctuator .leftBracket => arrayLiteral inner
  | .punctuator .leftBrace => objectLiteral inner
  | .template .whole _ _ | .template .head _ _ => plainTemplate inner
  | _ => named inner

def computedKey (inner : Methods) : Flagged MemberKey := do
  expect .leftBracket
  let key ← allowIn inner.expression
  expect .rightBracket
  return .computed key

def members (inner : Methods) : (fuel : Nat) → Expression → Flagged Expression
  | 0, _ => fail .exhausted
  | fuel + 1, e => do
    if ← skipMark .dot then members inner fuel (.member e (← memberName))
    else if ← atMark .leftBracket then members inner fuel (.member e (← computedKey inner))
    else return e

def linkTail (inner : Methods) : (fuel : Nat) → Expression → Flagged Expression
  | 0, _ => fail .exhausted
  | fuel + 1, e => do
    if ← skipMark .dot then linkTail inner fuel (.member e (← memberName))
    else if ← atMark .leftBracket then linkTail inner fuel (.member e (← computedKey inner))
    else if ← atMark .leftParen then linkTail inner fuel (.call e (← arguments inner))
    else return e

def optionalLink (inner : Methods) : Flagged Expression := do
  let base : Expression := .identifier ""
  let first ←
    if ← atMark .leftParen then .call base <$> arguments inner
    else if ← atMark .leftBracket then .member base <$> computedKey inner
    else .member base <$> memberName
  linkTail inner inner.fuel first

def operandTail (inner : Methods) : (fuel : Nat) → Expression → Flagged Expression
  | 0, _ => fail .exhausted
  | fuel + 1, e => do
    let token ← current
    if token.isMark .dot then
      advance
      operandTail inner fuel (.member e (← memberName))
    else if token.isMark .leftBracket then
      operandTail inner fuel (.member e (← computedKey inner))
    else if token.isMark .leftParen then
      operandTail inner fuel (.call e (← arguments inner))
    else if beginsTemplate token then
      let (texts, values) ← template inner
      operandTail inner fuel (.taggedTemplate e texts values)
    else if token.isMark .optionalChain then
      advance
      operandTail inner fuel (.optionalChain e (← optionalLink inner))
    else return e

def construction (inner : Methods) : Flagged Expression := do
  expectWord .newWord
  if ← skipMark .dot then return ← newTarget
  let callee ← if ← atWord .newWord then inner.construction else primary inner
  let callee ← members inner inner.fuel callee
  let args ← if ← atMark .leftParen then arguments inner else pure []
  return .new callee args

def operand (inner : Methods) : Flagged Expression := do
  let first ← if ← atWord .newWord then construction inner else primary inner
  operandTail inner inner.fuel first

/-! ## Operators -/

def stepped (inner : Methods) : Flagged Expression := do
  let e ← operand inner
  if ← afterLineEnd then return e
  match updateOperator? (← current) with
  | none => return e
  | some op =>
    checkTarget true e
    advance
    return .update op false e

def unary (inner : Methods) : Flagged Expression := do
  let token ← current
  if let some op := unaryOperator? token then
    advance
    return .unary op (← inner.unary)
  if let some op := updateOperator? token then
    advance
    let target ← inner.unary
    checkTarget true target
    return .update op true target
  if token.isWord .awaitWord && (← context).awaits then
    advance
    return .await (← inner.unary)
  stepped inner

def power (inner : Methods) : Flagged Expression := do
  let isUnary := (unaryOperator? (← current)).isSome
  let base ← unary inner
  unless ← atMark .exponent do return base
  if isUnary then fail .unaryBeforePower
  advance
  return .binary .power base (← inner.power)

def binaryTail (inner : Methods) (level : Nat) : (fuel : Nat) → Expression → Flagged Expression
  | 0, _ => fail .exhausted
  | fuel + 1, left => do
    match binaryOperator? (← context).noIn (← current) with
    | none => return left
    | some (op, tightness) =>
      if tightness ≤ level then return left
      advance
      let right ← inner.binary tightness
      binaryTail inner level fuel (.binary op left right)

def binary (inner : Methods) (level : Nat) : Flagged Expression := do
  binaryTail inner level inner.fuel (← power inner)

def logicalTail (mark : Punctuator) (op : LogicalOperator) (next : Flagged Expression) :
    (fuel : Nat) → Expression → Flagged Expression
  | 0, _ => fail .exhausted
  | fuel + 1, left => do
    if ← skipMark mark then
      let right ← next
      logicalTail mark op next fuel (.logical op left right)
    else return left

def conjunction (inner : Methods) : Flagged Expression := do
  logicalTail .logicalAnd .and (binary inner 0) inner.fuel (← binary inner 0)

def disjunction (inner : Methods) : Flagged Expression := do
  logicalTail .logicalOr .or (conjunction inner) inner.fuel (← conjunction inner)

def coalescence (inner : Methods) : Flagged Expression := do
  logicalTail .nullishCoalescing .coalesce (disjunction inner) inner.fuel (← disjunction inner)

def conditional (inner : Methods) : Flagged Expression := do
  let test ← coalescence inner
  unless ← skipMark .question do return test
  let consequent ← allowIn inner.assignment
  expect .colon
  return .conditional test consequent (← inner.assignment)

def yielded (inner : Methods) : Flagged Expression := do
  advance
  if ← afterLineEnd then return .yield none false
  if endsYield (← current) then return .yield none false
  let delegate ← skipMark .star
  return .yield (some (← inner.assignment)) delegate

def assignment (inner : Methods) : Flagged Expression := do
  if (← context).inGenerator && (← atWord .yieldWord) then return ← yielded inner
  let target ← conditional inner
  match assignmentOperator? (← current) with
  | none => return target
  | some op =>
    checkTarget (op ≠ .plain) target
    advance
    return .assign op target (← inner.assignment)

def sequenceTail (inner : Methods) : (fuel : Nat) → Flagged (List Expression)
  | 0 => fail .exhausted
  | fuel + 1 => do
    unless ← skipMark .comma do return []
    let part ← inner.assignment
    return part :: (← sequenceTail inner fuel)

def expression (inner : Methods) : Flagged Expression := do
  let first ← assignment inner
  match ← sequenceTail inner inner.fuel with
  | [] => return first
  | others => return .sequence (first :: others)

end EcmaEval.Parser
