import EcmaEval.Grammar.Literal

/-!
# Operands

The smallest expressions, and the members, calls and templates that may follow them.  An operand in
brackets, or a list of them, turns out to be the parameters of an arrow function when an arrow
follows.

## Main definitions

* `Grammar.operand`: an operand with all that follows it
* `Grammar.primary`: the smallest expressions
* `Grammar.group`: an expression in brackets, or the parameters of an arrow
* `Grammar.construction`: the forms that begin with `new`
-/

namespace EcmaEval.Grammar

open Parse

/-- An arrow stands here, on the same line as what is before it. -/
def atArrow : Parse Bool := do
  unless ← atMark .arrow do return false
  return !(← afterLineEnd)

/-- An arrow function behind its parameters. -/
def arrow (inner : Phrases) (params : List Pattern) (isAsync : Bool) : Parse Expression := do
  expect .arrow
  within (·.inBody isAsync false) do
    let body ←
      if ← atMark .leftBrace then FunctionBody.block <$> bodyBlock inner
      else FunctionBody.expression <$> inner.assignment
    return .arrow
      { name := none, params, body, isArrow := true, isAsync, isGenerator := false }

/-- Expressions taken as parameters. -/
def toParameters (parts : List Expression) : Parse (List Pattern) :=
  match parts.mapM Expression.toPattern? with
  | some params => pure params
  | none => fail .invalidPattern

/-- What stands between round brackets. -/
inductive Grouped where
  /-- An expression, and whether a comma follows it. -/
  | value (e : Expression) (comma : Bool)
  /-- A rest parameter. -/
  | rest (target : Pattern)

/-- The pattern that is written like a grouped part. -/
def Grouped.toPattern? : Grouped → Option Pattern
  | .value e _ => e.toPattern?
  | .rest target => some (.rest target)

/-- The expressions of a group, unless it has a rest parameter or ends in a comma. -/
def groupValues? : List Grouped → Option (List Expression)
  | [] => some []
  | [.value e false] => some [e]
  | .value e true :: next :: parts => (groupValues? (next :: parts)).map (e :: ·)
  | _ => none

/-- A part of a group. -/
def grouped (inner : Phrases) : Parse Grouped := do
  if ← skipMark .ellipsis then
    let target ← inner.pattern
    unless ← atMark .rightParen do fail .restNotLast
    return .rest target
  let e ← inner.assignment
  if ← atMark .rightParen then return .value e false
  expect .comma
  return .value e true

/-- An expression in brackets, or an arrow function whose parameters stand in them. -/
def group (inner : Phrases) : Parse Expression := do
  expect .leftParen
  let parts ← withIn (untilMark .rightParen (grouped inner) inner.fuel)
  if ← atArrow then
    match parts.mapM Grouped.toPattern? with
    | some params => arrow inner params false
    | none => fail .invalidPattern
  else
    -- Without an arrow an empty group, a comma at the end or a rest parameter means nothing.
    match groupValues? parts with
    | some [e] => return e
    | some (e :: es) => return .sequence (e :: es)
    | _ => unexpected

/-- The word `async`, which begins a function or an arrow function or is a plain name. -/
def asyncOperand (inner : Phrases) : Parse Expression := do
  let (next, lineEnd) ← peek
  advance
  -- A line end behind the word makes it a name like any other.
  if lineEnd then return .identifier "async"
  match next with
  | .keyword .functionWord => functionExpression inner true
  | .punctuator .leftParen =>
    let args ← arguments inner
    if ← atArrow then arrow inner (← toParameters args) true
    else return .call (.identifier "async") args
  | .identifier _ =>
    let name ← expectName
    if ← atArrow then arrow inner [.identifier name] true else unexpected
  | _ =>
    if ← atArrow then arrow inner [.identifier "async"] false
    else return .identifier "async"

/-- The word `super`, which a call or a member has to follow. -/
def superOperand : Parse Expression := do
  advance
  let c ← context
  match ← current with
  | .punctuator .leftParen =>
    if c.superCall then return .super else fail .misplacedSuper
  | .punctuator .dot | .punctuator .leftBracket =>
    if c.superProperty then return .super else fail .misplacedSuper
  | _ => fail .misplacedSuper

/-- A regular expression, of which the token at hand is the beginning; `front` is what that token
has behind the slash. -/
def regExp (front : String) : Parse Expression := do
  match ← special Lexer.readRegExp with
  | .regExp pattern flags =>
    advance
    return .regExp (front ++ pattern) flags
  | _ => unexpected

/-- A template without a tag, whose escapes all have to be valid. -/
def plainTemplate (inner : Phrases) : Parse Expression := do
  let (texts, values) ← template inner
  if texts.any Option.isNone then fail .invalidTemplateEscape
  return .template texts values

/-- A name, or an arrow function with that name for its parameter. -/
def named (inner : Phrases) : Parse Expression := do
  let name ← expectName
  if ← atArrow then arrow inner [.identifier name] false
  else return .identifier name

/-- A smallest expression. -/
def primary (inner : Phrases) : Parse Expression := do
  match ← current with
  | .keyword .thisWord => advance; return .this
  | .keyword .superWord => superOperand
  | .keyword .asyncWord => asyncOperand inner
  | .keyword .functionWord => functionExpression inner false
  | .keyword .classWord => return .class (← classNode inner false)
  | .null => advance; return .literal .null
  | .boolean value => advance; return .literal (.boolean value)
  | .numeric value => advance; return .literal (.number value)
  | .string value => advance; return .literal (.string value)
  | .bigint digits => advance; return .literal (.bigint digits)
  | .punctuator .slash => regExp ""
  | .punctuator .slashAssign => regExp "="
  | .punctuator .leftParen => group inner
  | .punctuator .leftBracket => arrayLiteral inner
  | .punctuator .leftBrace => objectLiteral inner
  | .template .whole _ _ | .template .head _ _ => plainTemplate inner
  | _ => named inner

/-- The name of a member, behind its dot. -/
def memberName : Parse MemberKey := do
  match ← current with
  | .identifier name => advance; return .name name
  | .keyword word => advance; return .name word.text
  | .boolean value => advance; return .name (if value then "true" else "false")
  | .null => advance; return .name "null"
  | .endOfInput => unexpected
  | _ => fail .missingMemberName

/-- The computed key of a member, in its brackets. -/
def computedKey (inner : Phrases) : Parse MemberKey := do
  expect .leftBracket
  let key ← withIn inner.expression
  expect .rightBracket
  return .computed key

/-- The members behind an operand. -/
def members (inner : Phrases) : (fuel : Nat) → Expression → Parse Expression
  | 0, _ => fail .exhausted
  | fuel + 1, e => do
    if ← skipMark .dot then members inner fuel (.member e (← memberName))
    else if ← atMark .leftBracket then members inner fuel (.member e (← computedKey inner))
    else return e

/-- The members and calls behind an optional link. -/
def linkTail (inner : Phrases) : (fuel : Nat) → Expression → Parse Expression
  | 0, _ => fail .exhausted
  | fuel + 1, e => do
    if ← skipMark .dot then linkTail inner fuel (.member e (← memberName))
    else if ← atMark .leftBracket then linkTail inner fuel (.member e (← computedKey inner))
    else if ← atMark .leftParen then linkTail inner fuel (.call e (← arguments inner))
    else return e

/-- What follows an optional link.  It is built on the identifier with the empty name, which stands
for what is before the link. -/
def optionalLink (inner : Phrases) : Parse Expression := do
  let base : Expression := .identifier ""
  let first ←
    if ← atMark .leftParen then .call base <$> arguments inner
    else if ← atMark .leftBracket then .member base <$> computedKey inner
    else .member base <$> memberName
  linkTail inner inner.fuel first

/-- The members, calls, templates and optional links behind an operand. -/
def operandTail (inner : Phrases) : (fuel : Nat) → Expression → Parse Expression
  | 0, _ => fail .exhausted
  | fuel + 1, e => do
    let token ← current
    if token.isMark .dot then
      advance
      operandTail inner fuel (.member e (← memberName))
    else if token.isMark .leftBracket then
      operandTail inner fuel (.member e (← computedKey inner))
    else if token.isMark .leftParen then
      operandTail inner fuel (.call e (← arguments inner))
    else if beginsTemplate token then
      let (texts, values) ← template inner
      operandTail inner fuel (.taggedTemplate e texts values)
    else if token.isMark .optionalChain then
      advance
      operandTail inner fuel (.optionalChain e (← optionalLink inner))
    else return e

/-- The word `target` behind `new` and a dot. -/
def newTarget : Parse Expression := do
  match ← current with
  | .identifier "target" =>
    unless (← context).inFunction do fail .misplacedTarget
    advance
    return .newTarget
  | _ => fail .missingTarget

/-- A construction.  Its constructor may have members but no calls. -/
def construction (inner : Phrases) : Parse Expression := do
  expectWord .newWord
  if ← skipMark .dot then return ← newTarget
  let callee ← if ← atWord .newWord then inner.construction else primary inner
  let callee ← members inner inner.fuel callee
  let args ← if ← atMark .leftParen then arguments inner else pure []
  return .new callee args

/-- An operand with the calls and members behind it. -/
def operand (inner : Phrases) : Parse Expression := do
  let first ← if ← atWord .newWord then construction inner else primary inner
  operandTail inner inner.fuel first

end EcmaEval.Grammar
