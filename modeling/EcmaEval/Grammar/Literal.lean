import EcmaEval.Grammar.Class

/-!
# Compound literals

Object and array literals, argument lists and templates.
-/

namespace EcmaEval.Grammar

open Parse

/-- An element of a list that may be spread. -/
def spreadable (inner : Phrases) : Parse Expression := do
  if ← skipMark .ellipsis then return .spread (← inner.assignment)
  inner.assignment

/-- An argument of a call. -/
def argument (inner : Phrases) : Parse Expression := do
  let value ← spreadable inner
  separator .rightParen
  return value

/-- The arguments of a call, in their brackets. -/
def arguments (inner : Phrases) : Parse (List Expression) := do
  expect .leftParen
  withIn (untilMark .rightParen (argument inner) inner.fuel)

/-- An element of an array literal; an empty place is none. -/
def arrayElement (inner : Phrases) : Parse (Option Expression) := do
  if ← skipMark .comma then return none
  let value ← spreadable inner
  separator .rightBracket
  return some value

/-- An array literal. -/
def arrayLiteral (inner : Phrases) : Parse Expression := do
  expect .leftBracket
  return .array (← withIn (untilMark .rightBracket (arrayElement inner) inner.fuel))

/-- The kind of member that a method becomes by the word before it. -/
def methodMemberKind : MethodKind → MemberKind
  | .getter => .getter
  | .setter => .setter
  | _ => .method

/-- A member of an object literal with a key. -/
def keyedMember (inner : Phrases) (isAsync isGenerator : Bool) (kind : MethodKind) :
    Parse ObjectMember := do
  let shorthand ← name?
  let key ← propertyKey inner
  if ← atMark .leftParen then
    let node ← method inner isAsync isGenerator false
    return ⟨methodMemberKind kind, key, .function node, false⟩
  if kind ≠ .method || isAsync || isGenerator then unexpected
  if ← skipMark .colon then
    return ⟨.value, key, ← inner.assignment, false⟩
  match shorthand with
  | none => unexpected
  | some name =>
    if ← atMark .assign then fail .shorthandWithValue
    return ⟨.value, key, .identifier name, true⟩

/-- A member of an object literal. -/
def objectMember (inner : Phrases) : Parse ObjectMember := do
  if ← skipMark .ellipsis then
    return ⟨.spread, .identifier "", ← inner.assignment, false⟩
  -- The word is a key when what ends a key follows it.
  let isAsync ← if ← atWord .asyncWord then isModifier else pure false
  if isAsync then advance
  let isGenerator ← skipMark .star
  let kind ← if isAsync || isGenerator then pure .method else skipAccessor
  keyedMember inner isAsync isGenerator kind

/-- An object literal. -/
def objectLiteral (inner : Phrases) : Parse Expression := do
  expect .leftBrace
  let member := do
    let m ← objectMember inner
    separator .rightBrace
    return m
  return .object (← withIn (untilMark .rightBrace member inner.fuel))

/-- The substitutions of a template and the texts behind them, from the first substitution on; the
token at hand is the part of the template before it. -/
def substitutions (inner : Phrases) :
    (fuel : Nat) → Parse (List (Option String) × List Expression)
  | 0 => fail .exhausted
  | fuel + 1 => do
    advance
    let value ← withIn inner.expression
    unless ← atMark .rightBrace do unexpected
    match ← special Lexer.readTemplateContinuation with
    | .template .middle cooked raw =>
      replaceCurrent (.template .middle cooked raw)
      let (texts, values) ← substitutions inner fuel
      return (cooked :: texts, value :: values)
    | .template .tail cooked _ =>
      advance
      return ([cooked], [value])
    | _ => unexpected

/-- The texts and the substitutions of a template. -/
def template (inner : Phrases) : Parse (List (Option String) × List Expression) := do
  match ← current with
  | .template .whole cooked _ =>
    advance
    return ([cooked], [])
  | .template .head cooked _ =>
    let (texts, values) ← substitutions inner inner.fuel
    return (cooked :: texts, values)
  | _ => unexpected

/-- The token begins a template. -/
def beginsTemplate : Token → Bool
  | .template .whole _ _ | .template .head _ _ => true
  | _ => false

end EcmaEval.Grammar
