import EcmaEval.Grammar.Parse

/-!
# Patterns and keys

Binding targets, formal parameters and the keys of properties.  The parameters of an arrow function
are first read as expressions, and then taken as the patterns that look the same.

## Main definitions

* `Expression.toPattern?`: the pattern that looks like an expression
* `Grammar.pattern`: a binding target
* `Grammar.parameters`: the parameters of a function
* `Grammar.propertyKey`: a key
-/

namespace EcmaEval

mutual

/-- The pattern that is written like an expression, if there is one. -/
def Expression.toPattern? : Expression → Option Pattern
  | .identifier name => some (.identifier name)
  | .assign .plain target value => do return .withDefault (← target.toPattern?) value
  | .spread target => do return .rest (← target.toPattern?)
  | .array elements => do return .array (← elementPatterns? elements)
  | .object members => do return .object (← memberPatterns? members)
  | _ => none

/-- The patterns that are written like the elements of an array. -/
def elementPatterns? : List (Option Expression) → Option (List (Option Pattern))
  | [] => some []
  | .none :: rest => do return .none :: (← elementPatterns? rest)
  | .some e :: rest => do return .some (← e.toPattern?) :: (← elementPatterns? rest)

/-- The patterns that are written like the members of an object. -/
def memberPatterns? : List ObjectMember → Option (List PatternMember)
  | [] => some []
  | ⟨kind, key, value, _⟩ :: rest =>
    match kind with
    | .value => do return ⟨key, ← value.toPattern?⟩ :: (← memberPatterns? rest)
    | _ => none

end

namespace Grammar

open Parse

/-- The key of a property. -/
def propertyKey (inner : Phrases) : Parse PropertyKey := do
  match ← current with
  | .punctuator .leftBracket =>
    advance
    let key ← withIn inner.assignment
    expect .rightBracket
    return .computed key
  | .identifier name => advance; return .identifier name
  | .keyword word => advance; return .identifier word.text
  | .boolean value => advance; return .identifier (if value then "true" else "false")
  | .null => advance; return .identifier "null"
  | .string value => advance; return .string value
  | .numeric value => advance; return .number value
  | .bigint digits => advance; return .string digits
  | _ => unexpected

/-- A binding target with the default value that may follow it. -/
def defaulted (inner : Phrases) (target : Pattern) : Parse Pattern := do
  if ← skipMark .assign then
    return .withDefault target (← withIn inner.assignment)
  return target

/-- An element of an array pattern; an empty place is none. -/
def patternElement (inner : Phrases) : Parse (Option Pattern) := do
  if ← skipMark .comma then return none
  if ← skipMark .ellipsis then
    let target ← inner.pattern
    -- Nothing may follow a rest element, not even a comma.
    unless ← atMark .rightBracket do unexpected
    return some (.rest target)
  let element ← defaulted inner (← inner.pattern)
  separator .rightBracket
  return some element

/-- A member of an object pattern. -/
def patternMember (inner : Phrases) : Parse PatternMember := do
  if ← atMark .ellipsis then fail .restInObjectPattern
  let shorthand ← name?
  let key ← propertyKey inner
  let target ←
    if ← skipMark .colon then defaulted inner (← inner.pattern)
    else
      match shorthand with
      | some name => defaulted inner (.identifier name)
      | none => unexpected
  separator .rightBrace
  return ⟨key, target⟩

/-- A binding target. -/
def pattern (inner : Phrases) : Parse Pattern := do
  if let some name ← skipName then return .identifier name
  if ← skipMark .leftBracket then
    return .array (← untilMark .rightBracket (patternElement inner) inner.fuel)
  if ← skipMark .leftBrace then
    return .object (← untilMark .rightBrace (patternMember inner) inner.fuel)
  unexpected

/-- A formal parameter. -/
def parameter (inner : Phrases) : Parse Pattern := do
  if ← skipMark .ellipsis then
    let target ← inner.pattern
    unless ← atMark .rightParen do fail .restNotLast
    return .rest target
  let target ← defaulted inner (← inner.pattern)
  separator .rightParen
  return target

/-- The formal parameters of a function, in their brackets. -/
def parameters (inner : Phrases) : Parse (List Pattern) := do
  expect .leftParen
  untilMark .rightParen (parameter inner) inner.fuel

end Grammar

end EcmaEval
