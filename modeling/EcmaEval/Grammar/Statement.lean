import EcmaEval.Grammar.Expression

/-!
# Statements and programs

Statements, and the readers of all phrases tied together.

## Main definitions

* `Grammar.statement`: a statement
* `Grammar.item`: a statement or a declaration
* `Phrases.ofDepth`: the readers that nest some phrases deep
* `Grammar.program`: a program
-/

namespace EcmaEval

namespace Grammar

open Parse

/-- The kind of declaration that a word announces. -/
def declarationKind? : Token → Option DeclarationKind
  | .keyword .varWord => some .variable
  | .keyword .letWord => some .lexical
  | .keyword .constWord => some .constant
  | _ => none

/-- A word that the head of a loop over keys or elements has behind its target. -/
def isLoopWord : Token → Bool
  | .keyword .inWord | .keyword .ofWord => true
  | _ => false

/-- One variable of a declaration.  A constant and a pattern need a value, unless a loop over keys
or elements gives it to them. -/
def declarator (inner : Phrases) (kind : DeclarationKind) : Parse Declarator := do
  let target ← pattern inner
  match target with
  | .identifier "let" => unless kind = .variable do fail .letAsName
  | _ => pure ()
  if ← skipMark .assign then return ⟨target, some (← inner.assignment)⟩
  -- Only the head of a `for` is read without `in`, so this is the target of such a loop.
  let looped := (← context).noIn && isLoopWord (← current)
  if (kind = .constant || !target.isIdentifier) && !looped then fail .missingInitializer
  return ⟨target, none⟩

/-- The variables of a declaration. -/
def declarators (inner : Phrases) (kind : DeclarationKind) :
    (fuel : Nat) → Parse (List Declarator)
  | 0 => fail .exhausted
  | fuel + 1 => do
    let first ← declarator inner kind
    unless ← skipMark .comma do return [first]
    return first :: (← declarators inner kind fuel)

/-- A declaration of variables, at its word. -/
def declaration (inner : Phrases) (kind : DeclarationKind) : Parse Statement := do
  advance
  let declared ← declarators inner kind inner.fuel
  endStatement
  return .declaration kind declared

/-- An expression in round brackets. -/
def bracketed (inner : Phrases) : Parse Expression := do
  expect .leftParen
  let e ← withIn inner.expression
  expect .rightParen
  return e

/-- The body of a loop. -/
def loopBody (inner : Phrases) : Parse Statement :=
  within (fun c => { c with inLoop := true }) inner.statement

/-- A conditional statement. -/
def ifStatement (inner : Phrases) : Parse Statement := do
  advance
  let test ← bracketed inner
  let consequent ← inner.statement
  if ← atWord .elseWord then
    advance
    return .if test consequent (some (← inner.statement))
  return .if test consequent none

/-- A loop with its test in front. -/
def whileStatement (inner : Phrases) : Parse Statement := do
  advance
  let test ← bracketed inner
  return .while test (← loopBody inner)

/-- A loop with its test at the end, which needs no semicolon. -/
def doStatement (inner : Phrases) : Parse Statement := do
  advance
  let body ← loopBody inner
  expectWord .whileWord
  let test ← bracketed inner
  let _ ← skipMark .semicolon
  return .doWhile body test

/-- A loop over keys or elements, at the word behind its target. -/
def forEach (inner : Phrases) (head : ForHead) : Parse Statement := do
  if ← atWord .ofWord then
    advance
    let iterable ← withIn inner.assignment
    expect .rightParen
    return .forOf head iterable (← loopBody inner)
  else
    advance
    let object ← withIn inner.expression
    expect .rightParen
    return .forIn head object (← loopBody inner)

/-- A loop with a head of three parts, behind the first of them. -/
def forParts (inner : Phrases) (init : Option ForInit) : Parse Statement := do
  expect .semicolon
  let test ← if ← atMark .semicolon then pure none else some <$> withIn inner.expression
  expect .semicolon
  let update ← if ← atMark .rightParen then pure none else some <$> withIn inner.expression
  expect .rightParen
  return .for init test update (← loopBody inner)

/-- Reads with the operator `in` not allowed. -/
def withoutIn {α : Type} (phrase : Parse α) : Parse α :=
  within (fun c => { c with noIn := true }) phrase

/-- A loop with a head that begins with a declaration. -/
def forDeclaration (inner : Phrases) (kind : DeclarationKind) : Parse Statement := do
  advance
  let declared ← withoutIn (declarators inner kind inner.fuel)
  match declared with
  -- Only a single variable without a value can be what a loop over keys or elements binds.
  | [⟨target, none⟩] =>
    if isLoopWord (← current) then return ← forEach inner (.declaration kind target)
  | _ => pure ()
  forParts inner (some (.declaration kind declared))

/-- A loop with a head that begins with an expression. -/
def forExpression (inner : Phrases) : Parse Statement := do
  let e ← withoutIn inner.expression
  unless isLoopWord (← current) do return ← forParts inner (some (.expression e))
  unless isTarget true e do fail .invalidLoopTarget
  forEach inner (.target e)

/-- A loop with a head in brackets. -/
def forStatement (inner : Phrases) : Parse Statement := do
  advance
  if ← atWord .awaitWord then fail .awaitingLoop
  expect .leftParen
  let token ← current
  if token.isMark .semicolon then forParts inner none
  else
    match declarationKind? token with
    | some kind => forDeclaration inner kind
    | none => forExpression inner

/-- A statement that takes an operand on its line may end here. -/
def atStatementEnd : Parse Bool := do
  if ← afterLineEnd then return true
  let token ← current
  return token.isMark .semicolon || token.isMark .rightBrace || token.isEnd

/-- A return, with the value that may stand on its line. -/
def returnStatement (inner : Phrases) : Parse Statement := do
  let c ← context
  unless c.inFunction || c.options.returnOutsideFunction do fail .illegalReturn
  advance
  let value ← if ← atStatementEnd then pure none else some <$> expression inner
  endStatement
  return .return value

/-- The label that a jump names on its line. -/
def jumpLabel : Parse (Option String) := do
  if ← atStatementEnd then return none
  skipName

/-- A `break`, with the label that may stand on its line. -/
def breakStatement : Parse Statement := do
  advance
  let label ← jumpLabel
  let c ← context
  match label with
  | some name => if (c.labels.lookup name).isNone then fail (.undefinedLabel name)
  | none => unless c.inLoop || c.inSwitch do fail .illegalBreak
  endStatement
  return .break label

/-- A `continue`, with the label that may stand on its line. -/
def continueStatement : Parse Statement := do
  advance
  let c ← context
  -- Outside of all loops the label does not matter any more.
  unless c.inLoop do fail .illegalContinue
  let label ← jumpLabel
  if let some name := label then
    match c.labels.lookup name with
    | none => fail (.undefinedLabel name)
    | some false => fail (.notALoop name)
    | some true => pure ()
  endStatement
  return .continue label

/-- A throw, whose value stands on its line. -/
def throwStatement (inner : Phrases) : Parse Statement := do
  advance
  if ← afterLineEnd then fail .lineEndAfterThrow
  let value ← expression inner
  endStatement
  return .throw value

/-- The handler of a try statement, behind its word. -/
def handler (inner : Phrases) : Parse CatchClause := do
  if ← skipMark .leftParen then
    let param ← inner.pattern
    expect .rightParen
    return ⟨some param, ← block inner⟩
  return ⟨none, ← block inner⟩

/-- A try statement, which has a handler, a final part, or both. -/
def tryStatement (inner : Phrases) : Parse Statement := do
  advance
  let body ← block inner
  let handler ←
    if ← atWord .catchWord then
      advance
      some <$> handler inner
    else pure none
  let finalizer ←
    if ← atWord .finallyWord then
      advance
      some <$> block inner
    else pure none
  if handler.isNone && finalizer.isNone then fail .missingHandler
  return .try body handler finalizer

/-- The token ends the statements of a case. -/
def endsCase : Token → Bool
  | .keyword .caseWord | .keyword .defaultWord | .punctuator .rightBrace => true
  | _ => false

/-- The statements of a case, from its colon on. -/
def caseBody (inner : Phrases) : Parse (List Statement) := do
  expect .colon
  untilToken endsCase inner.item inner.fuel

/-- The cases of a switch up to its closing brace. -/
def switchCases (inner : Phrases) (hasDefault : Bool) : (fuel : Nat) → Parse (List SwitchCase)
  | 0 => fail .exhausted
  | fuel + 1 => do
    match ← current with
    | .punctuator .rightBrace =>
      advance
      return []
    | .keyword .caseWord =>
      advance
      let test ← withIn inner.expression
      let body ← caseBody inner
      return ⟨some test, body⟩ :: (← switchCases inner hasDefault fuel)
    | .keyword .defaultWord =>
      if hasDefault then fail .repeatedDefault
      advance
      let body ← caseBody inner
      return ⟨none, body⟩ :: (← switchCases inner true fuel)
    | _ => unexpected

/-- A switch. -/
def switchStatement (inner : Phrases) : Parse Statement := do
  advance
  let discriminant ← bracketed inner
  expect .leftBrace
  within (fun c => { c with inSwitch := true }) do
    return .switch discriminant (← switchCases inner false inner.fuel)

/-- A `with` statement. -/
def withStatement (inner : Phrases) : Parse Statement := do
  advance
  let object ← bracketed inner
  return .with object (← inner.statement)

/-- The token begins a loop. -/
def beginsLoop : Token → Bool
  | .keyword .forWord | .keyword .whileWord | .keyword .doWord => true
  | _ => false

/-- A statement with a label. -/
def labeledStatement (inner : Phrases) : Parse Statement := do
  let label ← expectName
  expect .colon
  if ((← context).labels.lookup label).isSome then fail (.repeatedLabel label)
  let token ← current
  -- The token behind the label tells whether a `continue` may aim at it.
  within (fun c => { c with labels := (label, beginsLoop token) :: c.labels }) do
    if token.isWord .functionWord then return .labeled label (← functionDeclaration inner false)
    else return .labeled label (← inner.statement)

/-- A label stands here. -/
def atLabel : Parse Bool := do
  unless (← name?).isSome do return false
  let (next, _) ← peek
  return next.isMark .colon

/-- An expression as a statement, or a statement with a label. -/
def expressionStatement (inner : Phrases) : Parse Statement := do
  if ← atLabel then return ← labeledStatement inner
  let e ← expression inner
  endStatement
  return .expression e

/-- A statement. -/
def statement (inner : Phrases) : Parse Statement := do
  match ← current with
  | .punctuator .leftBrace => return .block (← block inner)
  | .punctuator .semicolon => advance; return .empty
  | .keyword word =>
    match word with
    | .varWord => declaration inner .variable
    | .ifWord => ifStatement inner
    | .whileWord => whileStatement inner
    | .doWord => doStatement inner
    | .forWord => forStatement inner
    | .returnWord => returnStatement inner
    | .breakWord => breakStatement
    | .continueWord => continueStatement
    | .throwWord => throwStatement inner
    | .tryWord => tryStatement inner
    | .switchWord => switchStatement inner
    | .withWord => withStatement inner
    | .debuggerWord => do
      advance
      endStatement
      return .debugger
    | .functionWord | .classWord => fail .declarationAsStatement
    | _ => expressionStatement inner
  | _ => expressionStatement inner

/-- A function declaration follows the word `async` on its line. -/
def atAsyncFunction : Parse Bool := do
  let (next, lineEnd) ← peek
  return next.isWord .functionWord && !lineEnd

/-- A statement or declaration. -/
def item (inner : Phrases) : Parse Statement := do
  match ← current with
  | .keyword .functionWord => functionDeclaration inner false
  | .keyword .asyncWord =>
    if ← atAsyncFunction then
      advance
      functionDeclaration inner true
    else statement inner
  | .keyword .classWord => return .class (← classNode inner true)
  | .keyword .letWord => declaration inner .lexical
  | .keyword .constWord => declaration inner .constant
  | .keyword .importWord | .keyword .exportWord => fail .importOutsideModule
  | _ => statement inner

end Grammar

/-- The readers of all phrases, for phrases that contain each other to a depth. -/
def Phrases.ofDepth : Nat → Phrases
  | 0 => .none
  | depth + 1 =>
    { fuel := depth + 1
      item := fun c r => Grammar.item (ofDepth depth) c r
      statement := fun c r => Grammar.statement (ofDepth depth) c r
      expression := fun c r => Grammar.expression (ofDepth depth) c r
      assignment := fun c r => Grammar.assignment (ofDepth depth) c r
      binary := fun level c r => Grammar.binary (ofDepth depth) level c r
      power := fun c r => Grammar.power (ofDepth depth) c r
      unary := fun c r => Grammar.unary (ofDepth depth) c r
      operand := fun c r => Grammar.operand (ofDepth depth) c r
      construction := fun c r => Grammar.construction (ofDepth depth) c r
      pattern := fun c r => Grammar.pattern (ofDepth depth) c r }

/-- A program, up to the end of the text. -/
def Grammar.program (inner : Phrases) : Parse Program := do
  Parse.advance
  return ⟨← Parse.untilToken Token.isEnd (Grammar.item inner) inner.fuel⟩

end EcmaEval
