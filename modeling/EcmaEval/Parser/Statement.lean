import EcmaEval.Parser.Expression

/-!
# Methods for statements

Loops and switches are counted while their bodies are read, labels are pushed and popped, and the
head of a `for` sets the flag of the operator `in` and clears it, without a look at what it was.

## Main definitions

* `Parser.loopBody`, `Parser.switchStatement`, `Parser.labeledStatement`: what jumps may aim at
* `Parser.forDeclaration`, `Parser.forExpression`: the heads of loops
* `Parser.statement`, `Parser.item`: statements and declarations
* `Methods.ofDepth`: the methods for phrases that nest some phrases deep
* `Program.ofText`: the program of a text
-/

namespace EcmaEval

namespace Parser

open Parse Grammar
open Flagged (allowIn)

def declarator (inner : Methods) (kind : DeclarationKind) : Flagged Declarator := do
  let target ← pattern inner
  match target with
  | .identifier "let" => unless kind = .variable do fail .letAsName
  | _ => pure ()
  if ← skipMark .assign then return ⟨target, some (← inner.assignment)⟩
  let looped := (← context).noIn && isLoopWord (← current)
  if (kind = .constant || !target.isIdentifier) && !looped then fail .missingInitializer
  return ⟨target, none⟩

def declarators (inner : Methods) (kind : DeclarationKind) :
    (fuel : Nat) → Flagged (List Declarator)
  | 0 => fail .exhausted
  | fuel + 1 => do
    let first ← declarator inner kind
    unless ← skipMark .comma do return [first]
    return first :: (← declarators inner kind fuel)

def declaration (inner : Methods) (kind : DeclarationKind) : Flagged Statement := do
  advance
  let declared ← declarators inner kind inner.fuel
  endStatement
  return .declaration kind declared

def bracketed (inner : Methods) : Flagged Expression := do
  expect .leftParen
  let e ← allowIn inner.expression
  expect .rightParen
  return e

/-- The body of a loop, which is counted while it is read. -/
def loopBody (inner : Methods) : Flagged Statement := do
  modify fun f => { f with loops := f.loops + 1 }
  let body ← inner.statement
  modify fun f => { f with loops := f.loops - 1 }
  return body

def ifStatement (inner : Methods) : Flagged Statement := do
  advance
  let test ← bracketed inner
  let consequent ← inner.statement
  if ← atWord .elseWord then
    advance
    return .if test consequent (some (← inner.statement))
  return .if test consequent none

def whileStatement (inner : Methods) : Flagged Statement := do
  advance
  let test ← bracketed inner
  return .while test (← loopBody inner)

def doStatement (inner : Methods) : Flagged Statement := do
  advance
  let body ← loopBody inner
  expectWord .whileWord
  let test ← bracketed inner
  let _ ← skipMark .semicolon
  return .doWhile body test

def forEach (inner : Methods) (head : ForHead) : Flagged Statement := do
  if ← atWord .ofWord then
    advance
    let iterable ← allowIn inner.assignment
    expect .rightParen
    return .forOf head iterable (← loopBody inner)
  else
    advance
    let object ← allowIn inner.expression
    expect .rightParen
    return .forIn head object (← loopBody inner)

def forParts (inner : Methods) (init : Option ForInit) : Flagged Statement := do
  expect .semicolon
  let test ← if ← atMark .semicolon then pure none else some <$> allowIn inner.expression
  expect .semicolon
  let update ← if ← atMark .rightParen then pure none else some <$> allowIn inner.expression
  expect .rightParen
  return .for init test update (← loopBody inner)

/-- A loop with a head that begins with a declaration.  Behind it `in` is an operator, whatever it
was before. -/
def forDeclaration (inner : Methods) (kind : DeclarationKind) : Flagged Statement := do
  advance
  modify ({ · with noIn := true })
  let declared ← declarators inner kind inner.fuel
  modify ({ · with noIn := false })
  match declared with
  | [⟨target, none⟩] =>
    if isLoopWord (← current) then return ← forEach inner (.declaration kind target)
  | _ => pure ()
  forParts inner (some (.declaration kind declared))

/-- A loop with a head that begins with an expression, behind which `in` is an operator too. -/
def forExpression (inner : Methods) : Flagged Statement := do
  modify ({ · with noIn := true })
  let e ← inner.expression
  modify ({ · with noIn := false })
  unless isLoopWord (← current) do return ← forParts inner (some (.expression e))
  unless isTarget true e do fail .invalidLoopTarget
  forEach inner (.target e)

def forStatement (inner : Methods) : Flagged Statement := do
  advance
  if ← atWord .awaitWord then fail .awaitingLoop
  expect .leftParen
  let token ← current
  if token.isMark .semicolon then forParts inner none
  else
    match declarationKind? token with
    | some kind => forDeclaration inner kind
    | none => forExpression inner

def returnStatement (inner : Methods) : Flagged Statement := do
  let c ← context
  unless c.inFunction || c.options.returnOutsideFunction do fail .illegalReturn
  advance
  let value ← if ← atStatementEnd then pure none else some <$> expression inner
  endStatement
  return .return value

def throwStatement (inner : Methods) : Flagged Statement := do
  advance
  if ← afterLineEnd then fail .lineEndAfterThrow
  let value ← expression inner
  endStatement
  return .throw value

def handler (inner : Methods) : Flagged CatchClause := do
  if ← skipMark .leftParen then
    let param ← inner.pattern
    expect .rightParen
    return ⟨some param, ← block inner⟩
  return ⟨none, ← block inner⟩

def tryStatement (inner : Methods) : Flagged Statement := do
  advance
  let body ← block inner
  let handler ←
    if ← atWord .catchWord then
      advance
      some <$> handler inner
    else pure none
  let finalizer ←
    if ← atWord .finallyWord then
      advance
      some <$> block inner
    else pure none
  if handler.isNone && finalizer.isNone then fail .missingHandler
  return .try body handler finalizer

def caseBody (inner : Methods) : Flagged (List Statement) := do
  expect .colon
  Flagged.untilToken endsCase inner.item inner.fuel

def switchCases (inner : Methods) (hasDefault : Bool) : (fuel : Nat) → Flagged (List SwitchCase)
  | 0 => fail .exhausted
  | fuel + 1 => do
    match ← current with
    | .punctuator .rightBrace =>
      advance
      return []
    | .keyword .caseWord =>
      advance
      let test ← allowIn inner.expression
      let body ← caseBody inner
      return ⟨some test, body⟩ :: (← switchCases inner hasDefault fuel)
    | .keyword .defaultWord =>
      if hasDefault then fail .repeatedDefault
      advance
      let body ← caseBody inner
      return ⟨none, body⟩ :: (← switchCases inner true fuel)
    | _ => unexpected

/-- A switch, which is counted while its cases are read. -/
def switchStatement (inner : Methods) : Flagged Statement := do
  advance
  let discriminant ← bracketed inner
  expect .leftBrace
  modify fun f => { f with switches := f.switches + 1 }
  let cases ← switchCases inner false inner.fuel
  modify fun f => { f with switches := f.switches - 1 }
  return .switch discriminant cases

def withStatement (inner : Methods) : Flagged Statement := do
  advance
  let object ← bracketed inner
  return .with object (← inner.statement)

/-- A statement with a label, which is taken off again behind it. -/
def labeledStatement (inner : Methods) : Flagged Statement := do
  let label ← expectName
  expect .colon
  if ((← context).labels.lookup label).isSome then fail (.repeatedLabel label)
  let token ← current
  -- The token behind the label tells whether a `continue` may aim at it.
  modify fun f => { f with labels := (label, beginsLoop token) :: f.labels }
  let body ←
    (if token.isWord .functionWord then functionDeclaration inner false else inner.statement)
  modify fun f => { f with labels := f.labels.tail }
  return .labeled label body

def expressionStatement (inner : Methods) : Flagged Statement := do
  if ← atLabel then return ← labeledStatement inner
  let e ← expression inner
  endStatement
  return .expression e

def statement (inner : Methods) : Flagged Statement := do
  match ← current with
  | .punctuator .leftBrace => return .block (← block inner)
  | .punctuator .semicolon => advance; return .empty
  | .keyword word =>
    match word with
    | .varWord => declaration inner .variable
    | .ifWord => ifStatement inner
    | .whileWord => whileStatement inner
    | .doWord => doStatement inner
    | .forWord => forStatement inner
    | .returnWord => returnStatement inner
    | .breakWord => breakStatement
    | .continueWord => continueStatement
    | .throwWord => throwStatement inner
    | .tryWord => tryStatement inner
    | .switchWord => switchStatement inner
    | .withWord => withStatement inner
    | .debuggerWord => do
      advance
      endStatement
      return .debugger
    | .functionWord | .classWord => fail .declarationAsStatement
    | _ => expressionStatement inner
  | _ => expressionStatement inner

def item (inner : Methods) : Flagged Statement := do
  match ← current with
  | .keyword .functionWord => functionDeclaration inner false
  | .keyword .asyncWord =>
    if ← atAsyncFunction then
      advance
      functionDeclaration inner true
    else statement inner
  | .keyword .classWord => return .class (← classNode inner true)
  | .keyword .letWord => declaration inner .lexical
  | .keyword .constWord => declaration inner .constant
  | .keyword .importWord | .keyword .exportWord => fail .importOutsideModule
  | _ => statement inner

end Parser

/-- No phrases at all. -/
def Methods.none : Methods where
  fuel := 0
  item := Parse.fail .exhausted
  statement := Parse.fail .exhausted
  expression := Parse.fail .exhausted
  assignment := Parse.fail .exhausted
  binary _ := Parse.fail .exhausted
  power := Parse.fail .exhausted
  unary := Parse.fail .exhausted
  operand := Parse.fail .exhausted
  construction := Parse.fail .exhausted
  pattern := Parse.fail .exhausted

/-- The methods for all phrases, for phrases that contain each other to a depth. -/
def Methods.ofDepth : Nat → Methods
  | 0 => .none
  | depth + 1 =>
    { fuel := depth + 1
      item := fun f r => Parser.item (ofDepth depth) f r
      statement := fun f r => Parser.statement (ofDepth depth) f r
      expression := fun f r => Parser.expression (ofDepth depth) f r
      assignment := fun f r => Parser.assignment (ofDepth depth) f r
      binary := fun level f r => Parser.binary (ofDepth depth) level f r
      power := fun f r => Parser.power (ofDepth depth) f r
      unary := fun f r => Parser.unary (ofDepth depth) f r
      operand := fun f r => Parser.operand (ofDepth depth) f r
      construction := fun f r => Parser.construction (ofDepth depth) f r
      pattern := fun f r => Parser.pattern (ofDepth depth) f r }

/-- A program, up to the end of the text. -/
def Parser.program (inner : Methods) : Flagged Program := do
  Parse.advance
  return ⟨← Flagged.untilToken Token.isEnd (Parser.item inner) inner.fuel⟩

/-- Reads a text as a program.  Each phrase takes a token before the phrases inside it, so that no
phrase lies deeper than the text has characters. -/
def Program.ofText (options : ParseOptions) (source : String) : Except SyntaxError Program :=
  let start := Cursor.ofText source
  let methods := Methods.ofDepth (start.rest.length + 2)
  match Parser.program methods { options } ⟨.endOfInput, false, start⟩ with
  | .ok ((program, _), _) => .ok program
  | .error e => .error e

end EcmaEval
