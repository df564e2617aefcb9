import EcmaEval.Grammar.Error
import EcmaEval.Token.Lexer
import EcmaEval.Program.Tree

/-!
# Reading phrases

A phrase is read with one token at hand.  What may stand in it depends on the phrases around it,
which its context records: a `return` needs a function, a `break` a loop, a switch or a label.

The phrases of the language contain each other.  A reader of one phrase is given readers of the
phrases inside it, and calls them only behind a token of its own.

## Main definitions

* `ParseOptions`: what programs may do at their top level
* `Context`: what surrounds a phrase
* `Parse`: a reader of a phrase
* `Parse.untilToken`: a sequence of phrases up to a token
* `Phrases`: readers of the phrases that other phrases contain
-/

namespace EcmaEval

/-- What a program may do at its top level. -/
structure ParseOptions where
  /-- `await` may stand outside of all functions. -/
  topLevelAwait : Bool := true
  /-- `return` may stand outside of all functions. -/
  returnOutsideFunction : Bool := false
  deriving DecidableEq, Repr

/-- The phrases around a phrase, as far as they decide what may stand in it. -/
structure Context where
  options : ParseOptions
  inFunction : Bool := false
  inAsync : Bool := false
  inGenerator : Bool := false
  inLoop : Bool := false
  inSwitch : Bool := false
  /-- The labels around the phrase, each with whether it is on a loop. -/
  labels : List (String × Bool) := []
  /-- `super` may be followed by a property. -/
  superProperty : Bool := false
  /-- `super` may be called. -/
  superCall : Bool := false
  /-- The operator `in` may not stand here, because it would end the head of a loop. -/
  noIn : Bool := false

namespace Context

/-- The body of a function.  The loops, switches and labels around it are out of reach. -/
def inBody (c : Context) (isAsync isGenerator : Bool) : Context :=
  { c with
    inFunction := true
    inAsync := isAsync
    inGenerator := isGenerator
    inLoop := false
    inSwitch := false
    labels := [] }

/-- The body of a function that has its own `this`. -/
def inOwnBody (c : Context) (isAsync isGenerator superProperty superCall : Bool) : Context :=
  { c.inBody isAsync isGenerator with superProperty, superCall }

/-- `await` is an operator. -/
def awaits (c : Context) : Bool :=
  c.inAsync || (!c.inFunction && c.options.topLevelAwait)

/-- The name that a token is, if it may name a variable.  Some reserved words may, where they have
no other meaning. -/
def name? (c : Context) : Token → Option String
  | .identifier name => some name
  | .keyword word =>
    match word with
    | .asyncWord | .ofWord | .staticWord | .letWord => some word.text
    | .yieldWord => if c.inGenerator then none else some word.text
    | .awaitWord => if c.awaits then none else some word.text
    | _ => none
  | _ => none

end Context

/-- The place that reading has reached: a token at hand, whether a line end stands before it, and
the text behind it. -/
structure Reading where
  current : Token
  afterLineEnd : Bool
  cursor : Cursor

/-- Reading a phrase. -/
abbrev Parse := ReaderT Context (StateT Reading (Except SyntaxError))

namespace Parse

variable {α : Type}

/-- Reading fails at the token at hand. -/
def fail (cause : SyntaxCause) : Parse α := fun _ r =>
  .error ⟨cause, r.cursor.toPosition, r.current.isEnd⟩

/-- The token at hand does not continue the phrase. -/
def unexpected : Parse α := fun _ r =>
  .error ⟨.unexpected r.current, r.cursor.toPosition, r.current.isEnd⟩

/-- The token at hand. -/
def current : Parse Token := fun _ r => .ok (r.current, r)

/-- A line end stands before the token at hand. -/
def afterLineEnd : Parse Bool := fun _ r => .ok (r.afterLineEnd, r)

/-- Reads a token of a special kind behind the token at hand. -/
def special (read : Cursor → Scan.Result Token) : Parse Token := fun _ r =>
  match read r.cursor with
  | .ok token c => .ok (token, { r with cursor := c })
  | .error e c => .error ⟨.lexical e.cause, c.toPosition, e.atEnd⟩

/-- The token after the one at hand, and whether a line end stands before it. -/
def peek : Parse (Token × Bool) := fun _ r =>
  match Lexer.nextOnLine r.cursor false with
  | .ok found _ => .ok (found, r)
  | .error e c => .error ⟨.lexical e.cause, c.toPosition, e.atEnd⟩

/-- Takes the next token at hand. -/
def advance : Parse Unit := fun _ r =>
  match Lexer.nextOnLine r.cursor false with
  | .ok (token, afterLineEnd) c => .ok ((), ⟨token, afterLineEnd, c⟩)
  | .error e c => .error ⟨.lexical e.cause, c.toPosition, e.atEnd⟩

/-- Takes a token of a special kind for the token at hand. -/
def replaceCurrent (token : Token) : Parse Unit := fun _ r =>
  .ok ((), { r with current := token })

/-- The name at hand, if the token may name a variable. -/
def name? : Parse (Option String) := fun c r => .ok (c.name? r.current, r)

/-- The token at hand is a punctuator. -/
def atMark (mark : Punctuator) : Parse Bool := fun _ r => .ok (r.current.isMark mark, r)

/-- The token at hand is a word. -/
def atWord (word : Keyword) : Parse Bool := fun _ r => .ok (r.current.isWord word, r)

/-- Passes a punctuator that has to stand here. -/
def expect (mark : Punctuator) : Parse Unit := do
  if ← atMark mark then advance else unexpected

/-- Passes a word that has to stand here. -/
def expectWord (word : Keyword) : Parse Unit := do
  if ← atWord word then advance else unexpected

/-- Passes a punctuator that may stand here, and tells whether it did. -/
def skipMark (mark : Punctuator) : Parse Bool := do
  if ← atMark mark then
    advance
    return true
  return false

/-- Passes a name that has to stand here. -/
def expectName : Parse String := do
  match ← name? with
  | some name =>
    advance
    return name
  | none => unexpected

/-- Passes a name that may stand here. -/
def skipName : Parse (Option String) := do
  match ← name? with
  | some name =>
    advance
    return some name
  | none => return none

/-- Passes the end of a statement: a semicolon, a line end, or what closes the block. -/
def endStatement : Parse Unit := do
  let token ← current
  if token.isMark .semicolon then advance
  else if token.isMark .rightBrace || token.isEnd then return
  else if ← afterLineEnd then return
  else unexpected

/-- Passes the comma between two parts of a list that the mark `close` ends.  A comma may also
stand before that mark. -/
def separator (close : Punctuator) : Parse Unit := do
  unless ← atMark close do expect .comma

/-- Reads phrases up to a token of a class, in at most `fuel` steps. -/
def untilToken (closes : Token → Bool) (phrase : Parse α) : (fuel : Nat) → Parse (List α)
  | 0 => fail .exhausted
  | fuel + 1 => do
    if closes (← current) then return []
    let first ← phrase
    let others ← untilToken closes phrase fuel
    return first :: others

/-- Reads phrases up to a punctuator, and passes it. -/
def untilMark (close : Punctuator) (phrase : Parse α) (fuel : Nat) : Parse (List α) := do
  let parts ← untilToken (·.isMark close) phrase fuel
  advance
  return parts

/-- Reads with the operator `in` allowed, as between brackets. -/
def withIn (phrase : Parse α) : Parse α := fun c => phrase { c with noIn := false }

/-- Reads with a changed context. -/
def within (change : Context → Context) (phrase : Parse α) : Parse α := fun c =>
  phrase (change c)

/-- The context of the phrase. -/
def context : Parse Context := fun c r => .ok (c, r)

end Parse

end EcmaEval

/-! # Phrases in phrases -/

namespace EcmaEval

/-- Readers of the phrases that stand inside of others. -/
structure Phrases where
  /-- A bound on the steps that are left. -/
  fuel : Nat
  /-- A statement or declaration. -/
  item : Parse Statement
  /-- A statement. -/
  statement : Parse Statement
  /-- An expression, which may be a sequence. -/
  expression : Parse Expression
  /-- An expression that is no sequence. -/
  assignment : Parse Expression
  /-- Binary operators that bind more tightly than a level. -/
  binary : (level : Nat) → Parse Expression
  /-- A power, or an operand of one. -/
  power : Parse Expression
  /-- An operand with the operators before and behind it. -/
  unary : Parse Expression
  /-- An operand with the calls and members behind it. -/
  operand : Parse Expression
  /-- A construction, at its `new`. -/
  construction : Parse Expression
  /-- A binding target. -/
  pattern : Parse Pattern

/-- No phrases at all. -/
def Phrases.none : Phrases where
  fuel := 0
  item := .fail .exhausted
  statement := .fail .exhausted
  expression := .fail .exhausted
  assignment := .fail .exhausted
  binary _ := .fail .exhausted
  power := .fail .exhausted
  unary := .fail .exhausted
  operand := .fail .exhausted
  construction := .fail .exhausted
  pattern := .fail .exhausted

end EcmaEval
