import EcmaEval.Grammar.Operand

/-!
# Expressions

Operators by the tightness of their binding, from the ones around a single operand to the sequence.

## Main definitions

* `Grammar.assignment`: an expression without a top-level comma
* `Grammar.expression`: an expression
* `Grammar.binary`: operators by the tightness of their binding
-/

namespace EcmaEval.Grammar

open Parse

/-- The target of an assignment may be assigned to; only a plain assignment takes a pattern. -/
def isTarget (simple : Bool) : Expression → Bool
  | .identifier _ | .member .. => true
  | .array _ | .object _ => !simple
  | _ => false

/-- Fails unless an expression may be assigned to. -/
def checkTarget (simple : Bool) (e : Expression) : Parse Unit := do
  unless isTarget simple e do fail .invalidTarget

/-- The step operator that a token is. -/
def updateOperator? : Token → Option UpdateOperator
  | .punctuator .increment => some .increment
  | .punctuator .decrement => some .decrement
  | _ => none

/-- The operator before an operand that a token is. -/
def unaryOperator? : Token → Option UnaryOperator
  | .punctuator .minus => some .minus
  | .punctuator .plus => some .plus
  | .punctuator .bang => some .not
  | .punctuator .tilde => some .bitwiseNot
  | .keyword .typeofWord => some .typeOf
  | .keyword .voidWord => some .void
  | .keyword .deleteWord => some .delete
  | _ => none

/-- An operand with the step that may follow it on the same line. -/
def stepped (inner : Phrases) : Parse Expression := do
  let e ← operand inner
  if ← afterLineEnd then return e
  match updateOperator? (← current) with
  | none => return e
  | some op =>
    checkTarget true e
    advance
    return .update op false e

/-- An operand with the operators before and behind it. -/
def unary (inner : Phrases) : Parse Expression := do
  let token ← current
  if let some op := unaryOperator? token then
    advance
    return .unary op (← inner.unary)
  if let some op := updateOperator? token then
    advance
    let target ← inner.unary
    checkTarget true target
    return .update op true target
  if token.isWord .awaitWord && (← context).awaits then
    advance
    return .await (← inner.unary)
  stepped inner

/-- A power, or an operand of one.  Powers group from the right, and the base of one may not begin
with an operator. -/
def power (inner : Phrases) : Parse Expression := do
  -- `await` and the steps are not among these operators, so they may stand in a base.
  let isUnary := (unaryOperator? (← current)).isSome
  let base ← unary inner
  unless ← atMark .exponent do return base
  if isUnary then fail .unaryBeforePower
  advance
  return .binary .power base (← inner.power)

/-- The binary operator that a token is, other than a power, and how tightly it binds. -/
def binaryOperator? (noIn : Bool) : Token → Option (BinaryOperator × Nat)
  | .punctuator .pipe => some (.bitwiseOr, 1)
  | .punctuator .caret => some (.bitwiseXor, 2)
  | .punctuator .ampersand => some (.bitwiseAnd, 3)
  | .punctuator .equal => some (.equal, 4)
  | .punctuator .notEqual => some (.notEqual, 4)
  | .punctuator .strictEqual => some (.strictEqual, 4)
  | .punctuator .strictNotEqual => some (.strictNotEqual, 4)
  | .punctuator .lessThan => some (.less, 5)
  | .punctuator .greaterThan => some (.greater, 5)
  | .punctuator .lessThanEqual => some (.lessOrEqual, 5)
  | .punctuator .greaterThanEqual => some (.greaterOrEqual, 5)
  | .keyword .instanceofWord => some (.instanceOf, 5)
  | .keyword .inWord => if noIn then none else some (.hasKey, 5)
  | .punctuator .leftShift => some (.leftShift, 6)
  | .punctuator .rightShift => some (.rightShift, 6)
  | .punctuator .unsignedRightShift => some (.unsignedRightShift, 6)
  | .punctuator .plus => some (.add, 7)
  | .punctuator .minus => some (.subtract, 7)
  | .punctuator .star => some (.multiply, 8)
  | .punctuator .slash => some (.divide, 8)
  | .punctuator .percent => some (.modulo, 8)
  | _ => none

/-- The operators behind `left` that bind more tightly than a level, grouped from the left. -/
def binaryTail (inner : Phrases) (level : Nat) : (fuel : Nat) → Expression → Parse Expression
  | 0, _ => fail .exhausted
  | fuel + 1, left => do
    match binaryOperator? (← context).noIn (← current) with
    | none => return left
    | some (op, tightness) =>
      if tightness ≤ level then return left
      advance
      let right ← inner.binary tightness
      binaryTail inner level fuel (.binary op left right)

/-- Binary operators that bind more tightly than a level. -/
def binary (inner : Phrases) (level : Nat) : Parse Expression := do
  binaryTail inner level inner.fuel (← power inner)

/-- The operands of one logical operator behind `left`, grouped from the left. -/
def logicalTail (mark : Punctuator) (op : LogicalOperator) (next : Parse Expression) :
    (fuel : Nat) → Expression → Parse Expression
  | 0, _ => fail .exhausted
  | fuel + 1, left => do
    if ← skipMark mark then
      let right ← next
      logicalTail mark op next fuel (.logical op left right)
    else return left

/-- Operands of the conjunction. -/
def conjunction (inner : Phrases) : Parse Expression := do
  logicalTail .logicalAnd .and (binary inner 0) inner.fuel (← binary inner 0)

/-- Operands of the disjunction. -/
def disjunction (inner : Phrases) : Parse Expression := do
  logicalTail .logicalOr .or (conjunction inner) inner.fuel (← conjunction inner)

/-- Operands of the operator that replaces missing values. -/
def coalescence (inner : Phrases) : Parse Expression := do
  logicalTail .nullishCoalescing .coalesce (disjunction inner) inner.fuel (← disjunction inner)

/-- A conditional expression, or the test of one. -/
def conditional (inner : Phrases) : Parse Expression := do
  let test ← coalescence inner
  unless ← skipMark .question do return test
  let consequent ← withIn inner.assignment
  expect .colon
  return .conditional test consequent (← inner.assignment)

/-- The assignment that a token is. -/
def assignmentOperator? : Token → Option AssignmentOperator
  | .punctuator .assign => some .plain
  | .punctuator .plusAssign => some (.compound .add)
  | .punctuator .minusAssign => some (.compound .subtract)
  | .punctuator .starAssign => some (.compound .multiply)
  | .punctuator .slashAssign => some (.compound .divide)
  | .punctuator .percentAssign => some (.compound .modulo)
  | .punctuator .exponentAssign => some (.compound .power)
  | .punctuator .leftShiftAssign => some (.compound .leftShift)
  | .punctuator .rightShiftAssign => some (.compound .rightShift)
  | .punctuator .unsignedRightShiftAssign => some (.compound .unsignedRightShift)
  | .punctuator .ampersandAssign => some (.compound .bitwiseAnd)
  | .punctuator .pipeAssign => some (.compound .bitwiseOr)
  | .punctuator .caretAssign => some (.compound .bitwiseXor)
  | .punctuator .logicalAndAssign => some (.logical .and)
  | .punctuator .logicalOrAssign => some (.logical .or)
  | .punctuator .nullishAssign => some (.logical .coalesce)
  | _ => none

/-- The token ends a `yield` that has no operand. -/
def endsYield : Token → Bool
  | .punctuator mark =>
    match mark with
    | .rightBrace | .semicolon | .rightParen | .rightBracket | .colon | .comma => true
    | _ => false
  | .endOfInput => true
  | _ => false

/-- A `yield`, at its word. -/
def yielded (inner : Phrases) : Parse Expression := do
  advance
  if ← afterLineEnd then return .yield none false
  if endsYield (← current) then return .yield none false
  let delegate ← skipMark .star
  return .yield (some (← inner.assignment)) delegate

/-- An expression that is no sequence. -/
def assignment (inner : Phrases) : Parse Expression := do
  if (← context).inGenerator && (← atWord .yieldWord) then return ← yielded inner
  let target ← conditional inner
  match assignmentOperator? (← current) with
  | none => return target
  | some op =>
    checkTarget (op ≠ .plain) target
    advance
    return .assign op target (← inner.assignment)

/-- The parts of a sequence behind its first. -/
def sequenceTail (inner : Phrases) : (fuel : Nat) → Parse (List Expression)
  | 0 => fail .exhausted
  | fuel + 1 => do
    unless ← skipMark .comma do return []
    let part ← inner.assignment
    return part :: (← sequenceTail inner fuel)

/-- An expression, which may be a sequence. -/
def expression (inner : Phrases) : Parse Expression := do
  let first ← assignment inner
  match ← sequenceTail inner inner.fuel with
  | [] => return first
  | others => return .sequence (first :: others)

end EcmaEval.Grammar
