import EcmaEval.Grammar.Statement

/-!
# Flags of the parser

The parser keeps what surrounds a phrase in flags, which its methods write before a phrase and write
back behind it.  Nothing but the methods themselves sees to it that the flags behind a phrase are
those from before: one saves a flag and restores it, another saves the flags of a function all at
once and overwrites some of them twice, loops and switches are counted up and down, labels are
pushed and popped, and the head of a `for` writes a flag that it does not save.

A reader that looks at flags and writes none is taken over from the readers that get a context.

## Main definitions

* `Flags`: what surrounds a phrase, in a state
* `Flagged`: a reader that may write flags
* `Flagged.allowIn`: a phrase between brackets
* `Flagged.enterFunction`, `Flagged.leaveFunction`: the flags of a function
-/

namespace EcmaEval

/-- What surrounds a phrase, as the parser keeps it.  Loops and switches are counted. -/
structure Flags where
  options : ParseOptions
  inFunction : Bool := false
  inAsync : Bool := false
  inGenerator : Bool := false
  loops : Nat := 0
  switches : Nat := 0
  /-- The labels around the phrase, the innermost first, each with whether it is on a loop. -/
  labels : List (String × Bool) := []
  superProperty : Bool := false
  superCall : Bool := false
  noIn : Bool := false

/-- What the flags tell about a phrase. -/
def Flags.context (f : Flags) : Context where
  options := f.options
  inFunction := f.inFunction
  inAsync := f.inAsync
  inGenerator := f.inGenerator
  inLoop := 0 < f.loops
  inSwitch := 0 < f.switches
  labels := f.labels
  superProperty := f.superProperty
  superCall := f.superCall
  noIn := f.noIn

/-- The flags that a function saves. -/
structure FunctionScope where
  inFunction : Bool
  inAsync : Bool
  inGenerator : Bool
  loops : Nat
  switches : Nat
  labels : List (String × Bool)
  superProperty : Bool
  superCall : Bool

/-- Reading a phrase with the flags in a state. -/
abbrev Flagged := StateT Flags (StateT Reading (Except SyntaxError))

namespace Flagged

variable {α : Type}

/-- Reads with the flags as they are, and leaves them so. -/
def read (p : Parse α) : Flagged α := fun f r =>
  match p f.context r with
  | .ok (x, s) => .ok ((x, f), s)
  | .error e => .error e

instance : MonadLift Parse Flagged := ⟨read⟩

/-- Reads with the operator `in` allowed, as between brackets. -/
def allowIn (phrase : Flagged α) : Flagged α := do
  let saved := (← get).noIn
  modify ({ · with noIn := false })
  let result ← phrase
  modify ({ · with noIn := saved })
  return result

/-- Saves the flags of the code around a function, and writes those of the function.  An arrow
function keeps what `super` may be used for. -/
def enterFunction (isAsync isGenerator isArrow : Bool) : Flagged FunctionScope := do
  let f ← get
  -- The flag of the operator `in` is not saved, and stays as it is inside.
  let saved : FunctionScope :=
    { inFunction := f.inFunction
      inAsync := f.inAsync
      inGenerator := f.inGenerator
      loops := f.loops
      switches := f.switches
      labels := f.labels
      superProperty := f.superProperty
      superCall := f.superCall }
  modify fun f => { f with
    inFunction := true
    inAsync := isAsync
    inGenerator := isGenerator
    loops := 0
    switches := 0
    labels := [] }
  unless isArrow do
    modify ({ · with superProperty := false, superCall := false })
  return saved

/-- Writes the saved flags back behind a function. -/
def leaveFunction (saved : FunctionScope) : Flagged Unit :=
  modify fun f => { f with
    inFunction := saved.inFunction
    inAsync := saved.inAsync
    inGenerator := saved.inGenerator
    loops := saved.loops
    switches := saved.switches
    labels := saved.labels
    superProperty := saved.superProperty
    superCall := saved.superCall }

/-- Reads phrases up to a token of a class, in at most `fuel` steps. -/
def untilToken (closes : Token → Bool) (phrase : Flagged α) : (fuel : Nat) → Flagged (List α)
  | 0 => Parse.fail .exhausted
  | fuel + 1 => do
    if closes (← Parse.current) then return []
    let first ← phrase
    let others ← untilToken closes phrase fuel
    return first :: others

/-- Reads phrases up to a punctuator, and passes it. -/
def untilMark (close : Punctuator) (phrase : Flagged α) (fuel : Nat) : Flagged (List α) := do
  let parts ← untilToken (·.isMark close) phrase fuel
  Parse.advance
  return parts

end Flagged

/-- The methods that read the phrases inside of others. -/
structure Methods where
  /-- A bound on the steps that are left. -/
  fuel : Nat
  item : Flagged Statement
  statement : Flagged Statement
  expression : Flagged Expression
  assignment : Flagged Expression
  binary : (level : Nat) → Flagged Expression
  power : Flagged Expression
  unary : Flagged Expression
  operand : Flagged Expression
  construction : Flagged Expression
  pattern : Flagged Pattern

end EcmaEval
