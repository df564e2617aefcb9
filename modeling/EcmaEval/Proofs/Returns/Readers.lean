import EcmaEval.Proofs.Flags.Readers
import EcmaEval.Proofs.Returns.Relaxed
import EcmaEval.Proofs.Syntax.Statement

/-!
# Programs that may return

A text is read where programs may return as it is read where they may not, except that a `return`
outside of all functions then is no error.  Of all readers only the one of a `return` looks at what
programs may do.  All others pass on what the readers of the phrases inside do, so that the
judgement is found for each of them by the rules for sequences and branches.

## Main definitions

* `Phrases.Relaxing`: the readers of all phrases relax

## Main results

* `Phrases.relaxing_ofDepth`: the readers of all phrases relax, however deep they nest
* `Program.ofText_iff_returnsInside`: the texts that are programs where programs may not return
-/

namespace EcmaEval

-- The search for an instance follows the steps of a reader, of which some have many.
set_option synthInstance.maxSize 5000

open Parse

/-- The readers of all phrases relax. -/
class Phrases.Relaxing (inner : Phrases) : Prop where
  item : Relaxes False inner.item
  statement : Relaxes False inner.statement
  expression : Relaxes False inner.expression
  assignment : Relaxes False inner.assignment
  binary : ∀ level, Relaxes False (inner.binary level)
  power : Relaxes False inner.power
  unary : Relaxes False inner.unary
  operand : Relaxes False inner.operand
  construction : Relaxes False inner.construction
  pattern : Relaxes False inner.pattern

attribute [instance] Phrases.Relaxing.item Phrases.Relaxing.statement Phrases.Relaxing.expression
  Phrases.Relaxing.assignment Phrases.Relaxing.binary Phrases.Relaxing.power Phrases.Relaxing.unary
  Phrases.Relaxing.operand Phrases.Relaxing.construction Phrases.Relaxing.pattern

namespace Grammar

variable {inner : Phrases} [inner.Relaxing]

/-! ### Patterns and keys -/

instance : Relaxes False (propertyKey inner) :=
  .next fun token => by split <;> infer_instance

instance (target : Pattern) : Relaxes False (defaulted inner target) := by
  unfold defaulted
  infer_instance

instance : Relaxes False (patternElement inner) := by
  unfold patternElement
  infer_instance

instance : Relaxes False (patternMember inner) := by
  unfold patternMember
  refine .next fun spread => ?_
  extract_lets keyed
  have : Relaxes False (keyed ()) := .next fun shorthand => by
    cases shorthand <;> infer_instance
  infer_instance

instance : Relaxes False (pattern inner) :=
  .next fun name => by cases name <;> infer_instance

instance : Relaxes False (parameter inner) := by
  unfold parameter
  infer_instance

instance : Relaxes False (parameters inner) := by
  unfold parameters
  infer_instance

/-! ### Functions -/

instance : Relaxes False (block inner) := by
  unfold block
  infer_instance

instance : Relaxes False (bodyBlock inner) := by
  unfold bodyBlock
  infer_instance

instance (name : Option String) (isAsync isGenerator superProperty superCall : Bool) :
    Relaxes False (functionRest inner name isAsync isGenerator superProperty superCall) :=
  .code (fun _ => rfl) inferInstance

instance (isAsync : Bool) : Relaxes False (functionDeclaration inner isAsync) := by
  unfold functionDeclaration
  infer_instance

instance (isAsync : Bool) : Relaxes False (functionExpression inner isAsync) := by
  unfold functionExpression
  infer_instance

instance (isAsync isGenerator superCall : Bool) :
    Relaxes False (method inner isAsync isGenerator superCall) := by
  unfold method
  infer_instance

instance : Relaxes False isModifier := by
  unfold isModifier
  infer_instance

instance : Relaxes False skipAccessor :=
  .next fun token => by split <;> infer_instance

/-! ### Classes -/

instance : Commutes initializerContext := ⟨fun _ => rfl, nofun⟩

instance : Relaxes False (fieldValue inner) := .code (fun _ => rfl) inferInstance

instance : Relaxes False (staticBlock inner) := .code (fun _ => rfl) inferInstance

instance (derived isStatic isAsync isGenerator : Bool) (kind : MethodKind) (key : PropertyKey) :
    Relaxes False (classMethod inner derived isStatic isAsync isGenerator kind key) := by
  unfold classMethod
  infer_instance

instance (isStatic : Bool) (key : PropertyKey) : Relaxes False (classField inner isStatic key) := by
  unfold classField
  infer_instance

instance : Relaxes False skipAsync := by
  unfold skipAsync
  infer_instance

instance (derived isStatic : Bool) : Relaxes False (classMember inner derived isStatic) := by
  unfold classMember
  infer_instance

instance (derived : Bool) : Relaxes False (classElement inner derived) := by
  unfold classElement
  infer_instance

instance (derived hasConstructor : Bool) (fuel : Nat) :
    Relaxes False (classElements inner derived hasConstructor fuel) := by
  -- Induction on the number of elements that may still come.
  induction fuel generalizing hasConstructor with
  | zero => exact inferInstanceAs (Relaxes False (fail _ : Parse (List ClassElement)))
  | succ fuel ih =>
    unfold classElements
    infer_instance

instance (isDeclaration : Bool) : Relaxes False (classNode inner isDeclaration) := by
  unfold classNode
  infer_instance

/-! ### Compound literals -/

instance : Relaxes False (spreadable inner) := by
  unfold spreadable
  infer_instance

instance : Relaxes False (argument inner) := by
  unfold argument
  infer_instance

instance : Relaxes False (arguments inner) := by
  unfold arguments
  infer_instance

instance : Relaxes False (arrayElement inner) := by
  unfold arrayElement
  infer_instance

instance : Relaxes False (arrayLiteral inner) := by
  unfold arrayLiteral
  infer_instance

instance (isAsync isGenerator : Bool) (kind : MethodKind) :
    Relaxes False (keyedMember inner isAsync isGenerator kind) := by
  unfold keyedMember
  refine .next fun shorthand => ?_
  cases shorthand <;> infer_instance

instance : Relaxes False (objectMember inner) := by
  unfold objectMember
  infer_instance

instance : Relaxes False (objectLiteral inner) := by
  unfold objectLiteral
  infer_instance

instance (fuel : Nat) : Relaxes False (substitutions inner fuel) := by
  -- Induction on the number of substitutions that may still come.
  induction fuel with
  | zero =>
    exact inferInstanceAs (Relaxes False (fail _ : Parse (List (Option String) × List Expression)))
  | succ fuel ih =>
    unfold substitutions
    refine .next fun _ => .next fun value => .next fun closed => ?_
    extract_lets continued
    have : Relaxes False (continued ()) := .next fun token => by split <;> infer_instance
    infer_instance

instance : Relaxes False (template inner) :=
  .next fun token => by split <;> infer_instance

/-! ### Operands -/

instance : Relaxes False atArrow := by
  unfold atArrow
  infer_instance

instance (params : List Pattern) (isAsync : Bool) : Relaxes False (arrow inner params isAsync) :=
  .next fun _ => .code (fun _ => rfl) inferInstance

instance (parts : List Expression) : Relaxes False (toParameters parts) := by
  unfold toParameters
  split <;> infer_instance

instance : Relaxes False (grouped inner) := by
  unfold grouped
  infer_instance

instance : Relaxes False (group inner) := by
  refine .next fun _ => .next fun parts => .next fun arrowed => ?_
  split
  · split <;> infer_instance
  · split <;> infer_instance

instance : Relaxes False (asyncOperand inner) := by
  refine .next fun (next, lineEnd) => .next fun _ => ?_
  have : Relaxes False (match next with
      | .keyword .functionWord => functionExpression inner true
      | .punctuator .leftParen => do
        let args ← arguments inner
        if ← atArrow then arrow inner (← toParameters args) true
        else return .call (.identifier "async") args
      | .identifier _ => do
        let name ← expectName
        if ← atArrow then arrow inner [.identifier name] true else unexpected
      | _ => do
        if ← atArrow then arrow inner [.identifier "async"] false
        else return .identifier "async") := by
    split <;> infer_instance
  infer_instance

instance : Relaxes False superOperand :=
  .next fun _ => .context (fun _ => rfl) fun c => .next fun token => by split <;> infer_instance

instance (front : String) : Relaxes False (regExp front) :=
  .next fun token => by split <;> infer_instance

instance : Relaxes False (plainTemplate inner) := by
  unfold plainTemplate
  infer_instance

instance : Relaxes False (named inner) := by
  unfold named
  infer_instance

instance : Relaxes False (primary inner) :=
  .next fun token => by split <;> infer_instance

instance : Relaxes False memberName :=
  .next fun token => by split <;> infer_instance

instance : Relaxes False (computedKey inner) := by
  unfold computedKey
  infer_instance

instance (fuel : Nat) (e : Expression) : Relaxes False (members inner fuel e) := by
  -- Induction on the number of members that may still come.
  induction fuel generalizing e with
  | zero => exact inferInstanceAs (Relaxes False (fail _ : Parse Expression))
  | succ fuel ih =>
    unfold members
    infer_instance

instance (fuel : Nat) (e : Expression) : Relaxes False (linkTail inner fuel e) := by
  -- Induction on the number of links that may still come.
  induction fuel generalizing e with
  | zero => exact inferInstanceAs (Relaxes False (fail _ : Parse Expression))
  | succ fuel ih =>
    unfold linkTail
    infer_instance

instance : Relaxes False (optionalLink inner) := by
  unfold optionalLink
  infer_instance

instance (fuel : Nat) (e : Expression) : Relaxes False (operandTail inner fuel e) := by
  -- Induction on the number of links that may still come.
  induction fuel generalizing e with
  | zero => exact inferInstanceAs (Relaxes False (fail _ : Parse Expression))
  | succ fuel ih =>
    unfold operandTail
    infer_instance

instance : Relaxes False newTarget := by
  refine .next fun token => ?_
  split
  · exact .context (fun _ => rfl) fun c => by infer_instance
  · infer_instance

instance : Relaxes False (construction inner) := by
  unfold construction
  infer_instance

instance : Relaxes False (operand inner) := by
  unfold operand
  infer_instance

/-! ### Operators -/

instance (simple : Bool) (e : Expression) : Relaxes False (checkTarget simple e) := by
  unfold checkTarget
  infer_instance

instance : Relaxes False (stepped inner) := by
  refine .next fun e => .next fun lineEnd => ?_
  split
  · infer_instance
  · exact .next fun token => by split <;> infer_instance

instance : Relaxes False (unary inner) := by
  refine .next fun token => ?_
  split
  · infer_instance
  split
  · infer_instance
  exact .context (fun _ => rfl) fun c => by infer_instance

instance : Relaxes False (power inner) := by
  unfold power
  infer_instance

instance (level fuel : Nat) (left : Expression) :
    Relaxes False (binaryTail inner level fuel left) := by
  -- Induction on the number of operators that may still come.
  induction fuel generalizing left with
  | zero => exact inferInstanceAs (Relaxes False (fail _ : Parse Expression))
  | succ fuel ih =>
    unfold binaryTail
    exact .context (fun _ => rfl) fun c => .next fun token => by split <;> infer_instance

instance (level : Nat) : Relaxes False (binary inner level) := by
  unfold binary
  infer_instance

instance (mark : Punctuator) (op : LogicalOperator) (next : Parse Expression)
    [Relaxes False next] (fuel : Nat) (left : Expression) :
    Relaxes False (logicalTail mark op next fuel left) := by
  -- Induction on the number of operators that may still come.
  induction fuel generalizing left with
  | zero => exact inferInstanceAs (Relaxes False (fail _ : Parse Expression))
  | succ fuel ih =>
    unfold logicalTail
    infer_instance

instance : Relaxes False (conjunction inner) := by
  unfold conjunction
  infer_instance

instance : Relaxes False (disjunction inner) := by
  unfold disjunction
  infer_instance

instance : Relaxes False (coalescence inner) := by
  unfold coalescence
  infer_instance

instance : Relaxes False (conditional inner) := by
  unfold conditional
  infer_instance

instance : Relaxes False (yielded inner) := by
  unfold yielded
  infer_instance

instance : Relaxes False (assignment inner) := by
  refine .context (fun _ => rfl) fun c => .next fun yields => ?_
  split
  · infer_instance
  · exact .next fun target => .next fun token => by split <;> infer_instance

instance (fuel : Nat) : Relaxes False (sequenceTail inner fuel) := by
  -- Induction on the number of parts that may still come.
  induction fuel with
  | zero => exact inferInstanceAs (Relaxes False (fail _ : Parse (List Expression)))
  | succ fuel ih =>
    unfold sequenceTail
    infer_instance

instance : Relaxes False (expression inner) :=
  .next fun first => .next fun others => by split <;> infer_instance

/-! ### Statements -/

instance (kind : DeclarationKind) : Relaxes False (declarator inner kind) := by
  unfold declarator
  refine .next fun target => ?_
  extract_lets bare valued
  have : Relaxes False (valued ()) := by
    refine .next fun assigned => ?_
    split
    · infer_instance
    · exact .context (fun _ => rfl) fun c => by infer_instance
  split <;> infer_instance

instance (kind : DeclarationKind) (fuel : Nat) : Relaxes False (declarators inner kind fuel) := by
  -- Induction on the number of variables that may still come.
  induction fuel with
  | zero => exact inferInstanceAs (Relaxes False (fail _ : Parse (List Declarator)))
  | succ fuel ih =>
    unfold declarators
    infer_instance

instance (kind : DeclarationKind) : Relaxes False (declaration inner kind) := by
  unfold declaration
  infer_instance

instance : Relaxes False (bracketed inner) := by
  unfold bracketed
  infer_instance

instance : Relaxes False (loopBody inner) := by
  unfold loopBody
  infer_instance

instance : Relaxes False (ifStatement inner) := by
  unfold ifStatement
  infer_instance

instance : Relaxes False (whileStatement inner) := by
  unfold whileStatement
  infer_instance

instance : Relaxes False (doStatement inner) := by
  unfold doStatement
  infer_instance

instance (head : ForHead) : Relaxes False (forEach inner head) := by
  unfold forEach
  infer_instance

instance (init : Option ForInit) : Relaxes False (forParts inner init) := by
  unfold forParts
  infer_instance

instance {α : Type} [Bearer α] {p : Parse α} [Relaxes False p] : Relaxes False (withoutIn p) := by
  unfold withoutIn
  infer_instance

instance (kind : DeclarationKind) : Relaxes False (forDeclaration inner kind) :=
  .next fun _ => .next fun declared => by dsimp only; split <;> infer_instance

instance : Relaxes False (forExpression inner) := by
  unfold forExpression
  infer_instance

instance : Relaxes False (forStatement inner) := by
  refine .next fun _ => .next fun awaiting => ?_
  extract_lets headed
  have : Relaxes False (headed ()) := .next fun _ => .next fun token => by
    split
    · infer_instance
    · split <;> infer_instance
  infer_instance

instance : Relaxes False atStatementEnd := by
  unfold atStatementEnd
  infer_instance

/-- What a `return` does behind its word. -/
def returned (inner : Phrases) : Parse Statement := do
  advance
  let value ← if ← atStatementEnd then pure none else some <$> expression inner
  endStatement
  return .return value

omit [inner.Relaxing] in
theorem returnStatement_eq {c : Context} {r : Reading} : returnStatement inner c r =
    if c.inFunction || c.options.returnOutsideFunction then returned inner c r
    else fail .illegalReturn c r := by
  unfold returnStatement
  rw [bind_apply]
  dsimp only [Parse.context]
  split <;> rfl

instance : Relaxes True (returned inner) := by
  unfold returned
  infer_instance

/-- Only here it matters whether programs may return.  Where they may not, what is read in the
relaxed context is stray. -/
instance : Relaxes False (returnStatement inner) where
  keeps {c r s r'} h := by
    rw [returnStatement_eq] at h ⊢
    split at h
    · rw [if_pos (by simp [Context.relaxed])]
      exact Relaxes.keeps True h
    · cases h
  restricts {c r s r'} h := by
    rw [returnStatement_eq] at h ⊢
    rw [if_pos (by simp [Context.relaxed])] at h
    split
    · exact Relaxes.restricts True h
    · next hmay =>
      obtain ⟨hc, -⟩ : c.inFunction = false ∧ c.options.returnOutsideFunction = false := by
        simpa using hmay
      exact .inr ⟨hc, Relaxes.bears trivial h⟩
  bears := False.elim

instance : Relaxes False jumpLabel := by
  unfold jumpLabel
  infer_instance

instance : Relaxes False breakStatement :=
  .next fun _ => .next fun label => .context (fun _ => rfl) fun c => by
    dsimp only
    split <;> infer_instance

instance : Relaxes False continueStatement := by
  refine .next fun _ => .context (fun _ => rfl) fun c => ?_
  extract_lets checked
  have : Relaxes False (checked ()) := .next fun label => by
    dsimp only
    split
    · split <;> infer_instance
    · infer_instance
  infer_instance

instance : Relaxes False (throwStatement inner) := by
  unfold throwStatement
  infer_instance

instance : Relaxes False (handler inner) := by
  unfold handler
  infer_instance

instance : Relaxes False (tryStatement inner) := by
  unfold tryStatement
  infer_instance

instance : Relaxes False (caseBody inner) := by
  unfold caseBody
  infer_instance

instance (hasDefault : Bool) (fuel : Nat) : Relaxes False (switchCases inner hasDefault fuel) := by
  -- Induction on the number of cases that may still come.
  induction fuel generalizing hasDefault with
  | zero => exact inferInstanceAs (Relaxes False (fail _ : Parse (List SwitchCase)))
  | succ fuel ih =>
    unfold switchCases
    refine .next fun token => ?_
    split <;> infer_instance

instance : Relaxes False (switchStatement inner) := by
  unfold switchStatement
  infer_instance

instance : Relaxes False (withStatement inner) := by
  unfold withStatement
  infer_instance

instance : Relaxes False (labeledStatement inner) :=
  .next fun label => .next fun _ => .context (fun _ => rfl) fun c => by infer_instance

instance : Relaxes False atLabel := by
  unfold atLabel
  infer_instance

instance : Relaxes False (expressionStatement inner) := by
  unfold expressionStatement
  infer_instance

instance : Relaxes False (statement inner) := by
  refine .next fun token => ?_
  split
  · infer_instance
  · infer_instance
  · split <;> infer_instance
  · infer_instance

instance : Relaxes False atAsyncFunction := by
  unfold atAsyncFunction
  infer_instance

instance : Relaxes False (item inner) :=
  .next fun token => by split <;> infer_instance

instance : Relaxes False (program inner) := by
  unfold program
  infer_instance

end Grammar

/-- The readers of all phrases relax, however deep they nest. -/
theorem Phrases.relaxing_ofDepth (depth : Nat) : (Phrases.ofDepth depth).Relaxing := by
  -- Induction on the depth: readers of phrases read the phrases inside one level deeper.
  induction depth with
  | zero => constructor <;> (intros; exact inferInstanceAs (Relaxes False (fail .exhausted)))
  | succ depth ih =>
    exact {
      item := inferInstanceAs (Relaxes False (Grammar.item (ofDepth depth)))
      statement := inferInstanceAs (Relaxes False (Grammar.statement (ofDepth depth)))
      expression := inferInstanceAs (Relaxes False (Grammar.expression (ofDepth depth)))
      assignment := inferInstanceAs (Relaxes False (Grammar.assignment (ofDepth depth)))
      binary := fun level => inferInstanceAs (Relaxes False (Grammar.binary (ofDepth depth) level))
      power := inferInstanceAs (Relaxes False (Grammar.power (ofDepth depth)))
      unary := inferInstanceAs (Relaxes False (Grammar.unary (ofDepth depth)))
      operand := inferInstanceAs (Relaxes False (Grammar.operand (ofDepth depth)))
      construction := inferInstanceAs (Relaxes False (Grammar.construction (ofDepth depth)))
      pattern := inferInstanceAs (Relaxes False (Grammar.pattern (ofDepth depth))) }

namespace Program

variable {options : ParseOptions} {source : String} {p : Program}

/-- A text is a program if its reader gives one behind the start of the text. -/
theorem ofText_eq_ok_iff : ofText options source = .ok p ↔ ∃ r,
    Grammar.program (.ofDepth ((Cursor.ofText source).rest.length + 2)) { options }
      ⟨.endOfInput, false, .ofText source⟩ = .ok (p, r) := by
  rw [ofText_eq]
  split
  · next q r hread =>
    rw [hread]
    constructor
    · rintro ⟨⟩
      exact ⟨r, rfl⟩
    · rintro ⟨_, ⟨⟩⟩
      rfl
  · next e hread =>
    rw [hread]
    exact ⟨nofun, fun ⟨_, h⟩ => nomatch h⟩

/-- Where programs may not return, a program has no stray `return`. -/
theorem returnsInside_of_ofText (hoptions : options.returnOutsideFunction = false)
    (h : ofText options source = .ok p) : p.ReturnsInside := by
  have hreadable := readable_of_ofText h
  unfold Program.Every sites Surroundings.top at hreadable
  rw [hoptions] at hreadable
  rintro t ht ⟨c, n⟩ hu ⟨hout, value, hreturn⟩
  obtain rfl : n = .statement (.return value) := hreturn
  have hmay : c.mayReturn = true := (hreadable t ht _ hu).1
  exact Bool.noConfusion (hmay.symm.trans hout)

/-- **Programs that may return.**  A text is a program where programs may not return exactly if it is
one where they may and all of its `return`s are in the bodies of functions and in static blocks.  It
is the same program. -/
theorem ofText_iff_returnsInside (topLevelAwait : Bool) (source : String) (p : Program) :
    ofText ⟨topLevelAwait, false⟩ source = .ok p ↔
      ofText ⟨topLevelAwait, true⟩ source = .ok p ∧ p.ReturnsInside := by
  have := Phrases.relaxing_ofDepth ((Cursor.ofText source).rest.length + 2)
  constructor
  · intro h
    refine ⟨?_, returnsInside_of_ofText rfl h⟩
    obtain ⟨r, hread⟩ := ofText_eq_ok_iff.mp h
    exact ofText_eq_ok_iff.mpr ⟨r, Relaxes.keeps False hread⟩
  · rintro ⟨h, hinside⟩
    obtain ⟨r, hread⟩ := ofText_eq_ok_iff.mp h
    rcases Relaxes.restricts False (c := { options := ⟨topLevelAwait, false⟩ }) hread with hread | ⟨-, hstray⟩
    · exact ofText_eq_ok_iff.mpr ⟨r, hread⟩
    · exact absurd hstray hinside.not_stray

/-- A `return` outside of all functions. -/
example : (ofText ⟨true, false⟩ "if (a) return 1").isOk = false ∧
    (ofText ⟨true, true⟩ "if (a) return 1").isOk = true := by
  decide +kernel

end Program

end EcmaEval
