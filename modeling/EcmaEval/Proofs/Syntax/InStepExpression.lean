import EcmaEval.Grammar.Statement
import EcmaEval.Proofs.Syntax.InStep

/-!
# Patterns, functions and expressions in step

The readers of patterns, functions, classes and compound literals keep in step when the readers of
the phrases inside do.  Most of them are sequences of readers that keep in step, and their instances
are found by the rules for sequences and branches.

The readers of operands and operators keep in step when the readers of the phrases inside do.  Where
a text ends behind a name, each of them takes that name for its operand.

## Main definitions

* `Phrases.InStep`: two readers of all phrases keep in step

## Main results

* `Grammar.inStep_skipAccessor`, `Grammar.inStep_skipAsync`: words before a key, which are keys at
  the end of the text
* `Grammar.inStep_classNode`, `Grammar.inStep_template`: classes and templates
* `Grammar.inStep_expression`: expressions keep in step
* `Grammar.runsOut_expression`: an expression at the last name of a text is that name
-/

namespace EcmaEval

open Parse

-- The search for an instance follows the steps of a reader, of which some have many.
set_option synthInstance.maxSize 1000

/-- The readers of phrases keep in step, behind a token that was taken.  Statements stand inside of
bodies only. -/
class Phrases.InStep (P : Pairing) (n : Nat) (inner inner' : Phrases) : Prop where
  fuel : n ≤ inner.fuel
  fuel' : n ≤ inner'.fuel
  item : ∀ {S}, Parse.InStep P true n false S true inner.item inner'.item
  statement : ∀ {S}, Parse.InStep P true n false S true inner.statement inner'.statement
  expression : ∀ {inside S}, Parse.InStep P inside n false S true inner.expression inner'.expression
  assignment : ∀ {inside S}, Parse.InStep P inside n false S true inner.assignment inner'.assignment
  binary : ∀ {inside S} level, Parse.InStep P inside n false S true (inner.binary level) (inner'.binary level)
  power : ∀ {inside S}, Parse.InStep P inside n false S true inner.power inner'.power
  unary : ∀ {inside S}, Parse.InStep P inside n false S true inner.unary inner'.unary
  operand : ∀ {inside S}, Parse.InStep P inside n false S true inner.operand inner'.operand
  construction : ∀ {inside S}, Parse.InStep P inside n false S true inner.construction inner'.construction
  pattern : ∀ {inside S}, Parse.InStep P inside n false S true inner.pattern inner'.pattern

attribute [instance] Phrases.InStep.item Phrases.InStep.statement Phrases.InStep.expression
  Phrases.InStep.assignment Phrases.InStep.binary Phrases.InStep.power Phrases.InStep.unary
  Phrases.InStep.operand Phrases.InStep.construction Phrases.InStep.pattern

theorem Phrases.InStep.mono {P : Pairing} {n m : Nat} {inner inner' : Phrases}
    (h : InStep P n inner inner') (hm : m ≤ n) : InStep P m inner inner' where
  fuel := hm.trans h.fuel
  fuel' := hm.trans h.fuel'
  item := h.item.mono hm
  statement := h.statement.mono hm
  expression := h.expression.mono hm
  assignment := h.assignment.mono hm
  binary level := (h.binary level).mono hm
  power := h.power.mono hm
  unary := h.unary.mono hm
  operand := h.operand.mono hm
  construction := h.construction.mono hm
  pattern := h.pattern.mono hm

namespace Grammar

variable {P : Pairing} {inside : Bool} {n : Nat} {fresh : Bool} {S : Set Token} {inner inner' : Phrases}
  [hinner : Phrases.InStep P n inner inner']

/-- Phrases up to a mark, as many as phrases may be deep. -/
instance inStep_untilMark {α : Type} {p q : Parse α} {mark : Punctuator}
    [hp : InStep P inside n false .univ true p q] :
    InStep P inside n false S true (untilMark mark p inner.fuel) (untilMark mark q inner'.fuel) :=
  .untilMark hp hinner.fuel hinner.fuel'

/-! ### Patterns and keys -/

instance inStep_propertyKey :
    InStep P inside n true S true (propertyKey inner) (propertyKey inner') := by
  refine InStep.current (b := .of_template fun _ _ _ _ => rfl) (k := fun token => ?_)
  split <;> infer_instance

instance runsOut_propertyKey : RunsOut P inside n S (propertyKey inner) (propertyKey inner') := by
  refine RunsOut.current (k := fun token => ?_)
  cases token with
  | punctuator | lineEnd | endOfInput | regExp | template => exact .of_name? fun _ => rfl
  | _ => dsimp only; infer_instance

instance inStep_defaulted (target : Pattern) :
    InStep P inside n true S false (defaulted inner target) (defaulted inner' target) := by
  unfold defaulted
  infer_instance

instance inStep_patternElement :
    InStep P inside n false S true (patternElement inner) (patternElement inner') := by
  unfold patternElement
  infer_instance

instance inStep_patternMember :
    InStep P inside n true S true (patternMember inner) (patternMember inner') := by
  unfold patternMember
  dsimp only
  refine InStep.atMark _ (k := InStep.name? (k := fun shorthand => ?_))
  cases shorthand <;> infer_instance

instance inStep_pattern : InStep P inside n true S true (pattern inner) (pattern inner') := by
  unfold pattern
  infer_instance

instance inStep_parameter : InStep P inside n false S true (parameter inner) (parameter inner') := by
  unfold parameter
  infer_instance

instance inStep_parameters : InStep P inside n true S true (parameters inner) (parameters inner') := by
  unfold parameters
  infer_instance

/-! ### Functions -/

instance inStep_block : InStep P true n true S true (block inner) (block inner') := by
  unfold block
  infer_instance

instance inStep_bodyBlock : InStep P true n true S true (bodyBlock inner) (bodyBlock inner') := by
  unfold bodyBlock
  infer_instance

instance inStep_functionRest (name : Option String)
    (isAsync isGenerator superProperty superCall : Bool) :
    InStep P inside n true S true (functionRest inner name isAsync isGenerator superProperty superCall)
      (functionRest inner' name isAsync isGenerator superProperty superCall) := by
  unfold functionRest
  infer_instance

instance inStep_functionDeclaration (isAsync : Bool) :
    InStep P inside n true S true (functionDeclaration inner isAsync)
      (functionDeclaration inner' isAsync) := by
  unfold functionDeclaration
  infer_instance

instance inStep_functionExpression (isAsync : Bool) :
    InStep P inside n true S true (functionExpression inner isAsync)
      (functionExpression inner' isAsync) := by
  unfold functionExpression
  infer_instance

instance inStep_method (isAsync isGenerator superCall : Bool) :
    InStep P inside n true S true (method inner isAsync isGenerator superCall)
      (method inner' isAsync isGenerator superCall) := by
  unfold method
  infer_instance

/-! ### Words before a key

At the end of the text such a word is the key itself. -/

section Words

variable {β : Type} {takes : Bool}

instance blind_endsMemberName : Token.Blind endsMemberName := .of_template fun _ _ _ _ => rfl

theorem isModifier_bind (f : Bool → Parse β) :
    isModifier >>= f = peek >>= fun found => f (!endsMemberName found.1) := by
  unfold isModifier
  rw [bind_assoc]
  rfl

theorem skipAccessor_bind (f : MethodKind → Parse β) :
    skipAccessor >>= f = current >>= fun token =>
      match accessorWord? token with
      | some kind => isModifier >>= fun b =>
          if b = true then advance >>= fun _ => f kind else f .method
      | none => f .method := by
  unfold skipAccessor
  rw [bind_assoc]
  congr 1
  funext token
  cases accessorWord? token with
  | none => exact pure_bind _ f
  | some kind =>
    dsimp only
    rw [bind_assoc]
    congr 1
    funext b
    cases b <;> simp

theorem skipAsync_bind (f : Bool → Parse β) :
    skipAsync >>= f = atWord .asyncWord >>= fun b =>
      if b = true then isModifier >>= fun b =>
        if b = true then peek >>= fun found =>
          if found.2 = true then f false else advance >>= fun _ => f true
        else f false
      else f false := by
  unfold skipAsync
  rw [bind_assoc]
  congr 1
  funext b
  cases b with
  | false => simp
  | true =>
    simp only [↓reduceIte, bind_assoc]
    congr 1
    funext b
    cases b with
    | false => simp
    | true =>
      simp only [↓reduceIte, bind_assoc]
      congr 1
      funext found
      cases found.2 <;> simp

section Modifier

variable {f g : Bool → Parse β}

instance inStep_isModifier [Names S] [k : ∀ b, InStep P inside n fresh S takes (f b) (g b)]
    [e : RunsOut P inside n S (f false) (g false)] :
    InStep P inside n fresh S takes (isModifier >>= f) (isModifier >>= g) := by
  rw [isModifier_bind, isModifier_bind]
  have hblind (line : Bool) : Token.Blind fun token => g (!endsMemberName (token, line).1) :=
    .comp (f := endsMemberName) fun ends => g !ends
  exact InStep.peek (e := fun _ => e)

instance runsOut_isModifier [e : RunsOut P inside n S (f false) (g false)] :
    RunsOut P inside n S (isModifier >>= f) (isModifier >>= g) := by
  rw [isModifier_bind, isModifier_bind]
  exact RunsOut.peek (k := fun _ => e)

instance inStep_skipAsync [InStep P inside n false .univ false (f true) (g true)]
    [InStep P inside n fresh S takes (f false) (g false)]
    [RunsOut P inside n {.keyword .asyncWord} (f false) (g false)]
    [InStep P inside n fresh {.keyword .asyncWord} takes (f false) (g false)] :
    InStep P inside n fresh S takes (skipAsync >>= f) (skipAsync >>= g) := by
  rw [skipAsync_bind, skipAsync_bind]
  infer_instance

instance runsOut_skipAsync [RunsOut P inside n S (f false) (g false)]
    [RunsOut P inside n {.keyword .asyncWord} (f false) (g false)] :
    RunsOut P inside n S (skipAsync >>= f) (skipAsync >>= g) := by
  rw [skipAsync_bind, skipAsync_bind]
  infer_instance

end Modifier

section Accessor

variable {f g : MethodKind → Parse β}

theorem exists_of_accessorWord? {token : Token} {kind : MethodKind}
    (h : accessorWord? token = some kind) : ∃ name, token = .identifier name := by
  unfold accessorWord? at h
  split at h
  · exact ⟨_, rfl⟩
  · exact ⟨_, rfl⟩
  · cases h

instance inStep_skipAccessor [∀ kind, InStep P inside n false .univ false (f kind) (g kind)]
    [k : InStep P inside n fresh .univ takes (f .method) (g .method)]
    [e : RunsOut P inside n .univ (f .method) (g .method)] :
    InStep P inside n fresh S takes (skipAccessor >>= f) (skipAccessor >>= g) := by
  rw [skipAccessor_bind, skipAccessor_bind]
  refine InStep.current (b := .of_template fun _ _ _ _ => rfl) (k := fun token => ?_)
  have hkey := k.subset (Set.subset_univ {token})
  have hend := e.subset (Set.subset_univ {token})
  cases hword : accessorWord? token with
  | none => exact hkey
  | some kind =>
    obtain ⟨name, rfl⟩ := exists_of_accessorWord? hword
    infer_instance

instance runsOut_skipAccessor [e : RunsOut P inside n .univ (f .method) (g .method)] :
    RunsOut P inside n S (skipAccessor >>= f) (skipAccessor >>= g) := by
  rw [skipAccessor_bind, skipAccessor_bind]
  refine RunsOut.current (k := fun token => ?_)
  have hend := e.subset (Set.subset_univ {token})
  cases accessorWord? token with
  | none => exact hend
  | some kind => infer_instance

end Accessor

end Words

/-! ### Classes -/

instance respects_initializerContext : P.Respects inside true initializerContext :=
  Pairing.Respects.inOwnBody false false true false

instance inStep_fieldValue : InStep P inside n false S true (fieldValue inner) (fieldValue inner') := by
  unfold fieldValue
  infer_instance

instance inStep_staticBlock : InStep P inside n true S true (staticBlock inner) (staticBlock inner') := by
  unfold staticBlock
  infer_instance

instance inStep_classMethod (derived isStatic isAsync isGenerator : Bool) (kind : MethodKind)
    (key : PropertyKey) :
    InStep P inside n true S true (classMethod inner derived isStatic isAsync isGenerator kind key)
      (classMethod inner' derived isStatic isAsync isGenerator kind key) := by
  unfold classMethod
  infer_instance

instance inStep_classField (isStatic : Bool) (key : PropertyKey) :
    InStep P inside n true S false (classField inner isStatic key) (classField inner' isStatic key) := by
  unfold classField
  infer_instance

instance runsOut_classMember (derived isStatic : Bool) :
    RunsOut P inside n S (classMember inner derived isStatic) (classMember inner' derived isStatic) := by
  unfold classMember
  infer_instance

instance inStep_classMember (derived isStatic : Bool) :
    InStep P inside n true S true (classMember inner derived isStatic)
      (classMember inner' derived isStatic) := by
  unfold classMember
  infer_instance

instance inStep_classElement (derived : Bool) :
    InStep P inside n true S true (classElement inner derived) (classElement inner' derived) := by
  unfold classElement
  infer_instance

instance inStep_classElements (derived hasConstructor : Bool) :
    InStep P inside n false S true (classElements inner derived hasConstructor inner.fuel)
      (classElements inner' derived hasConstructor inner'.fuel) := by
  refine InStep.loop (fun fuel found => classElements inner derived found fuel)
    (fun fuel found => classElements inner' derived found fuel) (fun _ => rfl)
    (fun k fuel fuel' hk ih found => ?_) hinner.fuel hinner.fuel' hasConstructor
  have := hinner.mono hk
  unfold classElements
  infer_instance

instance inStep_classNode (isDeclaration : Bool) :
    InStep P inside n true S true (classNode inner isDeclaration) (classNode inner' isDeclaration) := by
  unfold classNode
  infer_instance

/-! ### Compound literals -/

instance inStep_spreadable : InStep P inside n false S true (spreadable inner) (spreadable inner') := by
  unfold spreadable
  infer_instance

instance inStep_argument : InStep P inside n false S true (argument inner) (argument inner') := by
  unfold argument
  infer_instance

instance inStep_arguments : InStep P inside n true S true (arguments inner) (arguments inner') := by
  unfold arguments
  infer_instance

instance inStep_arrayElement :
    InStep P inside n false S true (arrayElement inner) (arrayElement inner') := by
  unfold arrayElement
  infer_instance

instance inStep_arrayLiteral :
    InStep P inside n true S true (arrayLiteral inner) (arrayLiteral inner') := by
  unfold arrayLiteral
  infer_instance

instance inStep_keyedMember (isAsync isGenerator : Bool) (kind : MethodKind) :
    InStep P inside n true S true (keyedMember inner isAsync isGenerator kind)
      (keyedMember inner' isAsync isGenerator kind) := by
  unfold keyedMember
  refine InStep.name? (k := fun shorthand => ?_)
  cases shorthand <;> infer_instance

instance runsOut_keyedMember (isAsync isGenerator : Bool) (kind : MethodKind) :
    RunsOut P inside n S (keyedMember inner isAsync isGenerator kind)
      (keyedMember inner' isAsync isGenerator kind) := by
  unfold keyedMember
  refine RunsOut.name? (k := fun shorthand => ?_)
  cases shorthand <;> infer_instance

instance inStep_objectMember :
    InStep P inside n true S true (objectMember inner) (objectMember inner') := by
  unfold objectMember
  infer_instance

instance inStep_objectLiteral :
    InStep P inside n true S true (objectLiteral inner) (objectLiteral inner') := by
  unfold objectLiteral
  infer_instance

/-- A template has a token at hand when its substitutions begin. -/
theorem inStep_substitutions {fuel fuel' : Nat} [hS : Solid S] (hfuel : n ≤ fuel)
    (hfuel' : n ≤ fuel') :
    InStep P inside n true S true (substitutions inner fuel) (substitutions inner' fuel') := by
  -- Induction on the steps that are left to the first reader.
  induction fuel generalizing n fuel' S with
  | zero =>
    obtain rfl := Nat.le_zero.mp hfuel
    exact .of_solid
  | succ fuel ih =>
    rcases n with _ | n
    · exact .of_solid
    obtain ⟨fuel', rfl⟩ := Nat.exists_eq_succ_of_ne_zero (Nat.ne_zero_of_lt hfuel')
    have hinner' := hinner.mono (Nat.le_succ n)
    have hrest (cooked : Option String) (raw : String) :
        InStep P inside (n + 1) false {.template .middle cooked raw} true (substitutions inner fuel)
          (substitutions inner' fuel') :=
      (ih (Nat.le_of_succ_le_succ hfuel) (Nat.le_of_succ_le_succ hfuel')).succ
    unfold substitutions
    refine InStep.bind_takes (k := fun _ => InStep.bind_takes (k := fun value => ?_))
    refine InStep.atMark _ (t := InStep.ite_true (h := ?_))
    refine InStep.readTemplateContinuation (k := fun token token' hsame => ?_)
    cases token with
    | template part cooked raw =>
      obtain ⟨raw', rfl⟩ := (P.alike hsame).exists_eq_template
      cases part with
      | middle =>
        refine InStep.replaceCurrent hsame (InStep.bind_takes (k := fun found => ?_))
        obtain ⟨texts, values⟩ := found
        infer_instance
      | _ => infer_instance
    | _ =>
      cases P.alike hsame
      infer_instance

instance inStep_template : InStep P inside n true S true (template inner) (template inner') := by
  unfold template
  refine InStep.current (b := .of_template fun part _ _ _ => by cases part <;> rfl)
    (k := fun token => ?_)
  split
  · infer_instance
  · have hrest (cooked : Option String) (raw : String) :
        InStep P inside n true {.template .head cooked raw} true (substitutions inner inner.fuel)
          (substitutions inner' inner'.fuel) :=
      inStep_substitutions hinner.fuel hinner.fuel'
    refine InStep.bind_takes (k := fun found => ?_)
    obtain ⟨texts, values⟩ := found
    infer_instance
  · infer_instance

end Grammar

end EcmaEval

/-! # Operands and expressions in step -/

namespace EcmaEval.Grammar

open Parse

set_option synthInstance.maxSize 1000

variable {P : Pairing} {inside : Bool} {n : Nat} {fresh : Bool} {S : Set Token} {inner inner' : Phrases}
  [hinner : Phrases.InStep P n inner inner']

/-! ### Operands -/

instance inStep_atArrow : InStep P inside n fresh S false atArrow atArrow := by
  unfold atArrow
  infer_instance

instance inStep_arrow (params : List Pattern) (isAsync : Bool) :
    InStep P inside n true S true (arrow inner params isAsync) (arrow inner' params isAsync) := by
  unfold arrow
  infer_instance

instance inStep_toParameters (parts : List Expression) :
    InStep P inside n fresh S false (toParameters parts) (toParameters parts) := by
  unfold toParameters
  split <;> infer_instance

instance inStep_grouped : InStep P inside n false S true (grouped inner) (grouped inner') := by
  unfold grouped
  infer_instance

instance inStep_group : InStep P inside n true S true (group inner) (group inner') := by
  unfold group
  refine InStep.bind_takes (k := fun _ => InStep.bind_takes (k := fun parts => ?_))
  refine InStep.bind (k := fun isArrow => ?_)
  split
  · split <;> infer_instance
  · split <;> infer_instance

/-- The word `async` alone is a name. -/
instance inStep_asyncOperand :
    InStep P inside n true {.keyword .asyncWord} true (asyncOperand inner) (asyncOperand inner') := by
  unfold asyncOperand
  refine InStep.peek (b := fun _ => .of_template fun _ _ _ _ => rfl) (k := fun found => ?_)
    (e := fun line => ?_)
  · obtain ⟨next, lineEnd⟩ := found
    refine InStep.bind_takes (k := fun _ => ?_)
    split
    · infer_instance
    · split <;> infer_instance
  · infer_instance

instance runsOut_asyncOperand : RunsOut P inside n S (asyncOperand inner) (asyncOperand inner') := by
  unfold asyncOperand
  infer_instance

instance inStep_superOperand :
    InStep P inside n fresh {.keyword .superWord} true superOperand superOperand := by
  unfold superOperand
  refine InStep.bind_takes (k := fun _ => InStep.context fun c c' halike => ?_)
  rw [halike.superCall, halike.superProperty]
  refine InStep.current (b := .of_template fun _ _ _ _ => rfl) (k := fun token => ?_)
  split <;> infer_instance

instance inStep_regExp [OpensSpecial S] (front : String) :
    InStep P inside n fresh S true (regExp front) (regExp front) := by
  unfold regExp
  refine InStep.readRegExp (b := .of_template fun _ _ _ _ => rfl) (k := fun token => ?_)
  split <;> infer_instance

instance inStep_plainTemplate :
    InStep P inside n true S true (plainTemplate inner) (plainTemplate inner') := by
  unfold plainTemplate
  refine InStep.bind_takes (k := fun found => ?_)
  obtain ⟨texts, values⟩ := found
  infer_instance

instance inStep_named : InStep P inside n true S true (named inner) (named inner') := by
  unfold named
  infer_instance

instance runsOut_named : RunsOut P inside n S (named inner) (named inner') := by
  unfold named
  infer_instance

instance inStep_primary : InStep P inside n true S true (primary inner) (primary inner') := by
  unfold primary
  refine InStep.current (b := .of_template fun part _ _ _ => by cases part <;> rfl)
    (k := fun token => ?_)
  split <;> infer_instance

instance runsOut_primary : RunsOut P inside n S (primary inner) (primary inner') := by
  unfold primary
  refine RunsOut.current (k := fun token => ?_)
  split
  -- The word `async`, and all that is read as a name; nothing else is one.
  case h_3 | h_18 => infer_instance
  all_goals exact .of_name? fun _ => rfl

instance inStep_memberName : InStep P inside n fresh S true memberName memberName := by
  unfold memberName
  refine InStep.current (b := .of_template fun _ _ _ _ => rfl) (k := fun token => ?_)
  split <;> infer_instance

instance inStep_computedKey : InStep P inside n true S true (computedKey inner) (computedKey inner') := by
  unfold computedKey
  infer_instance

instance inStep_members (e : Expression) :
    InStep P inside n false S false (members inner inner.fuel e) (members inner' inner'.fuel e) := by
  refine InStep.loop (members inner) (members inner') (fun _ => rfl)
    (fun k fuel fuel' hk ih e => ?_) hinner.fuel hinner.fuel' e
  have := hinner.mono hk
  unfold members
  infer_instance

instance inStep_linkTail (e : Expression) :
    InStep P inside n false S false (linkTail inner inner.fuel e) (linkTail inner' inner'.fuel e) := by
  refine InStep.loop (linkTail inner) (linkTail inner') (fun _ => rfl)
    (fun k fuel fuel' hk ih e => ?_) hinner.fuel hinner.fuel' e
  have := hinner.mono hk
  unfold linkTail
  infer_instance

instance inStep_optionalLink :
    InStep P inside n true S true (optionalLink inner) (optionalLink inner') := by
  unfold optionalLink
  infer_instance

instance blind_beginsTemplate : Token.Blind beginsTemplate :=
  .of_template fun part _ _ _ => by cases part <;> rfl

instance inStep_operandTail (e : Expression) :
    InStep P inside n false S false (operandTail inner inner.fuel e)
      (operandTail inner' inner'.fuel e) := by
  refine InStep.loop (operandTail inner) (operandTail inner') (fun _ => rfl)
    (fun k fuel fuel' hk ih e => ?_) hinner.fuel hinner.fuel' e
  have := hinner.mono hk
  have htemplate (token : Token) : InStep P inside k true {token} false
      (do
        let (texts, values) ← template inner
        operandTail inner fuel (.taggedTemplate e texts values))
      (do
        let (texts, values) ← template inner'
        operandTail inner' fuel' (.taggedTemplate e texts values)) := by
    refine InStep.bind_takes (k := fun found => ?_)
    obtain ⟨texts, values⟩ := found
    infer_instance
  unfold operandTail
  infer_instance

/-- The word `target`, behind which only the first reader may fail. -/
instance inStep_newTarget : InStep P inside n fresh S true newTarget newTarget := by
  unfold newTarget
  refine InStep.current (b := .of_template fun _ _ _ _ => rfl) (k := fun token => ?_)
  split
  · refine InStep.context fun c c' halike => ?_
    rcases halike.target with heq | ⟨hout, hexcused⟩
    · rw [heq]
      infer_instance
    · rw [hout]
      exact .of_excused fun _ _ => ⟨_, rfl, hexcused _ rfl⟩
  · infer_instance

instance inStep_construction :
    InStep P inside n true S true (construction inner) (construction inner') := by
  unfold construction
  infer_instance

instance inStep_operand : InStep P inside n true S true (operand inner) (operand inner') := by
  unfold operand
  infer_instance

instance runsOut_operand : RunsOut P inside n S (operand inner) (operand inner') := by
  unfold operand
  have : RunsOut P inside n {.keyword .newWord} (construction inner) (construction inner') :=
    .of_name? fun _ => rfl
  infer_instance

/-! ### Operators -/

/-- A target is checked without a step. -/
instance inStep_checkTarget {β : Type} {takes : Bool} (simple : Bool) (e : Expression)
    {f g : Unit → Parse β} [k : InStep P inside n fresh S takes (f ()) (g ())] :
    InStep P inside n fresh S takes (checkTarget simple e >>= f) (checkTarget simple e >>= g) := by
  unfold checkTarget
  split <;> infer_instance

theorem solid_of_updateOperator? {token : Token} {op : UpdateOperator}
    (h : updateOperator? token = some op) : Solid {token} := by
  unfold updateOperator? at h
  split at h <;> first | infer_instance | cases h

theorem solid_of_unaryOperator? {token : Token} {op : UnaryOperator}
    (h : unaryOperator? token = some op) : Solid {token} := by
  unfold unaryOperator? at h
  split at h <;> first | infer_instance | cases h

theorem solid_of_binaryOperator? {noIn : Bool} {token : Token} {op : BinaryOperator × Nat}
    (h : binaryOperator? noIn token = some op) : Solid {token} := by
  unfold binaryOperator? at h
  split at h <;> first | infer_instance | cases h

theorem solid_of_assignmentOperator? {token : Token} {op : AssignmentOperator}
    (h : assignmentOperator? token = some op) : Solid {token} := by
  unfold assignmentOperator? at h
  split at h <;> first | infer_instance | cases h

/-- What `stepped` does behind its operand. -/
def step (e : Expression) : Parse Expression := do
  if ← afterLineEnd then return e
  match updateOperator? (← current) with
  | none => return e
  | some op =>
    checkTarget true e
    advance
    return .update op false e

instance inStep_step (e : Expression) : InStep P inside n fresh S false (step e) (step e) := by
  unfold step
  refine InStep.afterLineEnd (k := fun lineEnd => ?_)
  split
  · infer_instance
  refine InStep.current (b := .of_template fun _ _ _ _ => rfl) (k := fun token => ?_)
  split
  · infer_instance
  · next hop =>
    have := solid_of_updateOperator? hop
    infer_instance

theorem stepped_eq (inner : Phrases) : stepped inner = operand inner >>= step := rfl

instance inStep_stepped : InStep P inside n true S true (stepped inner) (stepped inner') := by
  rw [stepped_eq, stepped_eq]
  infer_instance

instance runsOut_stepped : RunsOut P inside n S (stepped inner) (stepped inner') := by
  rw [stepped_eq, stepped_eq]
  infer_instance

instance inStep_unary : InStep P inside n true S true (unary inner) (unary inner') := by
  unfold unary
  refine InStep.current (b := .of_template fun _ _ _ _ => rfl) (k := fun token => ?_)
  split
  · next hop =>
    have := solid_of_unaryOperator? hop
    infer_instance
  split
  · next hop =>
    have := solid_of_updateOperator? hop
    infer_instance
  refine InStep.context_awaits fun c c' _ hawaits => ?_
  rw [hawaits]
  split
  · next hawait =>
    obtain rfl := Token.eq_of_isWord (Bool.and_eq_true_iff.mp hawait).1
    infer_instance
  · infer_instance

instance runsOut_unary : RunsOut P inside n S (unary inner) (unary inner') := by
  unfold unary
  refine RunsOut.current (k := fun token => ?_)
  split
  · infer_instance
  split <;> infer_instance

instance inStep_power : InStep P inside n true S true (power inner) (power inner') := by
  unfold power
  refine InStep.current (b := .of_template fun _ _ _ _ => rfl) (k := fun token => ?_)
  infer_instance

instance runsOut_power : RunsOut P inside n S (power inner) (power inner') := by
  unfold power
  infer_instance

instance inStep_binaryTail (level : Nat) (left : Expression) :
    InStep P inside n false S false (binaryTail inner level inner.fuel left)
      (binaryTail inner' level inner'.fuel left) := by
  refine InStep.loop (binaryTail inner level) (binaryTail inner' level) (fun _ => rfl)
    (fun k fuel fuel' hk ih left => ?_) hinner.fuel hinner.fuel' left
  have := hinner.mono hk
  unfold binaryTail
  refine InStep.context fun c c' halike =>
    InStep.current (b := .of_template fun _ _ _ _ => rfl) (k := fun token => ?_)
  rw [halike.noIn]
  split
  · infer_instance
  · next hop =>
    have := solid_of_binaryOperator? hop
    infer_instance

instance inStep_binary (level : Nat) :
    InStep P inside n true S true (binary inner level) (binary inner' level) := by
  unfold binary
  infer_instance

instance runsOut_binary (level : Nat) :
    RunsOut P inside n S (binary inner level) (binary inner' level) := by
  unfold binary
  infer_instance

instance inStep_logicalTail (mark : Punctuator) (op : LogicalOperator) (left : Expression)
    {next next' : Parse Expression} [h : InStep P inside n true .univ true next next'] :
    InStep P inside n false S false (logicalTail mark op next inner.fuel left)
      (logicalTail mark op next' inner'.fuel left) := by
  refine InStep.loop (logicalTail mark op next) (logicalTail mark op next') (fun _ => rfl)
    (fun k fuel fuel' hk ih left => ?_) hinner.fuel hinner.fuel' left
  have : InStep P inside k false .univ true next next' := h.mono (hk.trans (Nat.le_succ n))
  unfold logicalTail
  infer_instance

instance inStep_conjunction : InStep P inside n true S true (conjunction inner) (conjunction inner') := by
  unfold conjunction
  infer_instance

instance runsOut_conjunction : RunsOut P inside n S (conjunction inner) (conjunction inner') := by
  unfold conjunction
  infer_instance

instance inStep_disjunction : InStep P inside n true S true (disjunction inner) (disjunction inner') := by
  unfold disjunction
  infer_instance

instance runsOut_disjunction : RunsOut P inside n S (disjunction inner) (disjunction inner') := by
  unfold disjunction
  infer_instance

instance inStep_coalescence : InStep P inside n true S true (coalescence inner) (coalescence inner') := by
  unfold coalescence
  infer_instance

instance runsOut_coalescence : RunsOut P inside n S (coalescence inner) (coalescence inner') := by
  unfold coalescence
  infer_instance

instance inStep_conditional : InStep P inside n true S true (conditional inner) (conditional inner') := by
  unfold conditional
  infer_instance

instance runsOut_conditional : RunsOut P inside n S (conditional inner) (conditional inner') := by
  unfold conditional
  infer_instance

/-! ### Assignments and sequences -/

instance blind_endsYield : Token.Blind endsYield := .of_template fun _ _ _ _ => rfl

instance inStep_yielded :
    InStep P inside n true {.keyword .yieldWord} true (yielded inner) (yielded inner') := by
  unfold yielded
  infer_instance

instance runsOut_yielded : RunsOut P inside n S (yielded inner) (yielded inner') := by
  unfold yielded
  infer_instance

/-- What `assignment` does behind its target. -/
def assignmentTo (inner : Phrases) (target : Expression) : Parse Expression := do
  match assignmentOperator? (← current) with
  | none => return target
  | some op =>
    checkTarget (op ≠ .plain) target
    advance
    return .assign op target (← inner.assignment)

instance inStep_assignmentTo (target : Expression) :
    InStep P inside n true S false (assignmentTo inner target) (assignmentTo inner' target) := by
  unfold assignmentTo
  refine InStep.current (b := .of_template fun _ _ _ _ => rfl) (k := fun token => ?_)
  split
  · infer_instance
  · next hop =>
    have := solid_of_assignmentOperator? hop
    infer_instance

theorem assignment_eq (inner : Phrases) :
    assignment inner = context >>= fun c => atWord .yieldWord >>= fun b =>
      if (c.inGenerator && b) = true then yielded inner
      else conditional inner >>= assignmentTo inner :=
  rfl

instance inStep_assignment : InStep P inside n true S true (assignment inner) (assignment inner') := by
  rw [assignment_eq, assignment_eq]
  refine InStep.context fun c c' halike => ?_
  rw [halike.inGenerator]
  refine InStep.atWord _ (k := ?_)
  rw [Bool.and_false]
  infer_instance

instance runsOut_assignment : RunsOut P inside n S (assignment inner) (assignment inner') := by
  rw [assignment_eq, assignment_eq]
  infer_instance

instance inStep_sequenceTail :
    InStep P inside n false S false (sequenceTail inner inner.fuel) (sequenceTail inner' inner'.fuel) := by
  refine InStep.loop (fun fuel (_ : Unit) => sequenceTail inner fuel)
    (fun fuel _ => sequenceTail inner' fuel) (fun _ => rfl)
    (fun k fuel fuel' hk ih _ => ?_) hinner.fuel hinner.fuel' ()
  have := hinner.mono hk
  have := ih ()
  unfold sequenceTail
  infer_instance

/-- An expression, or a sequence if others follow it. -/
def sequenceOf (first : Expression) : List Expression → Expression
  | [] => first
  | others => .sequence (first :: others)

theorem expression_eq (inner : Phrases) :
    expression inner = assignment inner >>= fun first =>
      sequenceOf first <$> sequenceTail inner inner.fuel := by
  unfold expression
  congr 1
  funext first
  rw [← bind_pure_comp]
  congr 1
  funext others
  cases others <;> rfl

instance inStep_expression : InStep P inside n true S true (expression inner) (expression inner') := by
  rw [expression_eq, expression_eq]
  infer_instance

instance runsOut_expression : RunsOut P inside n S (expression inner) (expression inner') := by
  rw [expression_eq, expression_eq]
  infer_instance

end EcmaEval.Grammar
