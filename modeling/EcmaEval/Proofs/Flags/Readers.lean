import EcmaEval.Proofs.Flags.Basic

/-!
# Every method hands the flags back

Most methods of the parser write no flags and call other methods one behind the other.  So they
hand the flags back, and do what the readers of the grammar do, when the methods for the phrases
inside do.  Each method that writes flags is a case of its own: the flags of a function are saved
and written back, loops and switches are counted, labels are pushed and popped, and the head of a
loop sets a flag and clears it.  Statements need to begin outside of such heads, and expressions do
not.

## Main definitions

* `Methods.HandsBack`: the methods for all phrases hand the flags back
* `Methods.ofDepthUnlessHead`: methods that do something else where a statement begins in a head

## Main results

* `Parser.handsBack_functionRest`, `Parser.handsBack_arrow`: functions
* `Parser.handsBack_loopBody`, `Parser.handsBack_labeledStatement`: what jumps may aim at
* `Parser.handsBack_forDeclaration`, `Parser.handsBack_forExpression`: the heads of loops
* `Methods.handsBack_ofDepth`: phrases that lie in each other to any depth
* `Program.ofText_eq`: a program is what the grammar reads
-/

namespace EcmaEval

open Parse Flagged

-- The search for an instance follows the steps of a reader, of which some have many.
set_option synthInstance.maxSize 1000

/-! ## Sequences of phrases -/

namespace Flagged.HandsBack

variable {α : Type} {head : Bool} {q : Flagged α} {p : Parse α}

instance untilToken (closes : Token → Bool) (fuel : Nat) [HandsBack head q p] :
    HandsBack head (untilToken closes q fuel) (Parse.untilToken closes p fuel) := by
  induction fuel with
  | zero => exact .lift _
  | succ fuel ih =>
    refine .bind (k := fun token => ?_)
    infer_instance

instance untilMark (close : Punctuator) (fuel : Nat) [HandsBack head q p] :
    HandsBack head (untilMark close q fuel) (Parse.untilMark close p fuel) := by
  unfold Flagged.untilMark Parse.untilMark
  infer_instance

end Flagged.HandsBack

/-! ## The methods for phrases -/

/-- The methods for phrases hand the flags back.  Statements do not stand in the heads of loops. -/
class Methods.HandsBack (inner : Methods) (inner' : Phrases) : Prop where
  fuel : inner'.fuel = inner.fuel
  item : Flagged.HandsBack false inner.item inner'.item
  statement : Flagged.HandsBack false inner.statement inner'.statement
  expression : ∀ {head}, Flagged.HandsBack head inner.expression inner'.expression
  assignment : ∀ {head}, Flagged.HandsBack head inner.assignment inner'.assignment
  binary : ∀ {head} level, Flagged.HandsBack head (inner.binary level) (inner'.binary level)
  power : ∀ {head}, Flagged.HandsBack head inner.power inner'.power
  unary : ∀ {head}, Flagged.HandsBack head inner.unary inner'.unary
  operand : ∀ {head}, Flagged.HandsBack head inner.operand inner'.operand
  construction : ∀ {head}, Flagged.HandsBack head inner.construction inner'.construction
  pattern : ∀ {head}, Flagged.HandsBack head inner.pattern inner'.pattern

attribute [instance] Methods.HandsBack.item Methods.HandsBack.statement Methods.HandsBack.expression
  Methods.HandsBack.assignment Methods.HandsBack.binary Methods.HandsBack.power
  Methods.HandsBack.unary Methods.HandsBack.operand Methods.HandsBack.construction
  Methods.HandsBack.pattern

namespace Parser

variable {head : Bool} {inner : Methods} {inner' : Phrases} [hinner : inner.HandsBack inner']

/-! ### Patterns and keys -/

instance handsBack_propertyKey :
    HandsBack head (propertyKey inner) (Grammar.propertyKey inner') := by
  unfold propertyKey Grammar.propertyKey
  refine .bind (k := fun token => ?_)
  cases token with
  | punctuator mark => cases mark <;> infer_instance
  | _ => infer_instance

instance handsBack_defaulted (target : Pattern) :
    HandsBack head (defaulted inner target) (Grammar.defaulted inner' target) := by
  unfold defaulted Grammar.defaulted
  infer_instance

instance handsBack_patternElement :
    HandsBack head (patternElement inner) (Grammar.patternElement inner') := by
  unfold patternElement Grammar.patternElement
  infer_instance

instance handsBack_patternMember :
    HandsBack head (patternMember inner) (Grammar.patternMember inner') := by
  unfold patternMember Grammar.patternMember
  refine .bind (k := fun isRest => ?_)
  split
  · infer_instance
  refine .bind (k := fun shorthand => ?_)
  cases shorthand <;> infer_instance

instance handsBack_pattern : HandsBack head (pattern inner) (Grammar.pattern inner') := by
  unfold pattern Grammar.pattern
  rw [hinner.fuel]
  refine .bind (k := fun name => ?_)
  cases name <;> infer_instance

instance handsBack_parameter : HandsBack head (parameter inner) (Grammar.parameter inner') := by
  unfold parameter Grammar.parameter
  infer_instance

instance handsBack_parameters : HandsBack head (parameters inner) (Grammar.parameters inner') := by
  unfold parameters Grammar.parameters
  rw [hinner.fuel]
  infer_instance

/-! ### Functions -/

instance handsBack_block : HandsBack false (block inner) (Grammar.block inner') := by
  unfold block Grammar.block
  rw [hinner.fuel]
  infer_instance

instance handsBack_bodyBlock : HandsBack head (bodyBlock inner) (Grammar.bodyBlock inner') := by
  unfold bodyBlock Grammar.bodyBlock
  infer_instance

instance handsBack_functionRest (name : Option String)
    (isAsync isGenerator superProperty superCall : Bool) :
    HandsBack head (functionRest inner name isAsync isGenerator superProperty superCall)
      (Grammar.functionRest inner' name isAsync isGenerator superProperty superCall) := by
  have hparsed : HandsBack head
      (do
        let params ← parameters inner
        return (params, ← bodyBlock inner))
      (do
        let params ← Grammar.parameters inner'
        return (params, ← Grammar.bodyBlock inner')) := inferInstance
  -- The flag of the operator `in` is not among those of a function, so that what is inside may
  -- stand in a head as well as the function.
  refine .scope head
    (fun f => { f.entered isAsync isGenerator false with superProperty, superCall }) Flags.left
    (·.inOwnBody isAsync isGenerator superProperty superCall)
    (fun parts =>
      { name, params := parts.1, body := .block parts.2, isArrow := false, isAsync, isGenerator })
    (h := hparsed) (fun _ _ => rfl) ?_ (fun _ hf => hf) (fun _ => rfl) fun _ _ => rfl
  simp only [Grammar.functionRest, map_bind, map_pure]

instance handsBack_functionDeclaration (isAsync : Bool) :
    HandsBack head (functionDeclaration inner isAsync)
      (Grammar.functionDeclaration inner' isAsync) := by
  unfold functionDeclaration Grammar.functionDeclaration
  infer_instance

instance handsBack_functionExpression (isAsync : Bool) :
    HandsBack head (functionExpression inner isAsync)
      (Grammar.functionExpression inner' isAsync) := by
  unfold functionExpression Grammar.functionExpression
  infer_instance

instance handsBack_method (isAsync isGenerator superCall : Bool) :
    HandsBack head (method inner isAsync isGenerator superCall)
      (Grammar.method inner' isAsync isGenerator superCall) := by
  unfold method Grammar.method
  infer_instance

/-! ### Classes -/

instance handsBack_fieldValue : HandsBack head (fieldValue inner) (Grammar.fieldValue inner') := by
  refine .scope head (fun f => { f.entered false false false with superProperty := true })
    Flags.left Grammar.initializerContext id (q := allowIn inner.assignment)
    (p := inner'.assignment.withIn) (fun _ _ => rfl) ?_ (fun _ hf => hf) (fun _ => rfl)
    fun _ _ => rfl
  rw [id_map, Grammar.fieldValue]

instance handsBack_staticBlock :
    HandsBack head (staticBlock inner) (Grammar.staticBlock inner') := by
  refine .scope head (fun f => { f.entered false false false with superProperty := true })
    Flags.left Grammar.initializerContext .staticBlock (q := bodyBlock inner)
    (p := Grammar.bodyBlock inner') (fun _ _ => rfl) ?_ (fun _ hf => hf) (fun _ => rfl)
    fun _ _ => rfl
  rw [map_eq_pure_bind, Grammar.staticBlock]

instance handsBack_classMethod (derived isStatic isAsync isGenerator : Bool) (kind : MethodKind)
    (key : PropertyKey) :
    HandsBack head (classMethod inner derived isStatic isAsync isGenerator kind key)
      (Grammar.classMethod inner' derived isStatic isAsync isGenerator kind key) := by
  unfold classMethod Grammar.classMethod
  infer_instance

instance handsBack_classField (isStatic : Bool) (key : PropertyKey) :
    HandsBack head (classField inner isStatic key) (Grammar.classField inner' isStatic key) := by
  unfold classField Grammar.classField
  infer_instance

instance handsBack_classMember (derived isStatic : Bool) :
    HandsBack head (classMember inner derived isStatic)
      (Grammar.classMember inner' derived isStatic) := by
  unfold classMember Grammar.classMember
  infer_instance

instance handsBack_classElement (derived : Bool) :
    HandsBack head (classElement inner derived) (Grammar.classElement inner' derived) := by
  unfold classElement Grammar.classElement
  infer_instance

instance handsBack_classElements (derived hasConstructor : Bool) (fuel : Nat) :
    HandsBack head (classElements inner derived hasConstructor fuel)
      (Grammar.classElements inner' derived hasConstructor fuel) := by
  induction fuel generalizing hasConstructor with
  | zero => exact .lift _
  | succ fuel ih =>
    unfold classElements Grammar.classElements
    infer_instance

instance handsBack_classNode (isDeclaration : Bool) :
    HandsBack head (classNode inner isDeclaration) (Grammar.classNode inner' isDeclaration) := by
  unfold classNode Grammar.classNode
  rw [hinner.fuel]
  infer_instance

/-! ### Compound literals -/

instance handsBack_spreadable : HandsBack head (spreadable inner) (Grammar.spreadable inner') := by
  unfold spreadable Grammar.spreadable
  infer_instance

instance handsBack_argument : HandsBack head (argument inner) (Grammar.argument inner') := by
  unfold argument Grammar.argument
  infer_instance

instance handsBack_arguments : HandsBack head (arguments inner) (Grammar.arguments inner') := by
  unfold arguments Grammar.arguments
  rw [hinner.fuel]
  infer_instance

instance handsBack_arrayElement :
    HandsBack head (arrayElement inner) (Grammar.arrayElement inner') := by
  unfold arrayElement Grammar.arrayElement
  infer_instance

instance handsBack_arrayLiteral :
    HandsBack head (arrayLiteral inner) (Grammar.arrayLiteral inner') := by
  unfold arrayLiteral Grammar.arrayLiteral
  rw [hinner.fuel]
  infer_instance

instance handsBack_keyedMember (isAsync isGenerator : Bool) (kind : MethodKind) :
    HandsBack head (keyedMember inner isAsync isGenerator kind)
      (Grammar.keyedMember inner' isAsync isGenerator kind) := by
  unfold keyedMember Grammar.keyedMember
  refine .bind (k := fun shorthand => ?_)
  cases shorthand <;> infer_instance

instance handsBack_objectMember :
    HandsBack head (objectMember inner) (Grammar.objectMember inner') := by
  unfold objectMember Grammar.objectMember
  infer_instance

instance handsBack_objectLiteral :
    HandsBack head (objectLiteral inner) (Grammar.objectLiteral inner') := by
  unfold objectLiteral Grammar.objectLiteral
  rw [hinner.fuel]
  dsimp only
  infer_instance

instance handsBack_substitutions (fuel : Nat) :
    HandsBack head (substitutions inner fuel) (Grammar.substitutions inner' fuel) := by
  induction fuel with
  | zero => exact .lift _
  | succ fuel ih =>
    refine .bind (k := fun _ => .bind (k := fun value => .bind (k := fun atBrace => ?_)))
    split
    · refine .bind (k := fun token => ?_)
      cases token with
      | template part cooked raw =>
        cases part with
        | middle =>
          refine .bind (k := fun _ => .bind (k := fun found => ?_))
          cases found
          infer_instance
        | _ => infer_instance
      | _ => infer_instance
    · infer_instance

instance handsBack_template : HandsBack head (template inner) (Grammar.template inner') := by
  unfold template Grammar.template
  rw [hinner.fuel]
  refine .bind (k := fun token => ?_)
  cases token with
  | template part cooked raw =>
    cases part with
    | head =>
      refine .bind (k := fun found => ?_)
      cases found
      infer_instance
    | _ => infer_instance
  | _ => infer_instance

/-! ### Operands -/

instance handsBack_arrow (params : List Pattern) (isAsync : Bool) :
    HandsBack head (arrow inner params isAsync) (Grammar.arrow inner' params isAsync) := by
  have hbody : HandsBack head (arrowBody inner)
      (do
        if ← atMark .leftBrace then FunctionBody.block <$> Grammar.bodyBlock inner'
        else FunctionBody.expression <$> inner'.assignment) := by
    unfold arrowBody
    infer_instance
  unfold arrow Grammar.arrow
  refine .bind (k := fun _ => .scope head (·.entered isAsync false true) Flags.left
    (·.inBody isAsync false)
    (fun body => .arrow
      { name := none, params, body, isArrow := true, isAsync, isGenerator := false })
    (h := hbody) (fun _ _ => rfl) (congrArg (within _) ?_) (fun _ hf => hf) (fun _ => rfl)
    fun _ _ => rfl)
  rw [map_bind]
  refine bind_congr fun isBlock => ?_
  cases isBlock <;> simp

instance handsBack_grouped : HandsBack head (grouped inner) (Grammar.grouped inner') := by
  unfold grouped Grammar.grouped
  infer_instance

instance handsBack_group : HandsBack head (group inner) (Grammar.group inner') := by
  unfold group Grammar.group
  rw [hinner.fuel]
  refine .bind (k := fun _ => .bind (k := fun parts => .bind (k := fun isArrow => ?_)))
  split
  · cases parts.mapM Grammar.Grouped.toPattern? <;> infer_instance
  · obtain _ | _ | ⟨e, _ | ⟨e', es⟩⟩ := Grammar.groupValues? parts <;> infer_instance

instance handsBack_asyncOperand :
    HandsBack head (asyncOperand inner) (Grammar.asyncOperand inner') := by
  unfold asyncOperand Grammar.asyncOperand
  refine .bind (k := fun found => ?_)
  obtain ⟨next, lineEnd⟩ := found
  refine .bind (k := fun _ => ?_)
  split
  · infer_instance
  cases next with
  | punctuator mark => cases mark <;> infer_instance
  | keyword word => cases word <;> infer_instance
  | _ => infer_instance

instance handsBack_plainTemplate :
    HandsBack head (plainTemplate inner) (Grammar.plainTemplate inner') := by
  unfold plainTemplate Grammar.plainTemplate
  refine .bind (k := fun found => ?_)
  cases found
  infer_instance

instance handsBack_named : HandsBack head (named inner) (Grammar.named inner') := by
  unfold named Grammar.named
  infer_instance

instance handsBack_primary : HandsBack head (primary inner) (Grammar.primary inner') := by
  unfold primary Grammar.primary
  refine .bind (k := fun token => ?_)
  cases token with
  | punctuator mark => cases mark <;> infer_instance
  | keyword word => cases word <;> infer_instance
  | template part => cases part <;> infer_instance
  | _ => infer_instance

instance handsBack_computedKey :
    HandsBack head (computedKey inner) (Grammar.computedKey inner') := by
  unfold computedKey Grammar.computedKey
  infer_instance

instance handsBack_members (fuel : Nat) (e : Expression) :
    HandsBack head (members inner fuel e) (Grammar.members inner' fuel e) := by
  induction fuel generalizing e with
  | zero => exact .lift _
  | succ fuel ih =>
    unfold members Grammar.members
    infer_instance

instance handsBack_linkTail (fuel : Nat) (e : Expression) :
    HandsBack head (linkTail inner fuel e) (Grammar.linkTail inner' fuel e) := by
  induction fuel generalizing e with
  | zero => exact .lift _
  | succ fuel ih =>
    unfold linkTail Grammar.linkTail
    infer_instance

instance handsBack_optionalLink :
    HandsBack head (optionalLink inner) (Grammar.optionalLink inner') := by
  unfold optionalLink Grammar.optionalLink
  rw [hinner.fuel]
  infer_instance

instance handsBack_operandTail (fuel : Nat) (e : Expression) :
    HandsBack head (operandTail inner fuel e) (Grammar.operandTail inner' fuel e) := by
  induction fuel generalizing e with
  | zero => exact .lift _
  | succ fuel ih =>
    have htagged : HandsBack head
        (do
          let (texts, values) ← template inner
          operandTail inner fuel (.taggedTemplate e texts values))
        (do
          let (texts, values) ← Grammar.template inner'
          Grammar.operandTail inner' fuel (.taggedTemplate e texts values)) := by
      refine .bind (k := fun found => ?_)
      cases found
      infer_instance
    unfold operandTail Grammar.operandTail
    infer_instance

instance handsBack_construction :
    HandsBack head (construction inner) (Grammar.construction inner') := by
  unfold construction Grammar.construction
  rw [hinner.fuel]
  infer_instance

instance handsBack_operand : HandsBack head (operand inner) (Grammar.operand inner') := by
  unfold operand Grammar.operand
  rw [hinner.fuel]
  infer_instance

/-! ### Operators -/

instance handsBack_stepped : HandsBack head (stepped inner) (Grammar.stepped inner') := by
  unfold stepped Grammar.stepped
  refine .bind (k := fun e => .bind (k := fun lineEnd => ?_))
  split
  · infer_instance
  refine .bind (k := fun token => ?_)
  cases Grammar.updateOperator? token <;> infer_instance

instance handsBack_unary : HandsBack head (unary inner) (Grammar.unary inner') := by
  unfold unary Grammar.unary
  refine .bind (k := fun token => ?_)
  cases Grammar.unaryOperator? token with
  | some op => infer_instance
  | none => cases Grammar.updateOperator? token <;> infer_instance

instance handsBack_power : HandsBack head (power inner) (Grammar.power inner') := by
  unfold power Grammar.power
  infer_instance

instance handsBack_binaryTail (level fuel : Nat) (left : Expression) :
    HandsBack head (binaryTail inner level fuel left)
      (Grammar.binaryTail inner' level fuel left) := by
  induction fuel generalizing left with
  | zero => exact .lift _
  | succ fuel ih =>
    unfold binaryTail Grammar.binaryTail
    refine .bind (k := fun c => .bind (k := fun token => ?_))
    cases Grammar.binaryOperator? c.noIn token <;> infer_instance

instance handsBack_binary (level : Nat) :
    HandsBack head (binary inner level) (Grammar.binary inner' level) := by
  unfold binary Grammar.binary
  rw [hinner.fuel]
  infer_instance

instance handsBack_logicalTail (mark : Punctuator) (op : LogicalOperator) (fuel : Nat)
    (left : Expression) {next : Flagged Expression} {next' : Parse Expression}
    [HandsBack head next next'] :
    HandsBack head (logicalTail mark op next fuel left)
      (Grammar.logicalTail mark op next' fuel left) := by
  induction fuel generalizing left with
  | zero => exact .lift _
  | succ fuel ih =>
    unfold logicalTail Grammar.logicalTail
    infer_instance

instance handsBack_conjunction :
    HandsBack head (conjunction inner) (Grammar.conjunction inner') := by
  unfold conjunction Grammar.conjunction
  rw [hinner.fuel]
  infer_instance

instance handsBack_disjunction :
    HandsBack head (disjunction inner) (Grammar.disjunction inner') := by
  unfold disjunction Grammar.disjunction
  rw [hinner.fuel]
  infer_instance

instance handsBack_coalescence :
    HandsBack head (coalescence inner) (Grammar.coalescence inner') := by
  unfold coalescence Grammar.coalescence
  rw [hinner.fuel]
  infer_instance

instance handsBack_conditional :
    HandsBack head (conditional inner) (Grammar.conditional inner') := by
  unfold conditional Grammar.conditional
  infer_instance

instance handsBack_yielded : HandsBack head (yielded inner) (Grammar.yielded inner') := by
  unfold yielded Grammar.yielded
  infer_instance

instance handsBack_assignment : HandsBack head (assignment inner) (Grammar.assignment inner') := by
  unfold assignment Grammar.assignment
  refine .bind (k := fun c => .bind (k := fun isYield => ?_))
  split
  · infer_instance
  refine .bind (k := fun target => .bind (k := fun token => ?_))
  cases Grammar.assignmentOperator? token <;> infer_instance

instance handsBack_sequenceTail (fuel : Nat) :
    HandsBack head (sequenceTail inner fuel) (Grammar.sequenceTail inner' fuel) := by
  induction fuel with
  | zero => exact .lift _
  | succ fuel ih =>
    unfold sequenceTail Grammar.sequenceTail
    infer_instance

instance handsBack_expression : HandsBack head (expression inner) (Grammar.expression inner') := by
  unfold expression Grammar.expression
  rw [hinner.fuel]
  refine .bind (k := fun first => .bind (k := fun others => ?_))
  cases others <;> infer_instance

/-! ### Declarations and loops -/

instance handsBack_declarator (kind : DeclarationKind) :
    HandsBack head (declarator inner kind) (Grammar.declarator inner' kind) := by
  unfold declarator Grammar.declarator
  refine .bind (k := fun target => ?_)
  by_cases hlet : target = .identifier "let"
  · subst hlet
    simp only
    infer_instance
  · simp only
    infer_instance

instance handsBack_declarators (kind : DeclarationKind) (fuel : Nat) :
    HandsBack head (declarators inner kind fuel) (Grammar.declarators inner' kind fuel) := by
  induction fuel with
  | zero => exact .lift _
  | succ fuel ih =>
    unfold declarators Grammar.declarators
    infer_instance

instance handsBack_declaration (kind : DeclarationKind) :
    HandsBack head (declaration inner kind) (Grammar.declaration inner' kind) := by
  unfold declaration Grammar.declaration
  rw [hinner.fuel]
  infer_instance

instance handsBack_bracketed : HandsBack head (bracketed inner) (Grammar.bracketed inner') := by
  unfold bracketed Grammar.bracketed
  infer_instance

instance handsBack_loopBody : HandsBack false (loopBody inner) (Grammar.loopBody inner') := by
  refine .scope false (fun f => { f with loops := f.loops + 1 })
    (fun _ f => { f with loops := f.loops - 1 }) (fun c => { c with inLoop := true }) id
    (q := inner.statement) (p := inner'.statement) (fun _ _ => rfl) ?_ (fun _ hf => hf)
    (fun f => ?_) fun _ _ => rfl
  · rw [id_map, Grammar.loopBody]
  · simp [Flags.context]

instance handsBack_ifStatement :
    HandsBack false (ifStatement inner) (Grammar.ifStatement inner') := by
  unfold ifStatement Grammar.ifStatement
  infer_instance

instance handsBack_whileStatement :
    HandsBack false (whileStatement inner) (Grammar.whileStatement inner') := by
  unfold whileStatement Grammar.whileStatement
  infer_instance

instance handsBack_doStatement :
    HandsBack false (doStatement inner) (Grammar.doStatement inner') := by
  unfold doStatement Grammar.doStatement
  infer_instance

instance handsBack_forEach (target : ForHead) :
    HandsBack false (forEach inner target) (Grammar.forEach inner' target) := by
  unfold forEach Grammar.forEach
  infer_instance

instance handsBack_forParts (init : Option ForInit) :
    HandsBack false (forParts inner init) (Grammar.forParts inner' init) := by
  unfold forParts Grammar.forParts
  refine .bind (k := fun _ => .bind (k := fun atEnd => ?_))
  split <;> infer_instance

instance handsBack_forDeclaration (kind : DeclarationKind) :
    HandsBack false (forDeclaration inner kind) (Grammar.forDeclaration inner' kind) := by
  unfold forDeclaration Grammar.forDeclaration
  rw [hinner.fuel]
  refine .bind (k := fun _ => .forHead (k := fun declared => ?_))
  -- One declaration without a value may be the target of a loop, and no others are.
  obtain _ | ⟨⟨target, _ | value⟩, _ | ⟨next, others⟩⟩ := declared <;> infer_instance

instance handsBack_forExpression :
    HandsBack false (forExpression inner) (Grammar.forExpression inner') := by
  unfold forExpression Grammar.forExpression
  exact .forHead

instance handsBack_forStatement :
    HandsBack false (forStatement inner) (Grammar.forStatement inner') := by
  unfold forStatement Grammar.forStatement
  refine .bind (k := fun _ => .bind (k := fun isAwait => ?_))
  split
  · infer_instance
  refine .bind (k := fun _ => .bind (k := fun token => ?_))
  split
  · infer_instance
  cases Grammar.declarationKind? token <;> infer_instance

/-! ### Jumps -/

instance handsBack_returnStatement :
    HandsBack head (returnStatement inner) (Grammar.returnStatement inner') := by
  unfold returnStatement Grammar.returnStatement
  infer_instance

instance handsBack_throwStatement :
    HandsBack head (throwStatement inner) (Grammar.throwStatement inner') := by
  unfold throwStatement Grammar.throwStatement
  infer_instance

/-! ### Compound statements -/

instance handsBack_handler : HandsBack false (handler inner) (Grammar.handler inner') := by
  unfold handler Grammar.handler
  infer_instance

instance handsBack_tryStatement :
    HandsBack false (tryStatement inner) (Grammar.tryStatement inner') := by
  unfold tryStatement Grammar.tryStatement
  infer_instance

instance handsBack_caseBody : HandsBack false (caseBody inner) (Grammar.caseBody inner') := by
  unfold caseBody Grammar.caseBody
  rw [hinner.fuel]
  infer_instance

instance handsBack_switchCases (hasDefault : Bool) (fuel : Nat) :
    HandsBack false (switchCases inner hasDefault fuel)
      (Grammar.switchCases inner' hasDefault fuel) := by
  induction fuel generalizing hasDefault with
  | zero => exact .lift _
  | succ fuel ih =>
    unfold switchCases Grammar.switchCases
    refine .bind (k := fun token => ?_)
    cases token with
    | punctuator mark => cases mark <;> infer_instance
    | keyword word => cases word <;> infer_instance
    | _ => infer_instance

instance handsBack_switchStatement :
    HandsBack false (switchStatement inner) (Grammar.switchStatement inner') := by
  unfold switchStatement Grammar.switchStatement
  rw [hinner.fuel]
  refine .bind (k := fun _ => .bind (k := fun discriminant => .bind (k := fun _ =>
    .scope false (fun f => { f with switches := f.switches + 1 })
      (fun _ f => { f with switches := f.switches - 1 }) (fun c => { c with inSwitch := true })
      (.switch discriminant) (q := switchCases inner false inner.fuel)
      (p := Grammar.switchCases inner' false inner.fuel) (fun _ _ => rfl) (congrArg (within _) ?_)
      (fun _ hf => hf) (fun f => ?_) fun _ _ => rfl)))
  · rw [map_eq_pure_bind]
  · simp [Flags.context]

instance handsBack_withStatement :
    HandsBack false (withStatement inner) (Grammar.withStatement inner') := by
  unfold withStatement Grammar.withStatement
  infer_instance

instance handsBack_labeledStatement :
    HandsBack false (labeledStatement inner) (Grammar.labeledStatement inner') := by
  have hbody (label : String) (token : Token) : HandsBack false
      (do
        modify fun f => { f with labels := (label, Grammar.beginsLoop token) :: f.labels }
        let body ←
          (if token.isWord .functionWord then functionDeclaration inner false else inner.statement)
        modify fun f => { f with labels := f.labels.tail }
        return Statement.labeled label body)
      (within (fun c => { c with labels := (label, Grammar.beginsLoop token) :: c.labels }) do
        if token.isWord .functionWord then
          return Statement.labeled label (← Grammar.functionDeclaration inner' false)
        else return Statement.labeled label (← inner'.statement)) := by
    refine .scope false
      (fun f => { f with labels := (label, Grammar.beginsLoop token) :: f.labels })
      (fun _ f => { f with labels := f.labels.tail })
      (fun c => { c with labels := (label, Grammar.beginsLoop token) :: c.labels }) (.labeled label)
      (q := if token.isWord .functionWord then functionDeclaration inner false else inner.statement)
      (p := if token.isWord .functionWord then Grammar.functionDeclaration inner' false
        else inner'.statement)
      (fun _ _ => rfl) (congrArg (within _) ?_) (fun _ hf => hf) (fun _ => rfl) fun _ _ => rfl
    split <;> exact (map_eq_pure_bind ..).symm
  unfold labeledStatement Grammar.labeledStatement
  infer_instance

instance handsBack_expressionStatement :
    HandsBack false (expressionStatement inner) (Grammar.expressionStatement inner') := by
  unfold expressionStatement Grammar.expressionStatement
  infer_instance

instance handsBack_statement : HandsBack false (statement inner) (Grammar.statement inner') := by
  unfold statement Grammar.statement
  refine .bind (k := fun token => ?_)
  cases token with
  | punctuator mark => cases mark <;> infer_instance
  | keyword word => cases word <;> infer_instance
  | _ => infer_instance

instance handsBack_item : HandsBack false (item inner) (Grammar.item inner') := by
  unfold item Grammar.item
  refine .bind (k := fun token => ?_)
  cases token with
  | keyword word => cases word <;> infer_instance
  | _ => infer_instance

instance handsBack_program : HandsBack false (program inner) (Grammar.program inner') := by
  unfold program Grammar.program
  rw [hinner.fuel]
  infer_instance

end Parser

/-! ## Phrases of any depth -/

namespace Methods

/-- The methods for all phrases, but where a statement begins in the head of a loop, something else
is done. -/
def ofDepthUnlessHead (other : Flagged Statement) : Nat → Methods
  | 0 => .none
  | depth + 1 =>
    let inner := ofDepthUnlessHead other depth
    { fuel := depth + 1
      item := unlessHead other (Parser.item inner)
      statement := unlessHead other (Parser.statement inner)
      expression := Parser.expression inner
      assignment := Parser.assignment inner
      binary := Parser.binary inner
      power := Parser.power inner
      unary := Parser.unary inner
      operand := Parser.operand inner
      construction := Parser.construction inner
      pattern := Parser.pattern inner }

theorem handsBack_none : HandsBack none .none where
  fuel := rfl
  item := .lift _
  statement := .lift _
  expression := .lift _
  assignment := .lift _
  binary _ := .lift _
  power := .lift _
  unary := .lift _
  operand := .lift _
  construction := .lift _
  pattern := .lift _

/-- The methods hand the flags back, however deep the phrases lie in each other. -/
instance handsBack_ofDepth (depth : Nat) : HandsBack (ofDepth depth) (.ofDepth depth) := by
  induction depth with
  | zero => exact handsBack_none
  | succ depth ih =>
    exact
      { fuel := rfl
        item := Parser.handsBack_item
        statement := Parser.handsBack_statement
        expression := Parser.handsBack_expression
        assignment := Parser.handsBack_assignment
        binary := Parser.handsBack_binary
        power := Parser.handsBack_power
        unary := Parser.handsBack_unary
        operand := Parser.handsBack_operand
        construction := Parser.handsBack_construction
        pattern := Parser.handsBack_pattern }

/-- They do so too when no statement may begin in the head of a loop. -/
instance handsBack_ofDepthUnlessHead (other : Flagged Statement) (depth : Nat) :
    HandsBack (ofDepthUnlessHead other depth) (.ofDepth depth) := by
  induction depth with
  | zero => exact handsBack_none
  | succ depth ih =>
    exact
      { fuel := rfl
        item := .unlessHead other Parser.handsBack_item
        statement := .unlessHead other Parser.handsBack_statement
        expression := Parser.handsBack_expression
        assignment := Parser.handsBack_assignment
        binary := Parser.handsBack_binary
        power := Parser.handsBack_power
        unary := Parser.handsBack_unary
        operand := Parser.handsBack_operand
        construction := Parser.handsBack_construction
        pattern := Parser.handsBack_pattern }

end Methods

/-- The program of a text is what the grammar reads. -/
theorem Program.ofText_eq (options : ParseOptions) (source : String) :
    Program.ofText options source =
      match Grammar.program (Phrases.ofDepth ((Cursor.ofText source).rest.length + 2)) { options }
        ⟨.endOfInput, false, Cursor.ofText source⟩ with
      | .ok (program, _) => .ok program
      | .error e => .error e := by
  have hcontext : Flags.context { options } = { options } := rfl
  -- A text begins outside of any head.
  have hprogram (depth : Nat) (r : Reading) :
      Parser.program (.ofDepth depth) { options } r =
        Flagged.read (Grammar.program (.ofDepth depth)) { options } r :=
    Parser.handsBack_program.eq_read _ _ fun h => absurd h Bool.false_ne_true
  unfold Program.ofText
  dsimp only
  rw [hprogram, Flagged.read, hcontext]
  cases Grammar.program (.ofDepth ((Cursor.ofText source).rest.length + 2)) { options }
    ⟨.endOfInput, false, Cursor.ofText source⟩ with
  | error e => rfl
  | ok found => rfl

end EcmaEval
