import EcmaEval.Proofs.Flags.Readers
import EcmaEval.Proofs.Syntax.Steps

/-!
# The heads of loops and all methods

The word `in` is no operator in the first part of the head of a `for`, where it may stand behind the
target of the loop.  What brackets, braces and the bodies of functions enclose is read the same
there as anywhere else.  Behind it the flag is handed back, so that the word ends what it stands
behind.

Each method of the parser, be it for a token, an expression or a statement, leaves all flags as it
found them where it succeeds, so that none of them is left for the phrases behind.

## Main definitions

* `Parse.SameInHead`: a reader for which it does not matter whether `in` is an operator
* `Parser.Enclosed`: the methods for what is enclosed
* `Parser.Method`: the methods of the parser, and whether they may stand in the head of a loop

## Main results

* `Parser.Enclosed.eq_map`: what is enclosed is read the same in a head
* `Parser.binaryTail_in`: the word `in` behind an operand
* `Parser.flags_handed_back`: every method hands back the flags as they were, no statement begins
  in the head of a loop, and only there `in` is no operator
-/

namespace EcmaEval

open Parse

set_option synthInstance.maxSize 1000

/-! ## Readers that are the same in a head -/

namespace Parse

variable {α β : Type} {p q : Parse α}

/-- It does not matter for the reader whether `in` is an operator. -/
class SameInHead (p : Parse α) : Prop where
  eq : ∀ (c : Context) (b : Bool) (r : Reading), p { c with noIn := b } r = p c r

namespace SameInHead

/-- What does not look at what surrounds it. -/
theorem of_any (h : ∀ c c', p c = p c') : SameInHead p := ⟨fun _ _ r => congrFun (h _ _) r⟩

instance fail (cause : SyntaxCause) : SameInHead (fail cause : Parse α) := of_any fun _ _ => rfl

instance unexpected : SameInHead (unexpected : Parse α) := of_any fun _ _ => rfl

instance (priority := high) fail_bind (cause : SyntaxCause) {k : α → Parse β} :
    SameInHead (Parse.fail cause >>= k) := of_any fun _ _ => rfl

instance (priority := high) unexpected_bind {k : α → Parse β} :
    SameInHead (Parse.unexpected >>= k) := of_any fun _ _ => rfl

instance current : SameInHead current := of_any fun _ _ => rfl

instance afterLineEnd : SameInHead afterLineEnd := of_any fun _ _ => rfl

instance special (read : Cursor → Scan.Result Token) : SameInHead (special read) :=
  of_any fun _ _ => rfl

instance peek : SameInHead peek := of_any fun _ _ => rfl

instance advance : SameInHead advance := of_any fun _ _ => rfl

instance replaceCurrent (token : Token) : SameInHead (replaceCurrent token) := of_any fun _ _ => rfl

instance atMark (mark : Punctuator) : SameInHead (atMark mark) := of_any fun _ _ => rfl

instance atWord (word : Keyword) : SameInHead (atWord word) := of_any fun _ _ => rfl

instance name? : SameInHead name? := ⟨fun _ _ _ => rfl⟩

instance pure (x : α) : SameInHead (pure x : Parse α) := of_any fun _ _ => rfl

instance bind {f : α → Parse β} [hp : SameInHead p] [k : ∀ x, SameInHead (f x)] :
    SameInHead (p >>= f) where
  eq c b r := by
    change (p _ r >>= fun y => f y.1 _ y.2) = (p c r >>= fun y => f y.1 c y.2)
    rw [hp.eq]
    exact bind_congr fun y => (k y.1).eq c b y.2

instance map (g : α → β) [hp : SameInHead p] : SameInHead (g <$> p) := by
  rw [map_eq_pure_bind]
  infer_instance

instance ite {b : Prop} [Decidable b] [SameInHead p] [SameInHead q] :
    SameInHead (if b then p else q) := by
  split <;> assumption

/-- Between brackets `in` is an operator in any case. -/
instance withIn : SameInHead (withIn p) := ⟨fun _ _ _ => rfl⟩

instance inOwnBody {isAsync isGenerator superProperty superCall : Bool} [hp : SameInHead p] :
    SameInHead (within (·.inOwnBody isAsync isGenerator superProperty superCall) p) where
  eq c b r := hp.eq (c.inOwnBody isAsync isGenerator superProperty superCall) b r

instance expect (mark : Punctuator) : SameInHead (expect mark) := by
  unfold Parse.expect
  infer_instance

instance expectWord (word : Keyword) : SameInHead (expectWord word) := by
  unfold Parse.expectWord
  infer_instance

instance skipMark (mark : Punctuator) : SameInHead (skipMark mark) := by
  unfold Parse.skipMark
  infer_instance

instance expectName : SameInHead expectName := by
  unfold Parse.expectName
  refine .bind (k := fun name => ?_)
  cases name <;> infer_instance

instance skipName : SameInHead skipName := by
  unfold Parse.skipName
  refine .bind (k := fun name => ?_)
  cases name <;> infer_instance

instance endStatement : SameInHead endStatement := by
  unfold Parse.endStatement
  infer_instance

instance separator (close : Punctuator) : SameInHead (separator close) := by
  unfold Parse.separator
  infer_instance

instance untilToken (closes : Token → Bool) (fuel : Nat) [SameInHead p] :
    SameInHead (untilToken closes p fuel) := by
  induction fuel with
  | zero => exact .fail _
  | succ fuel ih =>
    refine .bind (k := fun token => ?_)
    infer_instance

instance untilMark (close : Punctuator) (fuel : Nat) [SameInHead p] :
    SameInHead (untilMark close p fuel) := by
  unfold Parse.untilMark
  infer_instance

end SameInHead

end Parse

/-- The patterns inside of others are the same in a head. -/
class Phrases.SameInHead (inner : Phrases) : Prop where
  pattern : Parse.SameInHead inner.pattern

attribute [instance] Phrases.SameInHead.pattern

namespace Grammar

variable {inner : Phrases}

/-! ### Keys and patterns -/

instance sameInHead_propertyKey : SameInHead (propertyKey inner) := by
  unfold propertyKey
  refine .bind (k := fun token => ?_)
  split <;> infer_instance

instance sameInHead_defaulted (target : Pattern) : SameInHead (defaulted inner target) := by
  unfold defaulted
  infer_instance

section Patterns

variable [Phrases.SameInHead inner]

instance sameInHead_patternElement : SameInHead (patternElement inner) := by
  unfold patternElement
  infer_instance

instance sameInHead_patternMember : SameInHead (patternMember inner) := by
  unfold patternMember
  refine .bind (k := fun isRest => ?_)
  split
  · infer_instance
  refine .bind (k := fun shorthand => ?_)
  cases shorthand <;> infer_instance

instance sameInHead_pattern : SameInHead (pattern inner) := by
  unfold pattern
  refine .bind (k := fun name => ?_)
  cases name <;> infer_instance

instance sameInHead_parameter : SameInHead (parameter inner) := by
  unfold parameter
  infer_instance

instance sameInHead_parameters : SameInHead (parameters inner) := by
  unfold parameters
  infer_instance

end Patterns

/-! ### Brackets and templates -/

instance sameInHead_bracketed : SameInHead (bracketed inner) := by
  unfold bracketed
  infer_instance

instance sameInHead_computedKey : SameInHead (computedKey inner) := by
  unfold computedKey
  infer_instance

instance sameInHead_arguments : SameInHead (arguments inner) := by
  unfold arguments
  infer_instance

instance sameInHead_arrayLiteral : SameInHead (arrayLiteral inner) := by
  unfold arrayLiteral
  infer_instance

instance sameInHead_objectLiteral : SameInHead (objectLiteral inner) := by
  unfold objectLiteral
  dsimp only
  infer_instance

instance sameInHead_substitutions (fuel : Nat) : SameInHead (substitutions inner fuel) := by
  induction fuel with
  | zero => exact .fail _
  | succ fuel ih =>
    refine .bind (k := fun _ => .bind (k := fun value => .bind (k := fun atBrace => ?_)))
    split
    · refine .bind (k := fun token => ?_)
      cases token with
      | template part cooked raw =>
        cases part with
        | middle =>
          refine .bind (k := fun _ => .bind (k := fun found => ?_))
          cases found
          infer_instance
        | _ => infer_instance
      | _ => infer_instance
    · infer_instance

instance sameInHead_template : SameInHead (template inner) := by
  unfold template
  refine .bind (k := fun token => ?_)
  split
  · infer_instance
  · refine .bind (k := fun found => ?_)
    cases found
    infer_instance
  · infer_instance

/-! ### Functions and classes -/

instance sameInHead_bodyBlock : SameInHead (bodyBlock inner) := by
  unfold bodyBlock
  infer_instance

instance sameInHead_isModifier : SameInHead isModifier := by
  unfold isModifier
  refine .bind (k := fun found => ?_)
  cases found
  infer_instance

instance sameInHead_skipAccessor : SameInHead skipAccessor := by
  unfold skipAccessor
  refine .bind (k := fun token => ?_)
  cases accessorWord? token <;> infer_instance

instance sameInHead_skipAsync : SameInHead skipAsync := by
  unfold skipAsync
  refine .bind (k := fun isAsync => ?_)
  split
  · refine .bind (k := fun isWord => ?_)
    split
    · refine .bind (k := fun found => ?_)
      cases found
      infer_instance
    · infer_instance
  · infer_instance

instance sameInHead_fieldValue : SameInHead (fieldValue inner) :=
  .inOwnBody

instance sameInHead_staticBlock : SameInHead (staticBlock inner) :=
  .inOwnBody

instance sameInHead_classField (isStatic : Bool) (key : PropertyKey) :
    SameInHead (classField inner isStatic key) := by
  unfold classField
  infer_instance

section Functions

variable [Phrases.SameInHead inner]

instance sameInHead_functionRest (name : Option String)
    (isAsync isGenerator superProperty superCall : Bool) :
    SameInHead (functionRest inner name isAsync isGenerator superProperty superCall) := by
  unfold functionRest
  infer_instance

instance sameInHead_functionDeclaration (isAsync : Bool) :
    SameInHead (functionDeclaration inner isAsync) := by
  unfold functionDeclaration
  infer_instance

instance sameInHead_functionExpression (isAsync : Bool) :
    SameInHead (functionExpression inner isAsync) := by
  unfold functionExpression
  infer_instance

instance sameInHead_method (isAsync isGenerator superCall : Bool) :
    SameInHead (method inner isAsync isGenerator superCall) := by
  unfold method
  infer_instance

instance sameInHead_classMethod (derived isStatic isAsync isGenerator : Bool) (kind : MethodKind)
    (key : PropertyKey) :
    SameInHead (classMethod inner derived isStatic isAsync isGenerator kind key) := by
  unfold classMethod
  infer_instance

instance sameInHead_classMember (derived isStatic : Bool) :
    SameInHead (classMember inner derived isStatic) := by
  unfold classMember
  infer_instance

instance sameInHead_classElement (derived : Bool) : SameInHead (classElement inner derived) := by
  unfold classElement
  infer_instance

instance sameInHead_classElements (derived hasConstructor : Bool) (fuel : Nat) :
    SameInHead (classElements inner derived hasConstructor fuel) := by
  induction fuel generalizing hasConstructor with
  | zero => exact .fail _
  | succ fuel ih =>
    unfold classElements
    infer_instance

end Functions

end Grammar

/-- The patterns in phrases of any depth are the same in a head. -/
instance Phrases.sameInHead_ofDepth (depth : Nat) : SameInHead (ofDepth depth) := by
  induction depth with
  | zero => exact ⟨.fail _⟩
  | succ depth ih => exact ⟨Grammar.sameInHead_pattern⟩

namespace Parser

open Flagged

variable {α : Type}

/-! ## What is enclosed -/

/-- The methods for what stands in brackets, in braces or in the bodies of functions, those brackets
included, and for what patterns and the members of classes consist of, each with the reader of the
grammar. -/
inductive Enclosed : {α : Type} → (Methods → Flagged α) → (Phrases → Parse α) → Prop where
  | propertyKey : Enclosed propertyKey Grammar.propertyKey
  | pattern : Enclosed pattern Grammar.pattern
  | patternElement : Enclosed patternElement Grammar.patternElement
  | patternMember : Enclosed patternMember Grammar.patternMember
  | parameters : Enclosed parameters Grammar.parameters
  | parameter : Enclosed parameter Grammar.parameter
  | bracketed : Enclosed bracketed Grammar.bracketed
  | grouped :
    Enclosed (fun inner => allowIn (Flagged.untilMark .rightParen (grouped inner) inner.fuel))
      fun inner => withIn (untilMark .rightParen (Grammar.grouped inner) inner.fuel)
  | computedKey : Enclosed computedKey Grammar.computedKey
  | arguments : Enclosed arguments Grammar.arguments
  | arrayLiteral : Enclosed arrayLiteral Grammar.arrayLiteral
  | objectLiteral : Enclosed objectLiteral Grammar.objectLiteral
  | template : Enclosed template Grammar.template
  | bodyBlock : Enclosed bodyBlock Grammar.bodyBlock
  | functionDeclaration (isAsync : Bool) :
    Enclosed (functionDeclaration · isAsync) (Grammar.functionDeclaration · isAsync)
  | functionExpression (isAsync : Bool) :
    Enclosed (functionExpression · isAsync) (Grammar.functionExpression · isAsync)
  | method (isAsync isGenerator superCall : Bool) :
    Enclosed (method · isAsync isGenerator superCall)
      (Grammar.method · isAsync isGenerator superCall)
  | fieldValue : Enclosed fieldValue Grammar.fieldValue
  | staticBlock : Enclosed staticBlock Grammar.staticBlock
  | classElements (derived hasConstructor : Bool) (fuel : Nat) :
    Enclosed (classElements · derived hasConstructor fuel)
      (Grammar.classElements · derived hasConstructor fuel)

namespace Enclosed

variable {α : Type} {method : Methods → Flagged α} {reader : Phrases → Parse α}

theorem handsBack (h : Enclosed method reader) {head : Bool} {inner : Methods} {inner' : Phrases}
    [hinner : inner.HandsBack inner'] : HandsBack head (method inner) (reader inner') := by
  cases h with
  | grouped =>
    dsimp only
    rw [hinner.fuel]
    infer_instance
  | _ => infer_instance

theorem sameInHead (h : Enclosed method reader) {inner : Phrases} [inner.SameInHead] :
    SameInHead (reader inner) := by
  cases h <;> infer_instance

/-- What is enclosed is read the same in the head of a loop as anywhere else. -/
theorem eq_map (h : Enclosed method reader) (depth : Nat) (f : Flags) (b : Bool) (r : Reading) :
    method (.ofDepth depth) { f with noIn := b } r =
      (method (.ofDepth depth) f r).map fun y => ((y.1.1, { y.1.2 with noIn := b }), y.2) := by
  -- The method does what the reader does, and for that the flag is of no account.
  have hback : HandsBack true (method (.ofDepth depth)) (reader (.ofDepth depth)) := h.handsBack
  have hsame : reader (.ofDepth depth) { f.context with noIn := b } r =
      reader (.ofDepth depth) f.context r :=
    h.sameInHead.eq f.context b r
  have hcontext : Flags.context { f with noIn := b } = { f.context with noIn := b } := rfl
  rw [hback.eq_read _ r fun _ => rfl, hback.eq_read _ r fun _ => rfl,
    Flagged.read, Flagged.read, hcontext, hsame]
  cases reader (.ofDepth depth) f.context r with
  | error e => rfl
  | ok found => rfl

end Enclosed

/-- Behind an operand the word `in` is an operator that binds as tightly as a comparison, or it ends
the operands, as it does in a head. -/
theorem binaryTail_in {inner : Methods} {level fuel : Nat} {left : Expression} {f : Flags}
    {r : Reading} (hr : r.current = .keyword .inWord) :
    binaryTail inner level (fuel + 1) left f r =
      if f.noIn = true ∨ 5 ≤ level then .ok ((left, f), r)
      else (do
        advance
        let right ← inner.binary 5
        binaryTail inner level fuel (.binary .hasKey left right) : Flagged Expression) f r := by
  obtain ⟨options, inFunction, inAsync, inGenerator, loops, switches, labels, superProperty,
    superCall, noIn⟩ := f
  obtain ⟨token, line, cursor⟩ := r
  cases hr
  cases noIn with
  | true => rfl
  | false =>
    change (if 5 ≤ level then pure left
      else do
        advance
        let right ← inner.binary 5
        binaryTail inner level fuel (.binary .hasKey left right) : Flagged Expression) _ _ = _
    by_cases hlevel : 5 ≤ level
    · rw [if_pos hlevel, if_pos (.inr hlevel)]
      rfl
    · rw [if_neg hlevel, if_neg (by simp [hlevel])]

/-! ## All methods of the parser -/

/-- The methods of the parser, each with the reader of the grammar.  `head` is any for those that
may stand in the head of a loop, and `false` for those for statements. -/
inductive Method :
    (head : Bool) → {α : Type} → (Methods → Flagged α) → (Phrases → Parse α) → Prop where
  -- Methods that look at flags and write none, and call no others for the phrases inside.
  | reader {head : Bool} {α : Type} (p : Parse α) : Method head (fun _ => liftM p) fun _ => p
  -- Keys, patterns, functions and classes.
  | propertyKey {head : Bool} : Method head propertyKey Grammar.propertyKey
  | defaulted {head : Bool} (target : Pattern) :
    Method head (defaulted · target) (Grammar.defaulted · target)
  | patternElement {head : Bool} : Method head patternElement Grammar.patternElement
  | patternMember {head : Bool} : Method head patternMember Grammar.patternMember
  | pattern {head : Bool} : Method head pattern Grammar.pattern
  | parameter {head : Bool} : Method head parameter Grammar.parameter
  | parameters {head : Bool} : Method head parameters Grammar.parameters
  | bodyBlock {head : Bool} : Method head bodyBlock Grammar.bodyBlock
  | functionRest {head : Bool} (name : Option String)
    (isAsync isGenerator superProperty superCall : Bool) :
    Method head (functionRest · name isAsync isGenerator superProperty superCall)
      (Grammar.functionRest · name isAsync isGenerator superProperty superCall)
  | functionDeclaration {head : Bool} (isAsync : Bool) :
    Method head (functionDeclaration · isAsync) (Grammar.functionDeclaration · isAsync)
  | functionExpression {head : Bool} (isAsync : Bool) :
    Method head (functionExpression · isAsync) (Grammar.functionExpression · isAsync)
  | method {head : Bool} (isAsync isGenerator superCall : Bool) :
    Method head (method · isAsync isGenerator superCall)
      (Grammar.method · isAsync isGenerator superCall)
  | fieldValue {head : Bool} : Method head fieldValue Grammar.fieldValue
  | staticBlock {head : Bool} : Method head staticBlock Grammar.staticBlock
  | classElement {head : Bool} (derived : Bool) :
    Method head (classElement · derived) (Grammar.classElement · derived)
  | classMethod {head : Bool} (derived isStatic isAsync isGenerator : Bool) (kind : MethodKind)
    (key : PropertyKey) :
    Method head (classMethod · derived isStatic isAsync isGenerator kind key)
      (Grammar.classMethod · derived isStatic isAsync isGenerator kind key)
  | classField {head : Bool} (isStatic : Bool) (key : PropertyKey) :
    Method head (classField · isStatic key) (Grammar.classField · isStatic key)
  | classMember {head : Bool} (derived isStatic : Bool) :
    Method head (classMember · derived isStatic) (Grammar.classMember · derived isStatic)
  | classElements {head : Bool} (derived hasConstructor : Bool) (fuel : Nat) :
    Method head (classElements · derived hasConstructor fuel)
      (Grammar.classElements · derived hasConstructor fuel)
  | classNode {head : Bool} (isDeclaration : Bool) :
    Method head (classNode · isDeclaration) (Grammar.classNode · isDeclaration)
  -- Literals and operands.
  | spreadable {head : Bool} : Method head spreadable Grammar.spreadable
  | argument {head : Bool} : Method head argument Grammar.argument
  | arguments {head : Bool} : Method head arguments Grammar.arguments
  | arrayElement {head : Bool} : Method head arrayElement Grammar.arrayElement
  | arrayLiteral {head : Bool} : Method head arrayLiteral Grammar.arrayLiteral
  | keyedMember {head : Bool} (isAsync isGenerator : Bool) (kind : MethodKind) :
    Method head (keyedMember · isAsync isGenerator kind)
      (Grammar.keyedMember · isAsync isGenerator kind)
  | objectMember {head : Bool} : Method head objectMember Grammar.objectMember
  | objectLiteral {head : Bool} : Method head objectLiteral Grammar.objectLiteral
  | substitutions {head : Bool} (fuel : Nat) :
    Method head (substitutions · fuel) (Grammar.substitutions · fuel)
  | template {head : Bool} : Method head template Grammar.template
  | plainTemplate {head : Bool} : Method head plainTemplate Grammar.plainTemplate
  | arrow {head : Bool} (params : List Pattern) (isAsync : Bool) :
    Method head (arrow · params isAsync) (Grammar.arrow · params isAsync)
  | grouped {head : Bool} : Method head grouped Grammar.grouped
  | group {head : Bool} : Method head group Grammar.group
  | asyncOperand {head : Bool} : Method head asyncOperand Grammar.asyncOperand
  | named {head : Bool} : Method head named Grammar.named
  | primary {head : Bool} : Method head primary Grammar.primary
  | computedKey {head : Bool} : Method head computedKey Grammar.computedKey
  | members {head : Bool} (fuel : Nat) (e : Expression) :
    Method head (members · fuel e) (Grammar.members · fuel e)
  | linkTail {head : Bool} (fuel : Nat) (e : Expression) :
    Method head (linkTail · fuel e) (Grammar.linkTail · fuel e)
  | optionalLink {head : Bool} : Method head optionalLink Grammar.optionalLink
  | operandTail {head : Bool} (fuel : Nat) (e : Expression) :
    Method head (operandTail · fuel e) (Grammar.operandTail · fuel e)
  | construction {head : Bool} : Method head construction Grammar.construction
  | operand {head : Bool} : Method head operand Grammar.operand
  -- Operators.
  | stepped {head : Bool} : Method head stepped Grammar.stepped
  | unary {head : Bool} : Method head unary Grammar.unary
  | power {head : Bool} : Method head power Grammar.power
  | binaryTail {head : Bool} (level fuel : Nat) (left : Expression) :
    Method head (binaryTail · level fuel left) (Grammar.binaryTail · level fuel left)
  | binary {head : Bool} (level : Nat) : Method head (binary · level) (Grammar.binary · level)
  | conjunction {head : Bool} : Method head conjunction Grammar.conjunction
  | disjunction {head : Bool} : Method head disjunction Grammar.disjunction
  | coalescence {head : Bool} : Method head coalescence Grammar.coalescence
  | conditional {head : Bool} : Method head conditional Grammar.conditional
  | yielded {head : Bool} : Method head yielded Grammar.yielded
  | assignment {head : Bool} : Method head assignment Grammar.assignment
  | sequenceTail {head : Bool} (fuel : Nat) :
    Method head (sequenceTail · fuel) (Grammar.sequenceTail · fuel)
  | expression {head : Bool} : Method head expression Grammar.expression
  | declarator {head : Bool} (kind : DeclarationKind) :
    Method head (declarator · kind) (Grammar.declarator · kind)
  | declarators {head : Bool} (kind : DeclarationKind) (fuel : Nat) :
    Method head (declarators · kind fuel) (Grammar.declarators · kind fuel)
  | bracketed {head : Bool} : Method head bracketed Grammar.bracketed
  -- Statements.
  | block : Method false block Grammar.block
  | declaration (kind : DeclarationKind) :
    Method false (declaration · kind) (Grammar.declaration · kind)
  | loopBody : Method false loopBody Grammar.loopBody
  | ifStatement : Method false ifStatement Grammar.ifStatement
  | whileStatement : Method false whileStatement Grammar.whileStatement
  | doStatement : Method false doStatement Grammar.doStatement
  | forEach (target : ForHead) : Method false (forEach · target) (Grammar.forEach · target)
  | forParts (init : Option ForInit) : Method false (forParts · init) (Grammar.forParts · init)
  | forDeclaration (kind : DeclarationKind) :
    Method false (forDeclaration · kind) (Grammar.forDeclaration · kind)
  | forExpression : Method false forExpression Grammar.forExpression
  | forStatement : Method false forStatement Grammar.forStatement
  | returnStatement : Method false returnStatement Grammar.returnStatement
  | throwStatement : Method false throwStatement Grammar.throwStatement
  | handler : Method false handler Grammar.handler
  | tryStatement : Method false tryStatement Grammar.tryStatement
  | caseBody : Method false caseBody Grammar.caseBody
  | switchCases (hasDefault : Bool) (fuel : Nat) :
    Method false (switchCases · hasDefault fuel) (Grammar.switchCases · hasDefault fuel)
  | switchStatement : Method false switchStatement Grammar.switchStatement
  | withStatement : Method false withStatement Grammar.withStatement
  | labeledStatement : Method false labeledStatement Grammar.labeledStatement
  | expressionStatement : Method false expressionStatement Grammar.expressionStatement
  | statement : Method false statement Grammar.statement
  | item : Method false item Grammar.item
  | program : Method false program Grammar.program

/-- Every method hands the flags back when those for the phrases inside do. -/
theorem Method.handsBack {head : Bool} {method : Methods → Flagged α} {reader : Phrases → Parse α}
    (h : Method head method reader) {inner : Methods} {inner' : Phrases}
    [inner.HandsBack inner'] : HandsBack head (method inner) (reader inner') := by
  cases h <;> infer_instance

/-- Every method of the parser leaves all flags as they were where it succeeds, and reads what the
grammar reads in the context that the flags tell.  The methods for statements do so where `in` is an
operator, and others everywhere; a statement never begins where `in` is none, since nothing changes
when something else is done there.

What is enclosed is read the same in the head of a loop as anywhere else, with the flag handed back.
Everywhere else the word `in` behind an operand is an operator unless the flag is set, and then it
ends the operands. -/
theorem flags_handed_back :
    (∀ (head : Bool) (α : Type) (method : Methods → Flagged α) (reader : Phrases → Parse α),
      Method head method reader → ∀ depth (f : Flags) (r : Reading), (f.noIn = true → head = true) →
        (∀ x g s, method (.ofDepth depth) f r = .ok ((x, g), s) ↔
          g = f ∧ reader (.ofDepth depth) f.context r = .ok (x, s)) ∧
        (∀ e, method (.ofDepth depth) f r = .error e ↔
          reader (.ofDepth depth) f.context r = .error e) ∧
        ∀ other, method (.ofDepthUnlessHead other depth) f r = method (.ofDepth depth) f r) ∧
    (∀ (α : Type) (method : Methods → Flagged α) (reader : Phrases → Parse α),
      Enclosed method reader → ∀ depth f b r,
        method (.ofDepth depth) { f with noIn := b } r =
          (method (.ofDepth depth) f r).map fun y => ((y.1.1, { y.1.2 with noIn := b }), y.2)) ∧
    ∀ inner level fuel left f (r : Reading), r.current = .keyword .inWord →
      binaryTail inner level (fuel + 1) left f r =
        if f.noIn = true ∨ 5 ≤ level then .ok ((left, f), r)
        else (do
          advance
          let right ← inner.binary 5
          binaryTail inner level fuel (.binary .hasKey left right) : Flagged Expression) f r := by
  refine ⟨fun head α method reader h depth f r hf => ?_,
    fun α method reader h depth f b r => h.eq_map depth f b r,
    fun inner level fuel left f r hr => binaryTail_in hr⟩
  have hback : HandsBack head (method (.ofDepth depth)) (reader (.ofDepth depth)) := h.handsBack
  have hread := hback.eq_read f r hf
  refine ⟨fun x g s => ?_, fun e => ?_, fun other => ?_⟩
  · rw [hread, Flagged.read]
    cases reader (.ofDepth depth) f.context r with
    | ok found =>
      obtain ⟨y, t⟩ := found
      simp only [Except.ok.injEq, Prod.mk.injEq]
      constructor
      · rintro ⟨⟨rfl, rfl⟩, rfl⟩
        exact ⟨rfl, rfl, rfl⟩
      · rintro ⟨rfl, rfl, rfl⟩
        exact ⟨⟨rfl, rfl⟩, rfl⟩
    | error e => simp
  · rw [hread, Flagged.read]
    cases reader (.ofDepth depth) f.context r with
    | ok found => simp
    | error e => simp
  -- Both do what the reader does, which never begins a statement in a head.
  · have hother : HandsBack head (method (.ofDepthUnlessHead other depth))
        (reader (.ofDepth depth)) := h.handsBack
    rw [hread, hother.eq_read f r hf]

end Parser

end EcmaEval
