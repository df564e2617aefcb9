import EcmaEval.Eval.Loop
import EcmaEval.Grammar.Parse

/-!
# Sites

A site is a node of a syntax tree together with what surrounds it: the loops, switches and labels
that a jump in it can reach, and the functions that decide what `return` and `super` mean there.
The parts of a site are the sites right below it.  A rule about trees is a predicate on sites, and a
tree obeys it when all sites that it contains do.

## Main definitions

* `Surroundings`: what surrounds a node, as far as jumps and `super` depend on it
* `Site`, `Site.parts`: a node in its surroundings, and the sites right below it
* `Site.Every`, `Site.All`: a rule holds at a site, or at some sites, and at all sites below

## Main results

* `Site.every_iff`: a rule holds everywhere in a tree when it holds at the root and everywhere in
  the parts
* `Site.Every.mono`: a weaker rule holds wherever a stronger one does
-/

namespace EcmaEval

/-- What surrounds a node, up to the function around it. -/
structure Surroundings where
  /-- The node is in the body of a function or in a static block, or programs may return. -/
  mayReturn : Bool := false
  inLoop : Bool := false
  inSwitch : Bool := false
  /-- The labels around the node, innermost first, each with whether it is on a loop. -/
  labels : List (String × Bool) := []
  /-- The nearest function that is no arrow has a home object: it is a method, an accessor, a
  constructor, the initializer of a field or a static block. -/
  superProperty : Bool := false
  /-- The nearest function that is no arrow is the constructor of a class that extends another. -/
  superCall : Bool := false

/-- A node of a syntax tree. -/
inductive Node where
  | expression (e : Expression)
  | pattern (p : Pattern)
  | statement (s : Statement)
  | «class» (k : ClassNode)

/-- A node in its surroundings. -/
structure Site where
  surroundings : Surroundings
  node : Node

namespace Surroundings

/-- Around the statements of a program. -/
def top (options : ParseOptions) : Surroundings where
  mayReturn := options.returnOutsideFunction

variable (c : Surroundings)

/-- In the body of a function.  Loops, switches and labels around the function are out of reach. -/
def body : Surroundings :=
  { c with mayReturn := true, inLoop := false, inSwitch := false, labels := [] }

/-- In the body or the parameters of a function that has its own `this`. -/
def ownBody (superProperty superCall : Bool) : Surroundings :=
  { c.body with superProperty, superCall }

/-- In the body of a loop. -/
def loop : Surroundings := { c with inLoop := true }

/-- In the cases of a switch. -/
def switch : Surroundings := { c with inSwitch := true }

/-- Behind a label. -/
def labeled (label : String) (onLoop : Bool) : Surroundings :=
  { c with labels := (label, onLoop) :: c.labels }

/-- No loop, switch or label can be reached. -/
structure IsBody : Prop where
  inLoop : c.inLoop = false
  inSwitch : c.inSwitch = false
  labels : c.labels = []

theorem isBody_body : c.body.IsBody := ⟨rfl, rfl, rfl⟩

theorem isBody_ownBody (superProperty superCall : Bool) :
    (c.ownBody superProperty superCall).IsBody := ⟨rfl, rfl, rfl⟩

/-! ### Nodes in their surroundings -/

/-- An expression. -/
abbrev expression (e : Expression) : Site := ⟨c, .expression e⟩

/-- A binding target. -/
abbrev pattern (p : Pattern) : Site := ⟨c, .pattern p⟩

/-- A statement. -/
abbrev statement (s : Statement) : Site := ⟨c, .statement s⟩

/-- A class. -/
abbrev «class» (k : ClassNode) : Site := ⟨c, .class k⟩

/-- An element of a list.  A spread belongs to the list, so only its operand is a site. -/
def element : Expression → Site
  | .spread operand => c.expression operand
  | e => c.expression e

/-- What is accessed, called or constructed.  The word `super` belongs to the form around it. -/
def base : Expression → List Site
  | .super => []
  | e => [c.expression e]

/-- The key of a property. -/
def propertyKey : PropertyKey → List Site
  | .computed key => [c.expression key]
  | _ => []

/-- The key of a member access. -/
def memberKey : MemberKey → List Site
  | .computed key => [c.expression key]
  | .name _ => []

/-- The body of a function. -/
def functionBody : FunctionBody → List Site
  | .block statements => statements.map c.statement
  | .expression result => [c.expression result]

/-- A function that has its own `this`. -/
def ownFunction (superProperty superCall : Bool) (f : FunctionNode) : List Site :=
  f.params.map (c.ownBody superProperty superCall).pattern ++
    (c.ownBody superProperty superCall).functionBody f.body

/-- An arrow function.  Its parameters are expressions of what is around it. -/
def arrow (f : FunctionNode) : List Site :=
  f.params.map c.pattern ++ c.body.functionBody f.body

/-- The value of a member of an object literal. -/
def memberValue (kind : MemberKind) (value : Expression) : List Site :=
  match kind, value with
  | .value, e | .spread, e => [c.expression e]
  | _, .function f => c.ownFunction true false f
  | _, e => [c.expression e]

/-- A member of an object literal. -/
def objectMember (m : ObjectMember) : List Site :=
  c.propertyKey m.key ++ c.memberValue m.kind m.value

/-- A member of an object pattern. -/
def patternMember (m : PatternMember) : List Site :=
  c.propertyKey m.key ++ [c.pattern m.target]

/-- An element of a class, which may extend another. -/
def classElement (derived : Bool) : ClassElement → List Site
  | .method kind _ key f =>
    c.propertyKey key ++ c.ownFunction true (kind = .constructor && derived) f
  | .field _ key value =>
    c.propertyKey key ++ value.toList.map (c.ownBody true false).expression
  | .staticBlock statements => statements.map (c.ownBody true false).statement

/-- One variable of a declaration. -/
def declarator (d : Declarator) : List Site :=
  c.pattern d.target :: d.init.toList.map c.expression

/-- The first part of a loop head with three parts. -/
def forInit : ForInit → List Site
  | .declaration _ declarators => declarators.flatMap c.declarator
  | .expression e => [c.expression e]

/-- What a loop over keys or elements binds. -/
def forHead : ForHead → List Site
  | .declaration _ target => [c.pattern target]
  | .target e => [c.expression e]

/-- The handler of a try statement. -/
def handler (h : CatchClause) : List Site :=
  h.param.toList.map c.pattern ++ h.body.map c.statement

/-- A case of a switch. -/
def switchCase (k : SwitchCase) : List Site :=
  k.test.toList.map c.expression ++ k.body.map c.statement

end Surroundings

namespace Site

/-- The sites right below an expression. -/
def expressionParts (c : Surroundings) : Expression → List Site
  | .literal _ | .regExp .. | .identifier _ | .this | .super | .newTarget => []
  | .array elements => elements.reduceOption.map c.element
  | .object members => members.flatMap c.objectMember
  | .function f => c.ownFunction false false f
  | .arrow f => c.arrow f
  | .class k => [c.class k]
  | .unary _ e | .update _ _ e | .spread e | .await e => [c.expression e]
  | .binary _ l r | .logical _ l r | .assign _ l r => [c.expression l, c.expression r]
  | .conditional test consequent alternate =>
    [c.expression test, c.expression consequent, c.expression alternate]
  | .call callee args | .new callee args => c.base callee ++ args.map c.element
  | .member object key => c.base object ++ c.memberKey key
  | .optionalChain base tail => [c.expression base, c.expression tail]
  | .template _ substitutions => substitutions.map c.expression
  | .taggedTemplate tag _ substitutions => c.expression tag :: substitutions.map c.expression
  | .yield operand _ => operand.toList.map c.expression
  | .sequence parts => parts.map c.expression

/-- The sites right below a binding target. -/
def patternParts (c : Surroundings) : Pattern → List Site
  | .identifier _ => []
  | .withDefault target value => [c.pattern target, c.expression value]
  | .rest target => [c.pattern target]
  | .array elements => elements.reduceOption.map c.pattern
  | .object members => members.flatMap c.patternMember

/-- The sites right below a statement. -/
def statementParts (c : Surroundings) : Statement → List Site
  | .empty | .debugger | .break _ | .continue _ => []
  | .expression e | .throw e => [c.expression e]
  | .block body => body.map c.statement
  | .declaration _ declarators => declarators.flatMap c.declarator
  | .if test consequent alternate =>
    c.expression test :: c.statement consequent :: alternate.toList.map c.statement
  | .while test body | .doWhile body test => [c.expression test, c.loop.statement body]
  | .for init test update body =>
    init.toList.flatMap c.forInit ++ test.toList.map c.expression ++
      update.toList.map c.expression ++ [c.loop.statement body]
  | .forIn head e body | .forOf head e body =>
    c.forHead head ++ [c.expression e, c.loop.statement body]
  | .return value => value.toList.map c.expression
  | .try body handler finalizer =>
    body.map c.statement ++ handler.toList.flatMap c.handler ++
      (finalizer.getD []).map c.statement
  | .switch discriminant cases =>
    c.expression discriminant :: cases.flatMap c.switch.switchCase
  | .labeled label body => [(c.labeled label body.isLoop).statement body]
  | .with object body => [c.expression object, c.statement body]
  | .function f => c.ownFunction false false f
  | .class k => [c.class k]

/-- The sites right below a class. -/
def classParts (c : Surroundings) (k : ClassNode) : List Site :=
  k.heritage.toList.map c.expression ++ k.body.flatMap (c.classElement k.heritage.isSome)

/-- The sites right below a site. -/
def parts : Site → List Site
  | ⟨c, .expression e⟩ => expressionParts c e
  | ⟨c, .pattern p⟩ => patternParts c p
  | ⟨c, .statement s⟩ => statementParts c s
  | ⟨c, .class k⟩ => classParts c k

/-- The second site is the first one or lies below it. -/
inductive Contains : Site → Site → Prop where
  | refl (s : Site) : Contains s s
  | step {s t u : Site} (part : t ∈ s.parts) (within : Contains t u) : Contains s u

theorem Contains.trans {s t u : Site} (h : s.Contains t) (h' : t.Contains u) : s.Contains u := by
  induction h with
  | refl => exact h'
  | step part _ ih => exact .step part (ih h')

/-- A rule holds at a site and at all sites below it. -/
def Every (rule : Site → Prop) (s : Site) : Prop := ∀ t, s.Contains t → rule t

/-- A rule holds at some sites and at all sites below them. -/
def All (rule : Site → Prop) (ts : List Site) : Prop := ∀ t ∈ ts, t.Every rule

variable {rule rule' : Site → Prop} {s t : Site} {ts us : List Site}

theorem every_iff : s.Every rule ↔ rule s ∧ All rule s.parts := by
  constructor
  · intro h
    exact ⟨h s (.refl s), fun t ht u hu => h u (.step ht hu)⟩
  · rintro ⟨hs, hparts⟩ t ht
    cases ht with
    | refl => exact hs
    | step part within => exact hparts _ part _ within

theorem Every.here (h : s.Every rule) : rule s := (every_iff.mp h).1

theorem Every.parts (h : s.Every rule) : All rule s.parts := (every_iff.mp h).2

theorem Every.below (h : s.Every rule) (ht : s.Contains t) : t.Every rule :=
  fun u hu => h u (ht.trans hu)

/-- A weaker rule holds wherever a stronger one does. -/
theorem Every.mono (h : s.Every rule) (hrule : ∀ t, rule t → rule' t) : s.Every rule' :=
  fun t ht => hrule t (h t ht)

theorem Every.and (h : s.Every rule) (h' : s.Every rule') :
    s.Every fun t => rule t ∧ rule' t :=
  fun t ht => ⟨h t ht, h' t ht⟩

@[simp] theorem all_nil : All rule [] := fun _ h => nomatch h

@[simp] theorem all_cons : All rule (t :: ts) ↔ t.Every rule ∧ All rule ts :=
  List.forall_mem_cons

theorem all_singleton : All rule [t] ↔ t.Every rule :=
  List.forall_mem_singleton

theorem all_pair {u : Site} : All rule [t, u] ↔ t.Every rule ∧ u.Every rule :=
  all_cons.trans (and_congr_right' all_singleton)

@[simp] theorem all_append : All rule (ts ++ us) ↔ All rule ts ∧ All rule us :=
  List.forall_mem_append

@[simp] theorem all_map {α : Type} {f : α → Site} {l : List α} :
    All rule (l.map f) ↔ ∀ x ∈ l, (f x).Every rule :=
  List.forall_mem_map

@[simp] theorem all_flatMap {α : Type} {f : α → List Site} {l : List α} :
    All rule (l.flatMap f) ↔ ∀ x ∈ l, All rule (f x) := by
  simp only [All, List.mem_flatMap]
  exact ⟨fun h x hx t ht => h t ⟨x, hx, ht⟩, fun h t ⟨x, hx, ht⟩ => h x hx t ht⟩

end Site

/-- The statements of a program in their surroundings. -/
def Program.sites (options : ParseOptions) (p : Program) : List Site :=
  p.body.map (Surroundings.top options).statement

/-- A rule holds at all sites of a program. -/
def Program.Every (options : ParseOptions) (rule : Site → Prop) (p : Program) : Prop :=
  Site.All rule (p.sites options)

end EcmaEval
