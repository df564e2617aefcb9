import EcmaEval.Proofs.Syntax.Rules
import EcmaEval.Grammar.Statement
import EcmaEval.Proofs.Syntax.Statement

/-!
# Code of functions, and values in which everything fits

The code of a function is run apart from what is around it: its parameters, whose default values
are computed in it, and its body.  The value of a field and the statements of a static block are run
as methods of their own.  Only an arrow function has its parameters read before it is known to be
one, so they count as code of what is around it.

A rule about nodes may depend on whether the function whose code a node is in is asynchronous.

A reader of a phrase gives trees, lists of trees or other values that hold trees.  A value is
fitting when everything in it stands where the rule lets it.  The instances follow the constructors
of trees.

## Main definitions

* `Code`, `Node.codes`: the code of a function, and the functions that begin at a node
* `Node.Holds`: a node holds another one, in code that is asynchronous or not
* `Node.Every`: a rule holds at a node and everywhere in it
* `Node.Fits`: `await` stands in asynchronous code, and declarations of functions in lists or behind
  labels
* `Holder`: values that hold trees
* `Fitting`: everything in a value stands where the rule lets it

## Main results

* `Node.every_iff`: a rule holds everywhere in a node when it holds at the node, in the parts that
  are code of what is around it, and in the code of the functions that begin there
-/

namespace EcmaEval

/-! ## The code of functions -/

/-- Code that is run apart from what is around it. -/
structure Code where
  /-- The code is of an asynchronous function, so that `await` is an operator in it. -/
  isAsync : Bool
  nodes : List Node

/-- The statements of a body, or the expression that a body is. -/
def FunctionBody.nodes : FunctionBody → List Node
  | .block statements => statements.map .statement
  | .expression result => [.expression result]

/-- A function that is no arrow, with its parameters. -/
def FunctionNode.code (f : FunctionNode) : Code :=
  ⟨f.isAsync, f.params.map .pattern ++ f.body.nodes⟩

/-- An arrow function, without its parameters. -/
def FunctionNode.arrowCode (f : FunctionNode) : Code :=
  ⟨f.isAsync, f.body.nodes⟩

/-- The method or the accessor that a member of an object literal is. -/
def ObjectMember.codes : ObjectMember → List Code
  | ⟨.value, _, _, _⟩ | ⟨.spread, _, _, _⟩ => []
  | ⟨_, _, .function f, _⟩ => [f.code]
  | _ => []

/-- The method, the initializer or the block that an element of a class is. -/
def ClassElement.code : ClassElement → Code
  | .method _ _ _ f => f.code
  | .field _ _ value => ⟨false, value.toList.map .expression⟩
  | .staticBlock statements => ⟨false, statements.map .statement⟩

/-- The code of the functions that begin at a node. -/
def Node.codes : Node → List Code
  | .expression (.function f) | .statement (.function f) => [f.code]
  | .expression (.arrow f) => [f.arrowCode]
  | .expression (.object members) => members.flatMap ObjectMember.codes
  | .class k => k.body.map ClassElement.code
  | _ => []

/-- The site is in no function. -/
def Site.Outside (t : Site) : Prop := t.surroundings.mayReturn = false

/-- The second node is the first one or lies in it.  With the nodes stands whether the code that they
are in is asynchronous. -/
inductive Node.Holds : (awaits : Bool) → Node → (awaits' : Bool) → Node → Prop where
  | refl (awaits : Bool) (n : Node) : Holds awaits n awaits n
  /-- Code of what is around the first node. -/
  | part {awaits awaits' : Bool} {n m : Node} {t : Site} (mem : t ∈ Site.parts ⟨{}, n⟩)
      (outside : t.Outside) (within : Holds awaits t.node awaits' m) : Holds awaits n awaits' m
  /-- Code of a function that begins at the first node. -/
  | code {awaits awaits' : Bool} {n m start : Node} {k : Code} (mem : k ∈ n.codes)
      (here : start ∈ k.nodes) (within : Holds k.isAsync start awaits' m) : Holds awaits n awaits' m

/-! ## Rules -/

namespace Node

/-- A rule holds at a node and at all nodes in it. -/
def Every (rule : Bool → Node → Prop) (awaits : Bool) (n : Node) : Prop :=
  ∀ awaits' m, n.Holds awaits awaits' m → rule awaits' m

/-- A rule holds everywhere in the sites that are in no function. -/
def EveryOf (rule : Bool → Node → Prop) (awaits : Bool) (ts : List Site) : Prop :=
  ∀ t ∈ ts, t.Outside → t.node.Every rule awaits

end Node

/-- A rule holds everywhere in some code. -/
def Code.Every (rule : Bool → Node → Prop) (k : Code) : Prop :=
  ∀ n ∈ k.nodes, n.Every rule k.isAsync

variable {rule : Bool → Node → Prop} {awaits : Bool}

theorem Node.every_iff {n : Node} : n.Every rule awaits ↔
    rule awaits n ∧ EveryOf rule awaits (Site.parts ⟨{}, n⟩) ∧ ∀ k ∈ n.codes, k.Every rule := by
  constructor
  · intro h
    exact ⟨h _ _ (.refl awaits n), fun t ht hout _ _ hm => h _ _ (.part ht hout hm),
      fun k hk start hstart _ _ hm => h _ _ (.code hk hstart hm)⟩
  · rintro ⟨hn, hparts, hcodes⟩ awaits' m hm
    cases hm with
    | refl => exact hn
    | part mem outside within => exact hparts _ mem outside _ _ within
    | code mem here within => exact hcodes _ mem _ here _ _ within

namespace Node

variable {ts us : List Site} {c : Surroundings} {α : Type}

@[simp] theorem everyOf_nil : EveryOf rule awaits [] := fun _ h => nomatch h

@[simp] theorem everyOf_cons {t : Site} : EveryOf rule awaits (t :: ts) ↔
    (t.Outside → t.node.Every rule awaits) ∧ EveryOf rule awaits ts :=
  List.forall_mem_cons

@[simp] theorem everyOf_append :
    EveryOf rule awaits (ts ++ us) ↔ EveryOf rule awaits ts ∧ EveryOf rule awaits us :=
  List.forall_mem_append

theorem everyOf_map {f : α → Site} {l : List α} : EveryOf rule awaits (l.map f) ↔
    ∀ x ∈ l, (f x).Outside → (f x).node.Every rule awaits :=
  List.forall_mem_map

theorem everyOf_flatMap {f : α → List Site} {l : List α} :
    EveryOf rule awaits (l.flatMap f) ↔ ∀ x ∈ l, EveryOf rule awaits (f x) := by
  simp only [EveryOf, List.mem_flatMap]
  exact ⟨fun h x hx t ht => h t ⟨x, hx, ht⟩, fun h t ⟨x, hx, ht⟩ => h x hx t ht⟩

/-- What is in a function is not code of what is around it. -/
theorem everyOf_of_mayReturn (h : ∀ t ∈ ts, t.surroundings.mayReturn = true) :
    EveryOf rule awaits ts := fun t ht hout => by
  rw [Site.Outside, h t ht] at hout
  cases hout

theorem everyOf_functionBody (h : c.mayReturn = true) (body : FunctionBody) :
    EveryOf rule awaits (c.functionBody body) := by
  refine everyOf_of_mayReturn fun t ht => ?_
  cases body with
  | block statements =>
    obtain ⟨s, -, rfl⟩ := List.mem_map.mp ht
    exact h
  | expression result =>
    obtain rfl := List.mem_singleton.mp ht
    exact h

@[simp] theorem everyOf_ownFunction (superProperty superCall : Bool) (f : FunctionNode) :
    EveryOf rule awaits (c.ownFunction superProperty superCall f) := by
  refine everyOf_append.mpr ⟨everyOf_of_mayReturn fun t ht => ?_, everyOf_functionBody rfl _⟩
  obtain ⟨p, -, rfl⟩ := List.mem_map.mp ht
  rfl

end Node

/-! ## The rule of the trees that are read from a text -/

/-- The statement declares a function. -/
def Statement.isFunction : Statement → Bool
  | .function _ => true
  | _ => false

/-- The statement has a label. -/
def Statement.isLabeled : Statement → Bool
  | .labeled .. => true
  | _ => false

/-- `await` stands in asynchronous code only.  A declaration of a function that is in no list of
statements stands behind a label. -/
def Node.Fits (awaits : Bool) : Node → Prop
  | .expression (.await _) => awaits = true
  | .statement s => ∀ t ∈ s.inner, t.isFunction → s.isLabeled
  | _ => True

end EcmaEval

/-! # Values in which everything fits -/

namespace EcmaEval

/-- Values that hold trees: in sites, and in the code of functions. -/
class Holder (α : Type) where
  sites : α → List Site
  codes : α → List Code

namespace Holder

/-- A holder of one node. -/
abbrev ofNode {α : Type} (node : α → Node) : Holder α := ⟨fun x => [⟨{}, node x⟩], fun _ => []⟩

/-- A holder of sites that are in no function. -/
abbrev ofSites {α : Type} (sites : α → List Site) : Holder α := ⟨sites, fun _ => []⟩

instance : Holder Expression := ofNode .expression
instance : Holder Pattern := ofNode .pattern
instance : Holder Statement := ofNode .statement
instance : Holder ClassNode := ofNode .class
instance : Holder PropertyKey := ofSites ({} : Surroundings).propertyKey
instance : Holder MemberKey := ofSites ({} : Surroundings).memberKey
instance : Holder PatternMember := ofSites ({} : Surroundings).patternMember
instance : Holder Declarator := ofSites ({} : Surroundings).declarator
instance : Holder ForInit := ofSites ({} : Surroundings).forInit
instance : Holder ForHead := ofSites ({} : Surroundings).forHead
instance : Holder CatchClause := ofSites ({} : Surroundings).handler
instance : Holder SwitchCase := ofSites ({} : Surroundings).switchCase
instance : Holder FunctionNode := ⟨fun _ => [], fun f => [f.code]⟩
instance : Holder ObjectMember := ⟨({} : Surroundings).objectMember, ObjectMember.codes⟩

/-- What is in an element of a class apart from its code is its key. -/
instance : Holder ClassElement where
  sites
    | .method _ _ key _ | .field _ key _ => ({} : Surroundings).propertyKey key
    | .staticBlock _ => []
  codes e := [e.code]

instance : Holder Grammar.Grouped :=
  ofSites fun
    | .value e _ => [⟨{}, .expression e⟩]
    | .rest target => [⟨{}, .pattern target⟩]

instance : Holder Unit := ofSites fun _ => []
instance : Holder Bool := ofSites fun _ => []
instance : Holder String := ofSites fun _ => []
instance : Holder Token := ofSites fun _ => []
instance : Holder Context := ofSites fun _ => []
instance : Holder MethodKind := ofSites fun _ => []

variable {α β : Type}

instance [Holder α] : Holder (List α) := ⟨List.flatMap sites, List.flatMap codes⟩

instance [Holder α] : Holder (Option α) :=
  ⟨fun x => x.toList.flatMap sites, fun x => x.toList.flatMap codes⟩

instance [Holder α] [Holder β] : Holder (α × β) :=
  ⟨fun x => sites x.1 ++ sites x.2, fun x => codes x.1 ++ codes x.2⟩

end Holder

/-- Everything in a value stands where the rule lets it. -/
class Fitting (awaits : Bool) {α : Type} [Holder α] (x : α) : Prop where
  sites : Node.EveryOf Node.Fits awaits (Holder.sites x)
  codes : ∀ k ∈ Holder.codes x, k.Every Node.Fits

/-- Values in which no tree stands. -/
class Treeless (α : Type) [Holder α] : Prop where
  sites : ∀ x : α, Holder.sites x = []
  codes : ∀ x : α, Holder.codes x = []

namespace Treeless

instance : Treeless Unit := ⟨fun _ => rfl, fun _ => rfl⟩
instance : Treeless Bool := ⟨fun _ => rfl, fun _ => rfl⟩
instance : Treeless String := ⟨fun _ => rfl, fun _ => rfl⟩
instance : Treeless Token := ⟨fun _ => rfl, fun _ => rfl⟩
instance : Treeless Context := ⟨fun _ => rfl, fun _ => rfl⟩
instance : Treeless MethodKind := ⟨fun _ => rfl, fun _ => rfl⟩

variable {α β : Type} [Holder α] [Holder β] [hα : Treeless α] [hβ : Treeless β]

instance : Treeless (List α) :=
  ⟨fun _ => List.flatMap_eq_nil_iff.mpr fun x _ => hα.sites x,
    fun _ => List.flatMap_eq_nil_iff.mpr fun x _ => hα.codes x⟩

instance : Treeless (Option α) :=
  ⟨fun _ => List.flatMap_eq_nil_iff.mpr fun x _ => hα.sites x,
    fun _ => List.flatMap_eq_nil_iff.mpr fun x _ => hα.codes x⟩

instance : Treeless (α × β) :=
  ⟨fun x => List.append_eq_nil_iff.mpr ⟨hα.sites x.1, hβ.sites x.2⟩,
    fun x => List.append_eq_nil_iff.mpr ⟨hα.codes x.1, hβ.codes x.2⟩⟩

end Treeless

/-- The statement is no declaration of a function. -/
class Statement.Plain (s : Statement) : Prop where
  isFunction : s.isFunction = false

namespace Statement.Plain

instance : Plain .empty := ⟨rfl⟩
instance : Plain .debugger := ⟨rfl⟩
instance (e : Expression) : Plain (.expression e) := ⟨rfl⟩
instance (e : Expression) : Plain (.throw e) := ⟨rfl⟩
instance (e : Option Expression) : Plain (.return e) := ⟨rfl⟩
instance (label : Option String) : Plain (.break label) := ⟨rfl⟩
instance (label : Option String) : Plain (.continue label) := ⟨rfl⟩
instance (body : List Statement) : Plain (.block body) := ⟨rfl⟩
instance (kind : DeclarationKind) (ds : List Declarator) : Plain (.declaration kind ds) := ⟨rfl⟩
instance (e : Expression) (s : Statement) (t : Option Statement) : Plain (.if e s t) := ⟨rfl⟩
instance (e : Expression) (s : Statement) : Plain (.while e s) := ⟨rfl⟩
instance (e : Expression) (s : Statement) : Plain (.doWhile s e) := ⟨rfl⟩
instance (i : Option ForInit) (t u : Option Expression) (s : Statement) : Plain (.for i t u s) := ⟨rfl⟩
instance (i : ForHead) (e : Expression) (s : Statement) : Plain (.forIn i e s) := ⟨rfl⟩
instance (i : ForHead) (e : Expression) (s : Statement) : Plain (.forOf i e s) := ⟨rfl⟩
instance (body : List Statement) (h : Option CatchClause) (f : Option (List Statement)) :
    Plain (.try body h f) := ⟨rfl⟩
instance (e : Expression) (ks : List SwitchCase) : Plain (.switch e ks) := ⟨rfl⟩
instance (label : String) (s : Statement) : Plain (.labeled label s) := ⟨rfl⟩
instance (e : Expression) (s : Statement) : Plain (.with e s) := ⟨rfl⟩

end Statement.Plain

namespace Fitting

variable {awaits : Bool} {α β : Type} [Holder α] [Holder β] {xs : List α} {o : Option α}
  {e l r t : Expression} {p : Pattern} {s : Statement} {k : ClassNode} {es : List Expression}
  {ps : List Pattern} {ss : List Statement} {c : Surroundings}

instance treeless [h : Treeless α] (x : α) : Fitting awaits x where
  sites := h.sites x ▸ Node.everyOf_nil
  codes := h.codes x ▸ fun _ hk => nomatch hk

instance (x : Subtype (Fitting (α := α) awaits)) : Fitting awaits x.val := x.property

/-! ### Lists and values that may be missing -/

theorem list_iff : Fitting awaits xs ↔ ∀ x ∈ xs, Fitting awaits x := by
  constructor
  · intro h x hx
    exact ⟨Node.everyOf_flatMap.mp h.sites x hx, fun k hk => h.codes k (List.mem_flatMap.mpr ⟨x, hx, hk⟩)⟩
  · intro h
    refine ⟨Node.everyOf_flatMap.mpr fun x hx => (h x hx).sites, fun k hk => ?_⟩
    obtain ⟨x, hx, hk⟩ := List.mem_flatMap.mp hk
    exact (h x hx).codes k hk

theorem option_iff : Fitting awaits o ↔ ∀ x ∈ o, Fitting awaits x := by
  rw [← show Fitting awaits o.toList ↔ Fitting awaits o from ⟨fun h => ⟨h.1, h.2⟩, fun h => ⟨h.1, h.2⟩⟩,
    list_iff]
  exact forall_congr' fun x => imp_congr_left Option.mem_toList

theorem pair_iff {x : α} {y : β} : Fitting awaits (x, y) ↔ Fitting awaits x ∧ Fitting awaits y := by
  constructor
  · intro ⟨hsites, hcodes⟩
    obtain ⟨hx, hy⟩ := Node.everyOf_append.mp hsites
    obtain ⟨kx, ky⟩ := List.forall_mem_append.mp hcodes
    exact ⟨⟨hx, kx⟩, ⟨hy, ky⟩⟩
  · rintro ⟨⟨hx, kx⟩, ⟨hy, ky⟩⟩
    exact ⟨Node.everyOf_append.mpr ⟨hx, hy⟩, List.forall_mem_append.mpr ⟨kx, ky⟩⟩

instance : Fitting awaits ([] : List α) := list_iff.mpr fun _ h => nomatch h

instance (x : α) [hx : Fitting awaits x] [hxs : Fitting awaits xs] : Fitting awaits (x :: xs) :=
  list_iff.mpr (List.forall_mem_cons.mpr ⟨hx, list_iff.mp hxs⟩)

instance : Fitting awaits (none : Option α) := option_iff.mpr fun _ h => nomatch h

instance (x : α) [hx : Fitting awaits x] : Fitting awaits (some x) :=
  option_iff.mpr fun _ h => Option.some.inj h ▸ hx

instance (x : α) (y : β) [hx : Fitting awaits x] [hy : Fitting awaits y] : Fitting awaits (x, y) :=
  pair_iff.mpr ⟨hx, hy⟩

instance [h : Fitting awaits o] : Fitting awaits o.toList :=
  list_iff.mpr fun x hx => option_iff.mp h x (Option.mem_toList.mp hx)

instance {os : List (Option α)} [h : Fitting awaits os] : Fitting awaits os.reduceOption := by
  refine list_iff.mpr fun x hx => ?_
  obtain ⟨o, ho, rfl⟩ := List.mem_filterMap.mp hx
  exact option_iff.mp (list_iff.mp h _ ho) x rfl

/-! ### Nodes -/

omit [Holder α] in
/-- A node fits when everything in it does. -/
theorem ofNode_iff {node : α → Node} {x : α} :
    @Fitting awaits α (.ofNode node) x ↔ (node x).Every Node.Fits awaits := by
  let _ : Holder α := .ofNode node
  constructor
  · intro h
    exact h.sites ⟨{}, node x⟩ (.head _) rfl
  · intro h
    exact ⟨List.forall_mem_singleton.mpr fun _ => h, List.forall_mem_nil _⟩

theorem expression_iff : Fitting awaits e ↔ (Node.expression e).Every Node.Fits awaits := ofNode_iff

theorem pattern_iff : Fitting awaits p ↔ (Node.pattern p).Every Node.Fits awaits := ofNode_iff

theorem statement_iff : Fitting awaits s ↔ (Node.statement s).Every Node.Fits awaits := ofNode_iff

theorem class_iff : Fitting awaits k ↔ (Node.class k).Every Node.Fits awaits := ofNode_iff

@[simp] theorem expression [h : Fitting awaits e] : (Node.expression e).Every Node.Fits awaits :=
  expression_iff.mp h

@[simp] theorem pattern [h : Fitting awaits p] : (Node.pattern p).Every Node.Fits awaits :=
  pattern_iff.mp h

@[simp] theorem statement [h : Fitting awaits s] : (Node.statement s).Every Node.Fits awaits :=
  statement_iff.mp h

@[simp] theorem «class» [h : Fitting awaits k] : (Node.class k).Every Node.Fits awaits :=
  class_iff.mp h

/-! ### Lists of sites -/

@[simp] theorem expressions [h : Fitting awaits es] :
    Node.EveryOf Node.Fits awaits (es.map c.expression) :=
  Node.everyOf_map.mpr fun x hx _ => expression_iff.mp (list_iff.mp h x hx)

theorem expressionSite [h : Fitting awaits e] : Node.EveryOf Node.Fits awaits [c.expression e] :=
  List.forall_mem_singleton.mpr fun _ => expression_iff.mp h

@[simp] theorem patterns [h : Fitting awaits ps] : Node.EveryOf Node.Fits awaits (ps.map c.pattern) :=
  Node.everyOf_map.mpr fun x hx _ => pattern_iff.mp (list_iff.mp h x hx)

theorem patternSite [h : Fitting awaits p] : Node.EveryOf Node.Fits awaits [c.pattern p] :=
  List.forall_mem_singleton.mpr fun _ => pattern_iff.mp h

@[simp] theorem statements [h : Fitting awaits ss] :
    Node.EveryOf Node.Fits awaits (ss.map c.statement) :=
  Node.everyOf_map.mpr fun x hx _ => statement_iff.mp (list_iff.mp h x hx)

@[simp] theorem base [Fitting awaits e] : Node.EveryOf Node.Fits awaits (c.base e) := by
  unfold Surroundings.base
  split <;> simp

/-- A spread fits when its operand does. -/
theorem spread_iff : Fitting awaits (Expression.spread e) ↔ Fitting awaits e := by
  rw [expression_iff, expression_iff, Node.every_iff]
  constructor
  · rintro ⟨-, hparts, -⟩
    exact hparts _ (.head _) rfl
  · intro h
    exact ⟨trivial, by simpa [Site.parts, Site.expressionParts] using fun _ => h, fun _ h => nomatch h⟩

@[simp] theorem element [h : Fitting awaits e] : (c.element e).node.Every Node.Fits awaits := by
  unfold Surroundings.element
  split
  · exact expression_iff.mp (spread_iff.mp h)
  · exact expression_iff.mp h

/-- An element of a list fits when its operand does. -/
theorem of_element (h : (c.element e).node.Every Node.Fits awaits) : Fitting awaits e := by
  cases e
  case spread => exact spread_iff.mpr (expression_iff.mpr h)
  all_goals exact expression_iff.mpr h

@[simp] theorem elements [h : Fitting awaits es] :
    Node.EveryOf Node.Fits awaits (es.map c.element) :=
  Node.everyOf_map.mpr fun e he _ => element (h := list_iff.mp h e he)

/-! ### Expressions -/

section Expressions

theorem expression_of (hrule : (Node.expression e).Fits awaits)
    (hparts : Node.EveryOf Node.Fits awaits (Site.expressionParts {} e))
    (hcodes : ∀ k ∈ (Node.expression e).codes, k.Every Node.Fits) : Fitting awaits e :=
  expression_iff.mpr (Node.every_iff.mpr ⟨hrule, hparts, hcodes⟩)

/-- An expression at which no function begins. -/
theorem plainExpression (hrule : (Node.expression e).Fits awaits)
    (hparts : Node.EveryOf Node.Fits awaits (Site.expressionParts {} e))
    (hcodes : (Node.expression e).codes = []) : Fitting awaits e :=
  expression_of hrule hparts (hcodes ▸ fun _ hk => nomatch hk)

instance (v : Literal) : Fitting awaits (Expression.literal v) :=
  plainExpression trivial Node.everyOf_nil rfl

instance (pattern flags : String) : Fitting awaits (Expression.regExp pattern flags) :=
  plainExpression trivial Node.everyOf_nil rfl

instance (name : String) : Fitting awaits (Expression.identifier name) :=
  plainExpression trivial Node.everyOf_nil rfl

instance : Fitting awaits Expression.this := plainExpression trivial Node.everyOf_nil rfl

instance : Fitting awaits Expression.super := plainExpression trivial Node.everyOf_nil rfl

instance : Fitting awaits Expression.newTarget := plainExpression trivial Node.everyOf_nil rfl

instance {os : List (Option Expression)} [Fitting awaits os] :
    Fitting awaits (Expression.array os) :=
  plainExpression trivial elements rfl

instance {ms : List ObjectMember} [h : Fitting awaits ms] : Fitting awaits (Expression.object ms) :=
  expression_of trivial h.sites h.codes

instance {f : FunctionNode} [h : Fitting awaits f] : Fitting awaits (Expression.function f) :=
  expression_of trivial (Node.everyOf_ownFunction _ _ _) h.codes

instance {k : ClassNode} [Fitting awaits k] : Fitting awaits (Expression.class k) :=
  plainExpression trivial (by simp [Site.expressionParts]) rfl

instance (op : UnaryOperator) [Fitting awaits e] : Fitting awaits (Expression.unary op e) :=
  plainExpression trivial (by simp [Site.expressionParts]) rfl

instance (op : UpdateOperator) (before : Bool) [Fitting awaits e] :
    Fitting awaits (Expression.update op before e) :=
  plainExpression trivial (by simp [Site.expressionParts]) rfl

instance [h : Fitting awaits e] : Fitting awaits (Expression.spread e) := spread_iff.mpr h

theorem await (hawaits : awaits = true) [Fitting awaits e] : Fitting awaits (Expression.await e) :=
  plainExpression hawaits (by simp [Site.expressionParts]) rfl

instance (op : BinaryOperator) [Fitting awaits l] [Fitting awaits r] :
    Fitting awaits (Expression.binary op l r) :=
  plainExpression trivial (by simp [Site.expressionParts]) rfl

instance (op : LogicalOperator) [Fitting awaits l] [Fitting awaits r] :
    Fitting awaits (Expression.logical op l r) :=
  plainExpression trivial (by simp [Site.expressionParts]) rfl

instance (op : AssignmentOperator) [Fitting awaits l] [Fitting awaits r] :
    Fitting awaits (Expression.assign op l r) :=
  plainExpression trivial (by simp [Site.expressionParts]) rfl

instance [Fitting awaits t] [Fitting awaits l] [Fitting awaits r] :
    Fitting awaits (Expression.conditional t l r) :=
  plainExpression trivial (by simp [Site.expressionParts]) rfl

instance [Fitting awaits e] [Fitting awaits es] : Fitting awaits (Expression.call e es) :=
  plainExpression trivial (by simp [Site.expressionParts]) rfl

instance [Fitting awaits e] [Fitting awaits es] : Fitting awaits (Expression.new e es) :=
  plainExpression trivial (by simp [Site.expressionParts]) rfl

instance {key : MemberKey} [Fitting awaits e] [h : Fitting awaits key] :
    Fitting awaits (Expression.member e key) :=
  plainExpression trivial (Node.everyOf_append.mpr ⟨base, h.sites⟩) rfl

instance [Fitting awaits l] [Fitting awaits r] : Fitting awaits (Expression.optionalChain l r) :=
  plainExpression trivial (by simp [Site.expressionParts]) rfl

instance (texts : List (Option String)) [Fitting awaits es] :
    Fitting awaits (Expression.template texts es) :=
  plainExpression trivial (by simp [Site.expressionParts]) rfl

instance (texts : List (Option String)) [Fitting awaits e] [Fitting awaits es] :
    Fitting awaits (Expression.taggedTemplate e texts es) :=
  plainExpression trivial (by simp [Site.expressionParts]) rfl

instance {operand : Option Expression} (delegate : Bool) [Fitting awaits operand] :
    Fitting awaits (Expression.yield operand delegate) :=
  plainExpression trivial expressions rfl

instance [Fitting awaits es] : Fitting awaits (Expression.sequence es) :=
  plainExpression trivial expressions rfl

/-- An arrow function has its parameters in common with what is around it, and its body on its
own. -/
theorem arrow {f : FunctionNode} [Fitting awaits f.params] (hbody : f.arrowCode.Every Node.Fits) :
    Fitting awaits (Expression.arrow f) :=
  expression_of trivial (Node.everyOf_append.mpr ⟨patterns, Node.everyOf_functionBody rfl _⟩)
    (List.forall_mem_singleton.mpr hbody)

end Expressions

/-! ### Keys and members -/

instance (name : String) : Fitting awaits (MemberKey.name name) :=
  ⟨Node.everyOf_nil, fun _ hk => nomatch hk⟩

instance [Fitting awaits e] : Fitting awaits (MemberKey.computed e) :=
  ⟨expressionSite, fun _ hk => nomatch hk⟩

instance (name : String) : Fitting awaits (PropertyKey.identifier name) :=
  ⟨Node.everyOf_nil, fun _ hk => nomatch hk⟩

instance (value : String) : Fitting awaits (PropertyKey.string value) :=
  ⟨Node.everyOf_nil, fun _ hk => nomatch hk⟩

instance (value : Float) : Fitting awaits (PropertyKey.number value) :=
  ⟨Node.everyOf_nil, fun _ hk => nomatch hk⟩

instance [Fitting awaits e] : Fitting awaits (PropertyKey.computed e) :=
  ⟨expressionSite, fun _ hk => nomatch hk⟩

/-! ### Patterns -/

section Patterns

theorem pattern_of (hparts : Node.EveryOf Node.Fits awaits (Site.patternParts {} p)) :
    Fitting awaits p :=
  pattern_iff.mpr (Node.every_iff.mpr ⟨trivial, hparts, fun _ hk => nomatch hk⟩)

instance (name : String) : Fitting awaits (Pattern.identifier name) := pattern_of Node.everyOf_nil

instance [Fitting awaits p] [Fitting awaits e] : Fitting awaits (Pattern.withDefault p e) :=
  pattern_of (by simp [Site.patternParts])

instance [Fitting awaits p] : Fitting awaits (Pattern.rest p) :=
  pattern_of (by simp [Site.patternParts])

instance {os : List (Option Pattern)} [Fitting awaits os] : Fitting awaits (Pattern.array os) :=
  pattern_of patterns

instance {ms : List PatternMember} [h : Fitting awaits ms] : Fitting awaits (Pattern.object ms) :=
  pattern_of h.sites

instance {key : PropertyKey} [hkey : Fitting awaits key] [Fitting awaits p] :
    Fitting awaits (PatternMember.mk key p) :=
  ⟨Node.everyOf_append.mpr ⟨hkey.sites, patternSite⟩, fun _ hk => nomatch hk⟩

end Patterns

/-! ### Functions and classes -/

section Functions

variable {f : FunctionNode} {ms : List ClassElement} {key : PropertyKey}

theorem function (hparams : ∀ p ∈ f.params, Fitting f.isAsync p)
    (hbody : ∀ n ∈ f.body.nodes, n.Every Node.Fits f.isAsync) : Fitting awaits f where
  sites := Node.everyOf_nil
  codes := List.forall_mem_singleton.mpr <| List.forall_mem_append.mpr
    ⟨List.forall_mem_map.mpr fun p hp => pattern_iff.mp (hparams p hp), hbody⟩

instance (kind : MethodKind) (isStatic : Bool) [hkey : Fitting awaits key] [hf : Fitting awaits f] :
    Fitting awaits (ClassElement.method kind isStatic key f) :=
  ⟨hkey.sites, hf.codes⟩

theorem field (isStatic : Bool) [hkey : Fitting awaits key] {value : Option Expression}
    [hvalue : Fitting false value] : Fitting awaits (ClassElement.field isStatic key value) := by
  refine ⟨hkey.sites, List.forall_mem_singleton.mpr (List.forall_mem_map.mpr fun e he => ?_)⟩
  exact expression_iff.mp (option_iff.mp hvalue e (Option.mem_toList.mp he))

theorem staticBlock [h : Fitting false ss] : Fitting awaits (ClassElement.staticBlock ss) :=
  ⟨Node.everyOf_nil, List.forall_mem_singleton.mpr (List.forall_mem_map.mpr fun s hs =>
    statement_iff.mp (list_iff.mp h s hs))⟩

theorem propertyKey [h : Fitting awaits key] : Node.EveryOf Node.Fits awaits (c.propertyKey key) := by
  cases key with
  | computed e =>
    have he : (Node.expression e).Every Node.Fits awaits :=
      h.sites (({} : Surroundings).expression e) (.head _) rfl
    exact Node.everyOf_cons.mpr ⟨fun _ => he, Node.everyOf_nil⟩
  | _ => exact Node.everyOf_nil

theorem everyOf_classElement {derived : Bool} {m : ClassElement} [h : Fitting awaits m] :
    Node.EveryOf Node.Fits awaits (c.classElement derived m) := by
  cases m with
  | method kind isStatic key f =>
    have : Fitting awaits key := ⟨h.sites, fun _ hk => nomatch hk⟩
    exact Node.everyOf_append.mpr ⟨propertyKey, Node.everyOf_ownFunction _ _ _⟩
  | field isStatic key value =>
    have : Fitting awaits key := ⟨h.sites, fun _ hk => nomatch hk⟩
    refine Node.everyOf_append.mpr ⟨propertyKey, Node.everyOf_of_mayReturn fun t ht => ?_⟩
    obtain ⟨e, -, rfl⟩ := List.mem_map.mp ht
    rfl
  | staticBlock statements =>
    refine Node.everyOf_of_mayReturn fun t ht => ?_
    obtain ⟨s, -, rfl⟩ := List.mem_map.mp ht
    rfl

instance {name : Option String} {heritage : Option Expression} [Fitting awaits heritage]
    [h : Fitting awaits ms] : Fitting awaits (ClassNode.mk name heritage ms) := by
  refine class_iff.mpr (Node.every_iff.mpr ⟨trivial, Node.everyOf_append.mpr ⟨expressions, ?_⟩, ?_⟩)
  · exact Node.everyOf_flatMap.mpr fun m hm => everyOf_classElement (h := list_iff.mp h m hm)
  · exact List.forall_mem_map.mpr fun m hm => (list_iff.mp h m hm).codes _ (.head _)

instance (kind : MethodKind) (shorthand : Bool) [hkey : Fitting awaits key] [hf : Fitting awaits f] :
    Fitting awaits
      (ObjectMember.mk (Grammar.methodMemberKind kind) key (.function f) shorthand) := by
  constructor
  · refine Node.everyOf_append.mpr ⟨hkey.sites, ?_⟩
    cases kind <;> exact Node.everyOf_ownFunction _ _ _
  · cases kind <;> exact hf.codes

instance (shorthand : Bool) [hkey : Fitting awaits key] [Fitting awaits e] :
    Fitting awaits (ObjectMember.mk .value key e shorthand) :=
  ⟨Node.everyOf_append.mpr ⟨hkey.sites, expressionSite⟩, fun _ hk => nomatch hk⟩

instance (shorthand : Bool) [hkey : Fitting awaits key] [Fitting awaits e] :
    Fitting awaits (ObjectMember.mk .spread key e shorthand) :=
  ⟨Node.everyOf_append.mpr ⟨hkey.sites, expressionSite⟩, fun _ hk => nomatch hk⟩

end Functions

/-! ### Statements -/

section Statements

variable {label : String} {b : Option Statement} {ds : List Declarator}

theorem plainStatement (hrule : (Node.statement s).Fits awaits)
    (hparts : Node.EveryOf Node.Fits awaits (Site.statementParts {} s))
    (hcodes : (Node.statement s).codes = []) : Fitting awaits s :=
  statement_iff.mpr (Node.every_iff.mpr ⟨hrule, hparts, hcodes ▸ fun _ hk => nomatch hk⟩)

/-- A statement with no other right inside it. -/
theorem leaf (hinner : s.inner = [])
    (hparts : Node.EveryOf Node.Fits awaits (Site.statementParts {} s))
    (hcodes : (Node.statement s).codes = []) : Fitting awaits s :=
  plainStatement (show ∀ t ∈ s.inner, _ by rw [hinner]; exact nofun) hparts hcodes

/-- The statement in another one is no declaration of a function. -/
theorem fits_of_plain {t : Statement} (hinner : s.inner = [t]) [ht : t.Plain] :
    (Node.statement s).Fits awaits := by
  show ∀ t ∈ s.inner, _
  rw [hinner]
  exact List.forall_mem_singleton.mpr fun h => by simp [ht.isFunction] at h

instance : Fitting awaits Statement.empty := leaf rfl Node.everyOf_nil rfl

instance : Fitting awaits Statement.debugger := leaf rfl Node.everyOf_nil rfl

instance (label : Option String) : Fitting awaits (Statement.break label) :=
  leaf rfl Node.everyOf_nil rfl

instance (label : Option String) : Fitting awaits (Statement.continue label) :=
  leaf rfl Node.everyOf_nil rfl

instance [Fitting awaits e] : Fitting awaits (Statement.expression e) :=
  leaf rfl (expressionSite) rfl

instance [Fitting awaits e] : Fitting awaits (Statement.throw e) :=
  leaf rfl (expressionSite) rfl

instance {value : Option Expression} [Fitting awaits value] :
    Fitting awaits (Statement.return value) :=
  leaf rfl expressions rfl

instance [Fitting awaits ss] : Fitting awaits (Statement.block ss) :=
  leaf rfl statements rfl

instance {init : Option Expression} [Fitting awaits p] [Fitting awaits init] :
    Fitting awaits (Declarator.mk p init) :=
  ⟨Node.everyOf_cons.mpr ⟨fun _ => pattern, expressions⟩, fun _ hk => nomatch hk⟩

instance (kind : DeclarationKind) [h : Fitting awaits ds] :
    Fitting awaits (Statement.declaration kind ds) :=
  leaf rfl h.sites rfl

instance [Fitting awaits e] [Fitting awaits s] [s.Plain] : Fitting awaits (Statement.if e s none) :=
  plainStatement (fits_of_plain rfl) (by simp [Site.statementParts]) rfl

instance {b : Statement} [Fitting awaits e] [Fitting awaits s] [hs : s.Plain] [Fitting awaits b]
    [hb : b.Plain] : Fitting awaits (Statement.if e s (some b)) := by
  refine plainStatement ?_ (by simp [Site.statementParts]) rfl
  exact List.forall_mem_cons.mpr ⟨by simp [hs.isFunction], by simp [hb.isFunction]⟩

instance [Fitting awaits e] [Fitting awaits s] [s.Plain] : Fitting awaits (Statement.while e s) :=
  plainStatement (fits_of_plain rfl) (by simp [Site.statementParts]) rfl

instance [Fitting awaits e] [Fitting awaits s] [s.Plain] : Fitting awaits (Statement.doWhile s e) :=
  plainStatement (fits_of_plain rfl) (by simp [Site.statementParts]) rfl

instance {init : Option ForInit} {test update : Option Expression} [hinit : Fitting awaits init]
    [Fitting awaits test] [Fitting awaits update] [Fitting awaits s] [s.Plain] :
    Fitting awaits (Statement.for init test update s) :=
  plainStatement (fits_of_plain rfl) (by
    have := hinit.sites
    simpa [Site.statementParts]) rfl

instance {head : ForHead} [hhead : Fitting awaits head] [Fitting awaits e] [Fitting awaits s]
    [s.Plain] : Fitting awaits (Statement.forIn head e s) :=
  plainStatement (fits_of_plain rfl)
    (Node.everyOf_append.mpr ⟨hhead.sites, by simp⟩) rfl

instance {head : ForHead} [hhead : Fitting awaits head] [Fitting awaits e] [Fitting awaits s]
    [s.Plain] : Fitting awaits (Statement.forOf head e s) :=
  plainStatement (fits_of_plain rfl)
    (Node.everyOf_append.mpr ⟨hhead.sites, by simp⟩) rfl

instance [Fitting awaits e] [Fitting awaits s] [s.Plain] : Fitting awaits (Statement.with e s) :=
  plainStatement (fits_of_plain rfl) (by simp [Site.statementParts]) rfl

/-- Behind a label anything may stand. -/
instance (label : String) [Fitting awaits s] : Fitting awaits (Statement.labeled label s) :=
  plainStatement (fun _ _ _ => rfl) (by simp [Site.statementParts]) rfl

instance {f : FunctionNode} [h : Fitting awaits f] : Fitting awaits (Statement.function f) :=
  statement_iff.mpr (Node.every_iff.mpr
    ⟨show ∀ t ∈ [], _ from nofun, Node.everyOf_ownFunction _ _ _, h.codes⟩)

instance [Fitting awaits k] : Fitting awaits (Statement.class k) :=
  leaf rfl (by simp [Site.statementParts]) rfl

instance (kind : DeclarationKind) [h : Fitting awaits ds] :
    Fitting awaits (ForInit.declaration kind ds) :=
  ⟨h.sites, fun _ hk => nomatch hk⟩

instance [Fitting awaits e] : Fitting awaits (ForInit.expression e) :=
  ⟨expressionSite, fun _ hk => nomatch hk⟩

instance (kind : DeclarationKind) [Fitting awaits p] : Fitting awaits (ForHead.declaration kind p) :=
  ⟨patternSite, fun _ hk => nomatch hk⟩

instance [Fitting awaits e] : Fitting awaits (ForHead.target e) :=
  ⟨expressionSite, fun _ hk => nomatch hk⟩

instance {param : Option Pattern} [Fitting awaits param] [Fitting awaits ss] :
    Fitting awaits (CatchClause.mk param ss) :=
  ⟨Node.everyOf_append.mpr ⟨patterns, statements⟩, fun _ hk => nomatch hk⟩

instance {handler : Option CatchClause} {finalizer : Option (List Statement)} [Fitting awaits ss]
    [hhandler : Fitting awaits handler] [hfinalizer : Fitting awaits finalizer] :
    Fitting awaits (Statement.try ss handler finalizer) := by
  have : Fitting awaits (finalizer.getD []) := by
    cases finalizer with
    | none => exact list_iff.mpr nofun
    | some final => exact option_iff.mp hfinalizer final rfl
  exact leaf rfl (Node.everyOf_append.mpr
    ⟨Node.everyOf_append.mpr ⟨statements, hhandler.sites⟩, statements⟩) rfl

theorem everyOf_switchCase {k : SwitchCase} [h : Fitting awaits k] :
    Node.EveryOf Node.Fits awaits (c.switchCase k) := by
  obtain ⟨test, body⟩ := k
  obtain ⟨htest, hbody⟩ := Node.everyOf_append.mp h.sites
  exact Node.everyOf_append.mpr ⟨Node.everyOf_map.mpr fun e he _ => Node.everyOf_map.mp htest e he rfl,
    Node.everyOf_map.mpr fun s hs _ => Node.everyOf_map.mp hbody s hs rfl⟩

instance {test : Option Expression} [Fitting awaits test] [Fitting awaits ss] :
    Fitting awaits (SwitchCase.mk test ss) :=
  ⟨Node.everyOf_append.mpr ⟨expressions, statements⟩, fun _ hk => nomatch hk⟩

instance {ks : List SwitchCase} [Fitting awaits e] [h : Fitting awaits ks] :
    Fitting awaits (Statement.switch e ks) :=
  leaf rfl (Node.everyOf_cons.mpr ⟨fun _ => expression,
    Node.everyOf_flatMap.mpr fun k hk => everyOf_switchCase (h := list_iff.mp h k hk)⟩) rfl

end Statements

/-! ### Groups -/

instance (comma : Bool) [Fitting awaits e] : Fitting awaits (Grammar.Grouped.value e comma) :=
  ⟨expressionSite, fun _ hk => nomatch hk⟩

instance [Fitting awaits p] : Fitting awaits (Grammar.Grouped.rest p) :=
  ⟨patternSite, fun _ hk => nomatch hk⟩

end Fitting

end EcmaEval
