import Mathlib.Data.Set.Lattice
import EcmaEval.Eval.Class
import EcmaEval.Library.Object
import EcmaEval.Proofs.Syntax.Rules

/-!
# Facts about machines

What a value says about the machine that it belongs to: the objects and the frames that it names are
there.  Facts like these are what a run relies on.  A run never makes one of them untrue, so what is
known at one point of a run is known at all later ones.

An object that is being built is at its place, but nothing names it yet: the functions that it is
the home of only know its place.  That is a weaker fact than the one that a value states.

Code that runs in a frame mentions the calls of the parent constructor in it, which have to belong to
a constructor whose code is around that frame.  A call inside a function with a `this` of its own
belongs to none, so code that holds one mentions what is true of no frame.

## Main definitions

* `Fact`: what may be known about a machine
* `facts`: the facts that something mentions
* `Framed`: what is written, with the frame that it runs in
* `Knowledge`: the facts that are known at one point of a run
* `Shown`: all facts that something mentions are known
-/

namespace EcmaEval

/-- What may be known about a machine. -/
inductive Fact where
  /-- The object is there, and may be named. -/
  | object (id : ObjectId)
  /-- The object is there. -/
  | place (id : ObjectId)
  | frame (id : FrameId)
  /-- The frame takes the variables that are declared in it. -/
  | root (id : FrameId)
  /-- The frame that takes the variables of `scope` binds the name. -/
  | owns (scope : FrameId) (name : String)
  /-- The name may be added to the frame. -/
  | free (id : FrameId) (name : String)
  /-- The functions of suites may be there. -/
  | suites
  /-- The parent constructor may be called in the frame with these arguments. -/
  | calls (scope : FrameId) (args : List Expression)

/-- The type of things that mention facts. -/
class HasFacts (α : Type) where
  /-- The facts that a thing mentions. -/
  facts : α → Set Fact

export HasFacts (facts)

/-! ## Code -/

/-- The type of something that is written, and so lies in sites, whatever surrounds it. -/
class HasSites (α : Type) where
  sites : α → Surroundings → List Site

export HasSites (sites)

section Sites

variable {α : Type}

instance : HasSites Expression := ⟨fun e c => [c.expression e]⟩

instance : HasSites Pattern := ⟨fun p c => [c.pattern p]⟩

instance : HasSites Statement := ⟨fun s c => [c.statement s]⟩

instance : HasSites ClassNode := ⟨fun k c => [c.class k]⟩

instance : HasSites MemberKey := ⟨fun key c => c.memberKey key⟩

instance : HasSites PropertyKey := ⟨fun key c => c.propertyKey key⟩

instance : HasSites ObjectMember := ⟨fun m c => [c.expression (.object [m])]⟩

instance : HasSites FunctionNode := ⟨fun f c => c.arrow f⟩

instance : HasSites FunctionBody := ⟨fun body c => c.functionBody body⟩

/-- A constructor is no code of the class that it is in. -/
instance : HasSites ClassElement :=
  ⟨fun element c => if Grammar.isConstructor element then [] else [c.class ⟨none, none, [element]⟩]⟩

instance : HasSites Declarator := ⟨fun d c => c.declarator d⟩

instance : HasSites ForInit := ⟨fun init c => c.forInit init⟩

instance : HasSites ForHead := ⟨fun head c => c.forHead head⟩

instance : HasSites CatchClause := ⟨fun h c => c.handler h⟩

instance : HasSites SwitchCase := ⟨fun k c => c.switchCase k⟩

variable [HasSites α]

instance : HasSites (Option α) := ⟨fun x c => x.toList.flatMap (sites · c)⟩

instance : HasSites (List α) := ⟨fun xs c => xs.flatMap (sites · c)⟩

end Sites

/-- What is written, with the frame that it runs in. -/
structure Framed (α : Type) where
  /-- There is none where no code of a constructor is around. -/
  frame : Option FrameId
  phrase : α

section Framed

variable {α : Type} [HasSites α]

/-- The facts that stray calls of the parent constructor mention: they may be in any frame. -/
def strayFacts (x : α) : Set Fact :=
  {f | ∃ scope args, f = .calls scope args ∧ ∀ c, ∃ s ∈ sites x c, s.StraysSuper args}

/-- The facts that code mentions. -/
instance : HasFacts (Framed α) :=
  ⟨fun code => strayFacts code.phrase ∪
    {f | ∃ scope args, f = .calls scope args ∧ (∀ frame ∈ code.frame, frame = scope) ∧
      ∀ c, ∃ s ∈ sites code.phrase c, s.CallsSuper args}⟩

end Framed

/-! ## What mentions facts -/

section Instances

variable {α β : Type}

/-- Most things mention nothing. -/
instance (priority := low) noFacts : HasFacts α := ⟨fun _ => ∅⟩

instance : HasFacts ObjectId := ⟨fun id => {.object id, .place id}⟩

instance : HasFacts FrameId := ⟨fun id => {.frame id}⟩

/-- The facts that a value mentions. -/
def Value.facts : Value → Set Fact
  | .object id => HasFacts.facts id
  | _ => ∅

instance : HasFacts Value := ⟨Value.facts⟩

variable [HasFacts α] [HasFacts β]

/-- The facts that an optional thing mentions. -/
def factsOfOption : Option α → Set Fact
  | none => ∅
  | some x => facts x

instance : HasFacts (Option α) := ⟨factsOfOption⟩

instance : HasFacts (List α) := ⟨fun xs => ⋃ x ∈ xs, facts x⟩

instance : HasFacts (Array α) := ⟨fun xs => facts xs.toList⟩

instance : HasFacts (α × β) := ⟨fun p => facts p.1 ∪ facts p.2⟩

/-- The facts that a result or an error mentions. -/
def factsOfExcept : Except α β → Set Fact
  | .error e => facts e
  | .ok x => facts x

instance : HasFacts (Except α β) := ⟨factsOfExcept⟩

/-- The facts that a step of a loop mentions. -/
def factsOfStep : ForInStep α → Set Fact
  | .done x | .yield x => facts x

instance : HasFacts (ForInStep α) := ⟨factsOfStep⟩

instance : HasFacts (NameMap α) := ⟨fun m => {f | ∃ name x, m.get? name = some x ∧ f ∈ facts x}⟩

/-- The facts that the home of a function mentions, which may be still in the making. -/
def homeFacts : Option ObjectId → Set Fact
  | none => ∅
  | some id => {.place id}

/-- The facts that a property mentions. -/
def Property.facts : Property → Set Fact
  | .data v _ _ => HasFacts.facts v
  | .accessor getter setter _ => HasFacts.facts getter ∪ HasFacts.facts setter

instance : HasFacts Property := ⟨Property.facts⟩

instance : HasFacts PropertyTable := ⟨fun t => facts t.values⟩

/-- The facts that a settlement mentions. -/
def Settlement.facts : Settlement → Set Fact
  | .fulfilled v | .rejected v => HasFacts.facts v

instance : HasFacts Settlement := ⟨Settlement.facts⟩

instance : HasFacts Reaction := ⟨fun r => facts r.onFulfilled ∪ facts r.onRejected ∪ facts r.derived⟩

/-- The facts that the state of a promise mentions. -/
def PromiseState.facts : PromiseState → Set Fact
  | .pending _ reactions => HasFacts.facts reactions
  | .settled outcome => HasFacts.facts outcome

instance : HasFacts PromiseState := ⟨PromiseState.facts⟩

/-! ### Parts of classes

They have a `this` of their own. -/

instance : HasFacts FieldDefinition := ⟨fun field => facts (Framed.mk none field.initializer)⟩

instance : HasFacts MethodDefinition := ⟨fun m => facts (Framed.mk none m.node)⟩

/-- The facts that a static part of a class mentions. -/
def StaticElement.facts : StaticElement → Set Fact
  | .field _ initializer => HasFacts.facts (Framed.mk none initializer)
  | .block statements => HasFacts.facts (Framed.mk none statements)

instance : HasFacts StaticElement := ⟨StaticElement.facts⟩

instance : HasFacts ClassParts := ⟨fun p => facts p.fields ∪ facts p.methods ∪ facts p.statics⟩

/-- The code of a constructor runs in frames that are made for it. -/
instance : HasFacts ClassDefinition :=
  ⟨fun d => facts d.parent ∪ facts d.prototype ∪ facts d.scope ∪
    (strayFacts d.constructor? ∪ facts d.fields)⟩

/-- The facts that a function of a suite mentions. -/
def SuiteFunction.facts : SuiteFunction → Set Fact
  | .check _ _ actual _ => {.suites} ∪ HasFacts.facts actual
  | _ => {.suites}

instance : HasFacts SuiteFunction := ⟨SuiteFunction.facts⟩

/-- The facts that a native function mentions. -/
def Native.facts : Native → Set Fact
  | .builtin _ | .host _ => ∅
  | .resolver promise _ => HasFacts.facts promise
  | .afterwards callback _ => HasFacts.facts callback
  | .suite f => HasFacts.facts f

instance : HasFacts Native := ⟨Native.facts⟩

/-- The facts that the body of a function object mentions.  An arrow function runs with the `this`
around it. -/
def Callable.facts : Callable → Set Fact
  | .closure node scope home => HasFacts.facts scope ∪ homeFacts home ∪
    HasFacts.facts (Framed.mk (if node.isArrow then some scope else none) node)
  | .class d => HasFacts.facts d
  | .native f => HasFacts.facts f
  | .bound target receiver args =>
    HasFacts.facts target ∪ HasFacts.facts receiver ∪ HasFacts.facts args

instance : HasFacts Callable := ⟨Callable.facts⟩

/-- The facts that the kind of an object mentions. -/
def ObjectKind.facts : ObjectKind → Set Fact
  | .ordinary | .error => ∅
  | .array elements => HasFacts.facts elements
  | .function body => HasFacts.facts body
  | .promise state => HasFacts.facts state

instance : HasFacts ObjectKind := ⟨ObjectKind.facts⟩

instance : HasFacts Object := ⟨fun o => facts o.kind ∪ facts o.prototype ∪ facts o.properties⟩

instance : HasFacts Binding := ⟨fun b => facts b.value⟩

instance : HasFacts Bindings :=
  ⟨fun b => {f | ∃ name x, b.get? name = some x ∧ f ∈ facts x}⟩

/-- The facts that the receiver of a frame mentions. -/
def ThisBinding.facts : ThisBinding → Set Fact
  | .bound v => HasFacts.facts v
  | .uninitialized => ∅

instance : HasFacts ThisBinding := ⟨ThisBinding.facts⟩

instance : HasFacts SuperCall := ⟨fun c => facts c.definition ∪ facts c.newTarget⟩

instance : HasFacts Frame :=
  ⟨fun f => facts f.bindings ∪ facts f.parent ∪ facts f.this ∪ facts f.superCall ∪
    homeFacts f.home⟩

instance : HasFacts Realm :=
  ⟨fun r => facts [r.globalFrame, r.programFrame] ∪
    facts [r.objectPrototype, r.functionPrototype, r.arrayPrototype, r.stringPrototype,
      r.numberPrototype, r.booleanPrototype, r.bigintPrototype, r.promisePrototype,
      r.errorPrototype, r.typeErrorPrototype, r.referenceErrorPrototype, r.rangeErrorPrototype,
      r.syntaxErrorPrototype] ∪ {.root r.globalFrame, .root r.programFrame}⟩

/-- The facts that a signal mentions. -/
def Signal.facts : Signal → Set Fact
  | .return v | .suspend v => HasFacts.facts v
  | .break _ | .continue _ => ∅

instance : HasFacts Signal := ⟨Signal.facts⟩

/-- The facts that a place mentions. -/
def Reference.facts : Reference → Set Fact
  | .property base _ => HasFacts.facts base
  | .binding _ | .superProperty _ => ∅

instance : HasFacts Reference := ⟨Reference.facts⟩

instance : HasFacts Engine.Attributes :=
  ⟨fun a => facts a.value ∪ facts a.getter ∪ facts a.setter⟩

/-- The facts that the reason of an end mentions. -/
def Abrupt.facts : Abrupt → Set Fact
  | .thrown v => HasFacts.facts v
  | .broken _ | .exhausted => ∅

instance : HasFacts Abrupt := ⟨Abrupt.facts⟩

end Instances

/-! ## Knowledge -/

/-- What is known at one point of a run. -/
structure Knowledge where
  known : Set Fact
  /-- The objects that are being built, which nothing names. -/
  hidden : Set ObjectId

namespace Knowledge

variable {α : Type} [HasFacts α]

/-- The knowledge together with other facts. -/
def plus (K : Knowledge) (F : Set Fact) : Knowledge := { K with known := K.known ∪ F }

/-- The knowledge together with the facts that a thing mentions. -/
def and (K : Knowledge) (x : α) : Knowledge := K.plus (facts x)

theorem known_and_subset {K K' : Knowledge} (h : K.known ⊆ K'.known) (x : α) :
    (K.and x).known ⊆ (K'.and x).known :=
  Set.union_subset_union_left _ h

/-- The knowledge while an object is being built. -/
def conceal (K : Knowledge) (id : ObjectId) : Knowledge where
  known := K.known ∪ {.place id}
  hidden := insert id K.hidden

/-- What is known of a new frame that has no `this` of its own, in the frame `outer`. -/
def insideFacts (K : Knowledge) (outer id : FrameId) : Set Fact :=
  {f | ∃ args, f = .calls id args ∧ .calls outer args ∈ K.known}

/-- What is known of a new block in the frame `outer`. -/
def blockFacts (K : Knowledge) (outer id : FrameId) : Set Fact :=
  {.frame id} ∪ {f | ∃ name, f = .free id name} ∪
    {f | ∃ name, f = .owns id name ∧ .owns outer name ∈ K.known} ∪ K.insideFacts outer id

/-- What is known of a new frame that takes variables. -/
def rootFacts (id : FrameId) : Set Fact := {.frame id, .root id} ∪ {f | ∃ name, f = .free id name}

/-- What is known of a new frame for the code of a function. -/
def codeFacts (node : FunctionNode) (id : FrameId) : Set Fact :=
  rootFacts id ∪ facts (Framed.mk (some id) node)

/-- The knowledge inside a new block of the frame `outer`. -/
def inBlock (K : Knowledge) (outer id : FrameId) : Knowledge := K.plus (K.blockFacts outer id)

/-- The knowledge inside a new frame that takes variables of its own. -/
def inFrame (K : Knowledge) (id : FrameId) : Knowledge := K.plus (rootFacts id)

end Knowledge

/-- All facts that a thing mentions are known. -/
class Shown (K : Knowledge) {α : Type} [HasFacts α] (x : α) : Prop where
  facts_subset : facts x ⊆ K.known

/-- The home of a function is known to be at its place. -/
class Placed (K : Knowledge) (home : Option ObjectId) : Prop where
  facts_subset : homeFacts home ⊆ K.known

/-- What the constructor of a class mentions is known, apart from its own calls. -/
class Constructs (K : Knowledge) (constructor? : Option FunctionNode) : Prop where
  facts_subset : strayFacts constructor? ⊆ K.known

/-- The first thing mentions all facts that the second one mentions. -/
class Covers {α β : Type} [HasFacts α] [HasFacts β] (x : α) (y : β) : Prop where
  facts_subset : facts y ⊆ facts x

/-- The things of a type mention nothing. -/
class Plain (α : Type) [HasFacts α] : Prop where
  facts_eq : ∀ x : α, facts x = ∅

instance (priority := low) plain_noFacts {α : Type} : @Plain α noFacts := ⟨fun _ => rfl⟩

section Lists

variable {α : Type} [HasFacts α]

@[simp] theorem facts_nil : facts ([] : List α) = ∅ := by
  simp [facts]

@[simp] theorem facts_cons (x : α) (xs : List α) : facts (x :: xs) = facts x ∪ facts xs := by
  simp [facts]

theorem facts_subset_iff_forall_mem {xs : List α} {F : Set Fact} :
    facts xs ⊆ F ↔ ∀ x ∈ xs, facts x ⊆ F :=
  Set.iUnion₂_subset_iff

theorem facts_subset_of_mem {x : α} {xs : List α} (h : x ∈ xs) : facts x ⊆ facts xs :=
  facts_subset_iff_forall_mem.mp Set.Subset.rfl x h

end Lists

/-! ### Plain things -/

section Plain

variable {α β : Type} [HasFacts α] [HasFacts β]

instance [hα : Plain α] : Plain (Option α) := by
  refine ⟨fun x => ?_⟩
  cases x with
  | none => rfl
  | some x => exact hα.facts_eq x

instance [hα : Plain α] : Plain (List α) :=
  ⟨fun _ => Set.subset_empty_iff.mp
    (facts_subset_iff_forall_mem.mpr fun x _ => (hα.facts_eq x).subset)⟩

end Plain

namespace Shown

variable {K : Knowledge} {α β : Type} [HasFacts α] [HasFacts β]

theorem of_empty {x : α} (h : facts x = ∅) : Shown K x := ⟨h.subset.trans (Set.empty_subset _)⟩

/-- What is mentioned by something known. -/
theorem covered (x : α) [hx : Shown K x] {y : β} [hxy : Covers x y] : Shown K y :=
  ⟨hxy.facts_subset.trans hx.facts_subset⟩

/-- What is mentioned by a part of something known. -/
theorem part {x : α} (h : Shown K x) {y : β} [Covers x y] : Shown K y := .covered x

theorem union {x : α} {F G : Set Fact} (h : facts x = F ∪ G) (hF : F ⊆ K.known)
    (hG : G ⊆ K.known) : Shown K x :=
  ⟨h.subset.trans (Set.union_subset hF hG)⟩

instance [hα : Plain α] (x : α) : Shown K x := of_empty (hα.facts_eq x)

/-! ### What was known before -/

variable {γ : Type} [HasFacts γ]

instance (priority := low) and_left (x : α) (y : γ) [hy : Shown K y] : Shown (K.and x) y :=
  ⟨hy.facts_subset.trans Set.subset_union_left⟩

instance and_right (x : α) (y : γ) [hxy : Covers x y] : Shown (K.and x) y :=
  ⟨hxy.facts_subset.trans Set.subset_union_right⟩

instance (priority := low) plus (F : Set Fact) (y : γ) [hy : Shown K y] : Shown (K.plus F) y :=
  ⟨hy.facts_subset.trans Set.subset_union_left⟩

instance (priority := low) conceal (id : ObjectId) (y : γ) [hy : Shown K y] :
    Shown (K.conceal id) y :=
  ⟨hy.facts_subset.trans Set.subset_union_left⟩

instance (priority := low) inBlock (outer id : FrameId) (y : γ) [hy : Shown K y] :
    Shown (K.inBlock outer id) y :=
  ⟨hy.facts_subset.trans Set.subset_union_left⟩

instance inBlock_self (outer id : FrameId) : Shown (K.inBlock outer id) id :=
  ⟨fun _ h => .inr (.inl (.inl (.inl h)))⟩

instance (priority := low) inFrame (id : FrameId) (y : γ) [hy : Shown K y] :
    Shown (K.inFrame id) y :=
  ⟨hy.facts_subset.trans Set.subset_union_left⟩

instance inFrame_self (id : FrameId) : Shown (K.inFrame id) id :=
  ⟨fun _ h => .inr (.inl (.inl h))⟩

/-! ### Code -/

variable {δ : Type} [HasSites δ]

/-- Code that belongs to no constructor may run in any frame. -/
instance (priority := low) code_of_none (frame : Option FrameId) (x : δ)
    [h : Shown K (Framed.mk none x)] : Shown K (Framed.mk frame x) :=
  ⟨fun _ hf => h.facts_subset <| hf.imp_right fun ⟨scope, args, heq, _, hcalls⟩ =>
    ⟨scope, args, heq, nofun, hcalls⟩⟩

/-- Code that runs in a frame runs as well in a new one that has no `this` of its own. -/
theorem code_subset_inside (outer id : FrameId) (x : δ) [h : Shown K (Framed.mk (some outer) x)] :
    facts (Framed.mk (some id) x) ⊆ K.known ∪ K.insideFacts outer id := by
  refine Set.union_subset (fun _ hf => .inl (h.facts_subset (.inl hf))) ?_
  rintro _ ⟨scope, args, rfl, hscope, hcalls⟩
  obtain rfl := hscope id rfl
  refine .inr ⟨args, rfl, h.facts_subset (.inr ⟨outer, args, rfl, ?_, hcalls⟩)⟩
  exact fun _ hframe => (Option.some.inj hframe).symm

/-- The code of a block runs where the block is. -/
instance code_inBlock (outer id : FrameId) (x : δ) [h : Shown K (Framed.mk (some outer) x)] :
    Shown (K.inBlock outer id) (Framed.mk (some id) x) :=
  ⟨(code_subset_inside outer id x).trans
    (Set.union_subset_union_right _ Set.subset_union_right)⟩

/-! ### Values -/

instance (id : ObjectId) [h : Shown K id] : Shown K (Value.object id) := ⟨h.facts_subset⟩

instance : Shown K Value.undefined := of_empty rfl

instance : Shown K Value.null := of_empty rfl

instance (b : Bool) : Shown K (Value.boolean b) := of_empty rfl

instance (x : Float) : Shown K (Value.number x) := of_empty rfl

instance (s : UnitString) : Shown K (Value.string s) := of_empty rfl

instance (n : Int) : Shown K (Value.bigint n) := of_empty rfl

instance (s : String) : Shown K (Value.ofText s) := of_empty rfl

instance (n : Nat) : Shown K (Value.ofNat n) := of_empty rfl

instance (n : Numeric) : Shown K n.toValue := by
  cases n <;> exact of_empty rfl

/-! ### Options, pairs and results -/

instance : Shown K (none : Option α) := of_empty rfl

instance (x : α) [h : Shown K x] : Shown K (some x) := ⟨h.facts_subset⟩

instance (x : Option α) (d : α) [hx : Shown K x] [hd : Shown K d] : Shown K (x.getD d) := by
  cases x with
  | none => exact hd
  | some x => exact ⟨hx.facts_subset⟩

instance (x y : Option α) [hx : Shown K x] [hy : Shown K y] : Shown K (x.or y) := by
  cases x with
  | none => exact hy
  | some x => exact hx

instance (x : Option α) (p : α → Bool) [hx : Shown K x] : Shown K (x.filter p) := by
  cases x with
  | none => exact hx
  | some x =>
    simp only [Option.filter_some]
    split
    · exact hx
    · infer_instance

instance (x : Option (α × β)) [hx : Shown K x] : Shown K (x.map Prod.snd) := by
  cases x with
  | none => exact of_empty rfl
  | some x => exact ⟨Set.subset_union_right.trans hx.facts_subset⟩

instance (x : α) (y : β) [hx : Shown K x] [hy : Shown K y] : Shown K (x, y) :=
  union rfl hx.facts_subset hy.facts_subset

instance (x : β) [h : Shown K x] : Shown K (Except.ok x : Except α β) := ⟨h.facts_subset⟩

instance (e : α) [h : Shown K e] : Shown K (Except.error e : Except α β) := ⟨h.facts_subset⟩

instance (x : α) [h : Shown K x] : Shown K (ForInStep.done x) := ⟨h.facts_subset⟩

instance (x : α) [h : Shown K x] : Shown K (ForInStep.yield x) := ⟨h.facts_subset⟩

instance {p : Prop} [Decidable p] (x y : α) [Shown K x] [Shown K y] :
    Shown K (if p then x else y) := by
  split <;> infer_instance

/-- What is known may be more than what is needed. -/
theorem mono {K' : Knowledge} {x : α} (h : Shown K x) (hknown : K.known ⊆ K'.known) : Shown K' x :=
  ⟨h.facts_subset.trans hknown⟩

/-- What is shown by something known is known. -/
theorem of_and (x : γ) [hx : Shown K x] {y : α} (h : Shown (K.and x) y) : Shown K y :=
  ⟨h.facts_subset.trans (Set.union_subset Set.Subset.rfl hx.facts_subset)⟩

/-! ### Lists -/

theorem list_iff {xs : List α} : Shown K xs ↔ ∀ x ∈ xs, Shown K x :=
  ⟨fun h x hx => ⟨facts_subset_iff_forall_mem.mp h.facts_subset x hx⟩,
    fun h => ⟨facts_subset_iff_forall_mem.mpr fun x hx => (h x hx).facts_subset⟩⟩

/-- A list all of whose elements are in a known one. -/
theorem sublist {xs ys : List α} [h : Shown K xs] (hys : ∀ y ∈ ys, y ∈ xs) : Shown K ys :=
  list_iff.mpr fun y hy => list_iff.mp h y (hys y hy)

theorem array_iff {xs : Array α} : Shown K xs ↔ Shown K xs.toList :=
  ⟨fun h => ⟨h.facts_subset⟩, fun h => ⟨h.facts_subset⟩⟩

/-- An array all of whose elements are in a known one. -/
theorem subarray {xs ys : Array α} [h : Shown K xs] (hys : ∀ y ∈ ys, y ∈ xs) : Shown K ys :=
  have := array_iff.mp h
  array_iff.mpr <| sublist fun y hy => Array.mem_toList_iff.mpr (hys y (Array.mem_toList_iff.mp hy))

theorem array_of_mem {xs : Array α} (h : ∀ x ∈ xs, Shown K x) : Shown K xs :=
  array_iff.mpr <| list_iff.mpr fun x hx => h x (Array.mem_toList_iff.mp hx)

theorem of_mem {xs : Array α} [h : Shown K xs] {x : α} (hx : x ∈ xs) : Shown K x :=
  list_iff.mp (array_iff.mp h) x (Array.mem_toList_iff.mpr hx)

instance : Shown K ([] : List α) := of_empty facts_nil

instance (x : α) (xs : List α) [hx : Shown K x] [hxs : Shown K xs] : Shown K (x :: xs) :=
  union (facts_cons x xs) hx.facts_subset hxs.facts_subset

instance (xs ys : List α) [hxs : Shown K xs] [hys : Shown K ys] : Shown K (xs ++ ys) :=
  list_iff.mpr fun x hx => (List.mem_append.mp hx).elim (list_iff.mp hxs x) (list_iff.mp hys x)

instance (xs : List α) (n : Nat) [Shown K xs] : Shown K (xs.drop n) :=
  sublist fun _ => List.mem_of_mem_drop

instance (xs : List α) (n : Nat) [Shown K xs] : Shown K (xs.take n) :=
  sublist fun _ => List.mem_of_mem_take

instance (xs : List α) (p : α → Bool) [Shown K xs] : Shown K (xs.filter p) :=
  sublist fun _ hx => (List.mem_filter.mp hx).1

instance (xs : List α) (i : Nat) [h : Shown K xs] : Shown K xs[i]? := by
  cases hx : xs[i]? with
  | none => infer_instance
  | some x =>
    have := list_iff.mp h x (List.mem_of_getElem? hx)
    infer_instance

instance (xs : List γ) (f : γ → α) [hf : ∀ x, Shown K (f x)] : Shown K (xs.map f) :=
  list_iff.mpr fun y hy => by
    obtain ⟨x, -, rfl⟩ := List.mem_map.mp hy
    exact hf x

instance (args : List Value) (i : Nat) [h : Shown K args] : Shown K (Value.argument args i) := by
  have : Shown K args[i]? := inferInstance
  unfold Value.argument
  rw [List.getD_eq_getElem?_getD]
  infer_instance

/-! ### Arrays -/

instance (xs : Array α) [h : Shown K xs] : Shown K xs.toList := array_iff.mp h

instance (xs : List α) [h : Shown K xs] : Shown K xs.toArray := ⟨h.facts_subset⟩

instance : Shown K (#[] : Array α) := array_iff.mpr inferInstance

instance (x : α) [Shown K x] : Shown K #[x] := inferInstanceAs (Shown K [x].toArray)

instance (x y : α) [Shown K x] [Shown K y] : Shown K #[x, y] :=
  inferInstanceAs (Shown K [x, y].toArray)

instance (xs : Array α) (x : α) [hxs : Shown K xs] [hx : Shown K x] : Shown K (xs.push x) :=
  array_of_mem fun y hy => by
    rcases Array.mem_push.mp hy with hy | rfl
    · exact of_mem hy
    · exact hx

instance (xs ys : Array α) [hxs : Shown K xs] [hys : Shown K ys] : Shown K (xs ++ ys) :=
  array_of_mem fun _ hx => (Array.mem_append.mp hx).elim (fun h => of_mem h) fun h => of_mem h

instance (xs : Array α) (i j : Nat) [Shown K xs] : Shown K (xs.extract i j) :=
  subarray fun y hy => by
    obtain ⟨k, hk, rfl⟩ := Array.mem_iff_getElem.mp hy
    rw [Array.getElem_extract]
    exact Array.getElem_mem _

instance (xs : Array α) [Shown K xs] : Shown K xs.pop :=
  subarray fun y hy => by
    obtain ⟨k, hk, rfl⟩ := Array.mem_iff_getElem.mp hy
    rw [Array.getElem_pop]
    exact Array.getElem_mem _

instance (xs : Array α) [Shown K xs] : Shown K xs.reverse :=
  subarray fun _ hy => Array.mem_reverse.mp hy

instance (n : Nat) (x : α) [hx : Shown K x] : Shown K (Array.replicate n x) :=
  array_of_mem fun _ hy => (Array.mem_replicate.mp hy).2 ▸ hx

instance (xs : Array α) (i : Nat) [Shown K xs] : Shown K xs[i]? := by
  cases hx : xs[i]? with
  | none => infer_instance
  | some x =>
    have := of_mem (K := K) (Array.mem_of_getElem? hx)
    infer_instance

instance (xs : Option (Array α)) (i : Nat) [hxs : Shown K xs] : Shown K (xs.bind (·[i]?)) := by
  cases xs with
  | none => exact of_empty rfl
  | some xs =>
    have : Shown K xs := ⟨hxs.facts_subset⟩
    exact inferInstanceAs (Shown K xs[i]?)

instance (xs : Array α) [Shown K xs] : Shown K xs.back? := by
  rw [Array.back?_eq_getElem?]
  infer_instance

/-! ### What is made of parts -/

section Parts

variable (v : Value) (f : Value) (b : Bool)

instance (w e : Bool) [h : Shown K v] : Shown K (Property.data v w e) := ⟨h.facts_subset⟩

instance [h : Shown K v] : Shown K (Property.plain v) := ⟨h.facts_subset⟩

instance [h : Shown K v] : Shown K (Property.hidden v) := ⟨h.facts_subset⟩

instance [h : Shown K v] : Shown K (Property.fixed v) := ⟨h.facts_subset⟩

instance (getter setter : Option Value) (e : Bool) [hg : Shown K getter] [hs : Shown K setter] :
    Shown K (Property.accessor getter setter e) :=
  union rfl hg.facts_subset hs.facts_subset

instance [h : Shown K v] : Shown K (Settlement.fulfilled v) := ⟨h.facts_subset⟩

instance [h : Shown K v] : Shown K (Settlement.rejected v) := ⟨h.facts_subset⟩

instance (outcome : Settlement) [h : Shown K outcome] : Shown K outcome.value := by
  cases outcome <;> exact ⟨h.facts_subset⟩

instance (onFulfilled onRejected : Value) (derived : ObjectId) [h₁ : Shown K onFulfilled]
    [h₂ : Shown K onRejected] [h₃ : Shown K derived] :
    Shown K (Reaction.mk onFulfilled onRejected derived) :=
  union rfl (Set.union_subset h₁.facts_subset h₂.facts_subset) h₃.facts_subset

instance (r : Reaction) (outcome : Settlement) [h : Shown K r] : Shown K (r.handler outcome) := by
  refine ⟨Set.Subset.trans ?_ h.facts_subset⟩
  cases outcome with
  | fulfilled _ => exact fun _ hf => .inl (.inl hf)
  | rejected _ => exact fun _ hf => .inl (.inr hf)

instance (r : Reaction) [h : Shown K r] : Shown K r.derived :=
  ⟨Set.subset_union_right.trans h.facts_subset⟩

instance (reactions : List Reaction) [h : Shown K reactions] :
    Shown K (PromiseState.pending b reactions) := ⟨h.facts_subset⟩

instance (outcome : Settlement) [h : Shown K outcome] : Shown K (PromiseState.settled outcome) :=
  ⟨h.facts_subset⟩

section Classes

variable (initializer : Option Expression) (statements : List Statement) (node : FunctionNode)

instance (key : String) [h : Shown K (Framed.mk none initializer)] :
    Shown K (FieldDefinition.mk key initializer) :=
  ⟨h.facts_subset⟩

instance (field : FieldDefinition) [h : Shown K field] :
    Shown K (Framed.mk none field.initializer) :=
  ⟨h.facts_subset⟩

instance (key : String) (kind : MethodKind) [h : Shown K (Framed.mk none node)] :
    Shown K (MethodDefinition.mk key kind b node) :=
  ⟨h.facts_subset⟩

instance (m : MethodDefinition) [h : Shown K m] : Shown K (Framed.mk none m.node) :=
  ⟨h.facts_subset⟩

instance (key : String) [h : Shown K (Framed.mk none initializer)] :
    Shown K (StaticElement.field key initializer) :=
  ⟨h.facts_subset⟩

instance [h : Shown K (Framed.mk none statements)] : Shown K (StaticElement.block statements) :=
  ⟨h.facts_subset⟩

instance (fields : List FieldDefinition) (methods : List MethodDefinition)
    (statics : List StaticElement) [h₁ : Shown K fields] [h₂ : Shown K methods]
    [h₃ : Shown K statics] : Shown K (ClassParts.mk fields methods statics) :=
  union rfl (Set.union_subset h₁.facts_subset h₂.facts_subset) h₃.facts_subset

variable (parts : ClassParts) [h : Shown K parts]

instance : Shown K parts.fields := ⟨fun _ hf => h.facts_subset (.inl (.inl hf))⟩

instance : Shown K parts.methods := ⟨fun _ hf => h.facts_subset (.inl (.inr hf))⟩

instance : Shown K parts.statics := ⟨fun _ hf => h.facts_subset (.inr hf)⟩

end Classes

instance (name : String) (constructor? : Option FunctionNode) (parent : Option ObjectId)
    (prototype : ObjectId) (fields : List FieldDefinition) (scope : FrameId) [h₁ : Shown K parent]
    [h₂ : Shown K prototype] [h₃ : Shown K scope] [h₄ : Constructs K constructor?]
    [h₅ : Shown K fields] :
    Shown K (ClassDefinition.mk name constructor? parent prototype fields scope) :=
  union rfl (Set.union_subset (Set.union_subset h₁.facts_subset h₂.facts_subset) h₃.facts_subset)
    (Set.union_subset h₄.facts_subset h₅.facts_subset)

instance (d : ClassDefinition) [h : Shown K d] : Shown K d.parent :=
  ⟨fun _ hf => h.facts_subset (.inl (.inl (.inl hf)))⟩

instance (d : ClassDefinition) [h : Shown K d] : Shown K d.prototype :=
  ⟨fun _ hf => h.facts_subset (.inl (.inl (.inr hf)))⟩

instance (d : ClassDefinition) [h : Shown K d] : Shown K d.scope :=
  ⟨fun _ hf => h.facts_subset (.inl (.inr hf))⟩

instance (d : ClassDefinition) [h : Shown K d] : Shown K d.fields :=
  ⟨fun _ hf => h.facts_subset (.inr (.inr hf))⟩

instance (f : Builtin) : Shown K (Native.builtin f) := of_empty rfl

instance (promise : ObjectId) [h : Shown K promise] : Shown K (Native.resolver promise b) :=
  ⟨h.facts_subset⟩

instance [h : Shown K f] : Shown K (Native.afterwards f b) := ⟨h.facts_subset⟩

instance (f : SuiteFunction) [h : Shown K f] : Shown K (Native.suite f) := ⟨h.facts_subset⟩

instance (d : ClassDefinition) [h : Shown K d] : Shown K (Callable.class d) := ⟨h.facts_subset⟩

instance (f : Native) [h : Shown K f] : Shown K (Callable.native f) := ⟨h.facts_subset⟩

instance (node : FunctionNode) (scope : FrameId) (home : Option ObjectId) [h : Shown K scope]
    [hhome : Placed K home]
    [hcode : Shown K (Framed.mk (if node.isArrow then some scope else none) node)] :
    Shown K (Callable.closure node scope home) :=
  union rfl (Set.union_subset h.facts_subset hhome.facts_subset) hcode.facts_subset

instance (target : ObjectId) (args : List Value) [h₁ : Shown K target] [h₂ : Shown K v]
    [h₃ : Shown K args] : Shown K (Callable.bound target v args) :=
  union rfl (Set.union_subset h₁.facts_subset h₂.facts_subset) h₃.facts_subset

instance (elements : Array Value) [h : Shown K elements] : Shown K (ObjectKind.array elements) :=
  ⟨h.facts_subset⟩

instance (body : Callable) [h : Shown K body] : Shown K (ObjectKind.function body) :=
  ⟨h.facts_subset⟩

instance (state : PromiseState) [h : Shown K state] : Shown K (ObjectKind.promise state) :=
  ⟨h.facts_subset⟩

instance : Shown K ObjectKind.ordinary := of_empty rfl

instance : Shown K ObjectKind.error := of_empty rfl

instance [h : Shown K v] : Shown K (ThisBinding.bound v) := ⟨h.facts_subset⟩

instance : Shown K ThisBinding.uninitialized := of_empty rfl

instance (d : ClassDefinition) (newTarget : ObjectId) [h₁ : Shown K d] [h₂ : Shown K newTarget] :
    Shown K (SuperCall.mk d newTarget) :=
  union rfl h₁.facts_subset h₂.facts_subset

instance [h : Shown K v] : Shown K (Signal.return v) := ⟨h.facts_subset⟩

instance [h : Shown K v] : Shown K (Signal.suspend v) := ⟨h.facts_subset⟩

instance (label : Option String) : Shown K (Signal.break label) := of_empty rfl

instance (label : Option String) : Shown K (Signal.continue label) := of_empty rfl

instance (name : String) : Shown K (Reference.binding name) := of_empty rfl

instance (key : String) [h : Shown K v] : Shown K (Reference.property v key) := ⟨h.facts_subset⟩

instance (key : String) : Shown K (Reference.superProperty key) := of_empty rfl

instance (value : Option Value) (writable enumerable : Option Bool) (getter setter : Option Value)
    [h₁ : Shown K value] [h₂ : Shown K getter] [h₃ : Shown K setter] :
    Shown K (Engine.Attributes.mk value writable enumerable getter setter) :=
  union rfl (Set.union_subset h₁.facts_subset h₂.facts_subset) h₃.facts_subset

instance (a : Engine.Attributes) [h : Shown K a] : Shown K a.value :=
  ⟨fun _ hf => h.facts_subset (.inl (.inl hf))⟩

instance (a : Engine.Attributes) [h : Shown K a] : Shown K a.getter :=
  ⟨fun _ hf => h.facts_subset (.inl (.inr hf))⟩

instance (a : Engine.Attributes) [h : Shown K a] : Shown K a.setter :=
  ⟨fun _ hf => h.facts_subset (.inr hf)⟩

end Parts

/-! ### Properties -/

section Properties

variable (p : Option Property) [h : Shown K p]

instance : Shown K (p.bind Property.value?) := by
  match p, h with
  | none, _ | some (.accessor ..), _ => exact of_empty rfl
  | some (.data ..), h => exact ⟨h.facts_subset⟩

instance : Shown K (p.bind Property.getter?) := by
  match p, h with
  | none, _ | some (.data ..), _ => exact of_empty rfl
  | some (.accessor ..), h => exact ⟨Set.subset_union_left.trans h.facts_subset⟩

instance : Shown K (p.bind Property.setter?) := by
  match p, h with
  | none, _ | some (.data ..), _ => exact of_empty rfl
  | some (.accessor ..), h => exact ⟨Set.subset_union_right.trans h.facts_subset⟩

instance (kind : MethodKind) (f : Value) (enumerable : Bool) [Shown K f] :
    Shown K (kind.toProperty f p enumerable) := by
  cases kind <;> unfold MethodKind.toProperty <;> infer_instance

instance (a : Engine.Attributes) [Shown K a] : Shown K (a.toProperty p) := by
  unfold Engine.Attributes.toProperty
  infer_instance

end Properties

end Shown

/-! ### Homes -/

namespace Placed

variable {K : Knowledge}

instance : Placed K none := ⟨Set.empty_subset _⟩

instance (id : ObjectId) [h : Shown K id] : Placed K (some id) :=
  ⟨fun _ hf => h.facts_subset (.inr hf)⟩

instance (priority := low) {α : Type} [HasFacts α] (x : α) (home : Option ObjectId)
    [h : Placed K home] : Placed (K.and x) home :=
  ⟨h.facts_subset.trans Set.subset_union_left⟩

instance (id : ObjectId) : Placed (K.conceal id) (some id) := ⟨fun _ hf => .inr hf⟩

end Placed

/-! ### Constructors -/

namespace Constructs

variable {K : Knowledge} (constructor? : Option FunctionNode) [h : Constructs K constructor?]

instance (priority := low) {α : Type} [HasFacts α] (x : α) : Constructs (K.and x) constructor? :=
  ⟨h.facts_subset.trans Set.subset_union_left⟩

end Constructs

/-! ### Parts of things -/

namespace Covers

variable {α β γ : Type} [HasFacts α] [HasFacts β] [HasFacts γ]

instance (x : α) : Covers x x := ⟨Set.Subset.rfl⟩

instance (x : α) (y : γ) [h : Covers x y] : Covers (some x) y := ⟨h.facts_subset⟩

instance (x : α) (x' : β) (y : γ) [h : Covers x y] : Covers (x, x') y :=
  ⟨h.facts_subset.trans Set.subset_union_left⟩

instance (x : α) (x' : β) (y : γ) [h : Covers x' y] : Covers (x, x') y :=
  ⟨h.facts_subset.trans Set.subset_union_right⟩

instance (x : α) (xs : List α) : Covers (x :: xs) x :=
  ⟨facts_subset_of_mem List.mem_cons_self⟩

instance (x : α) (xs : List α) : Covers (x :: xs) xs :=
  ⟨(facts_cons x xs).superset.trans' Set.subset_union_right⟩

instance (x : β) (y : γ) [h : Covers x y] : Covers (Except.ok x : Except α β) y := ⟨h.facts_subset⟩

instance (e : α) (y : γ) [h : Covers e y] : Covers (Except.error e : Except α β) y :=
  ⟨h.facts_subset⟩

instance (x : α) (y : γ) [h : Covers x y] : Covers (ForInStep.done x) y := ⟨h.facts_subset⟩

instance (x : α) (y : γ) [h : Covers x y] : Covers (ForInStep.yield x) y := ⟨h.facts_subset⟩

instance (id : ObjectId) : Covers (Value.object id) id := ⟨Set.Subset.rfl⟩

instance (v : Value) (w e : Bool) : Covers (Property.data v w e) v := ⟨Set.Subset.rfl⟩

instance (getter : Value) (setter : Option Value) (e : Bool) :
    Covers (Property.accessor (some getter) setter e) getter := ⟨Set.subset_union_left⟩

instance (getter : Option Value) (setter : Value) (e : Bool) :
    Covers (Property.accessor getter (some setter) e) setter := ⟨Set.subset_union_right⟩

instance (v : Value) : Covers (Settlement.fulfilled v) v := ⟨Set.Subset.rfl⟩

instance (v : Value) : Covers (Settlement.rejected v) v := ⟨Set.Subset.rfl⟩

instance (outcome : Settlement) (y : γ) [h : Covers outcome y] :
    Covers (PromiseState.settled outcome) y := ⟨h.facts_subset⟩

instance (promise : ObjectId) (fulfills : Bool) : Covers (Native.resolver promise fulfills) promise :=
  ⟨Set.Subset.rfl⟩

instance (callback : Value) (fulfills : Bool) :
    Covers (Native.afterwards callback fulfills) callback := ⟨Set.Subset.rfl⟩

instance (f : SuiteFunction) : Covers (Native.suite f) f := ⟨Set.Subset.rfl⟩

instance (matcher : Matcher) (negated : Bool) (actual : Value) (number : Nat) :
    Covers (SuiteFunction.check matcher negated actual number) actual := ⟨Set.subset_union_right⟩

instance (node : FunctionNode) (scope : FrameId) (home : Option ObjectId) :
    Covers (Callable.closure node scope home) scope := ⟨fun _ hf => .inl (.inl hf)⟩

instance (node : FunctionNode) (scope : FrameId) (home : Option ObjectId) :
    Covers (Callable.closure node scope home)
      (Framed.mk (if node.isArrow then some scope else none) node) :=
  ⟨Set.subset_union_right⟩

instance (key : String) (initializer : Option Expression) :
    Covers (StaticElement.field key initializer) (Framed.mk none initializer) := ⟨Set.Subset.rfl⟩

instance (statements : List Statement) :
    Covers (StaticElement.block statements) (Framed.mk none statements) := ⟨Set.Subset.rfl⟩

instance (d : ClassDefinition) : Covers (Callable.class d) d := ⟨Set.Subset.rfl⟩

instance (f : Native) : Covers (Callable.native f) f := ⟨Set.Subset.rfl⟩

instance (target : ObjectId) (receiver : Value) (args : List Value) :
    Covers (Callable.bound target receiver args) target := ⟨fun _ h => .inl (.inl h)⟩

instance (target : ObjectId) (receiver : Value) (args : List Value) :
    Covers (Callable.bound target receiver args) receiver := ⟨fun _ h => .inl (.inr h)⟩

instance (target : ObjectId) (receiver : Value) (args : List Value) :
    Covers (Callable.bound target receiver args) args := ⟨fun _ h => .inr h⟩

instance (v : Value) : Covers (ThisBinding.bound v) v := ⟨Set.Subset.rfl⟩

instance (d : ClassDefinition) (newTarget : ObjectId) : Covers (SuperCall.mk d newTarget) d :=
  ⟨Set.subset_union_left⟩

instance (d : ClassDefinition) (newTarget : ObjectId) :
    Covers (SuperCall.mk d newTarget) newTarget :=
  ⟨Set.subset_union_right⟩

instance (v : Value) : Covers (Signal.return v) v := ⟨Set.Subset.rfl⟩

instance (v : Value) : Covers (Signal.suspend v) v := ⟨Set.Subset.rfl⟩

instance (base : Value) (key : String) : Covers (Reference.property base key) base :=
  ⟨Set.Subset.rfl⟩

end Covers

/-- The home of a closure that is known. -/
theorem Placed.covered (node : FunctionNode) (scope : FrameId) (home : Option ObjectId)
    {K : Knowledge} [h : Shown K (Callable.closure node scope home)] : Placed K home :=
  ⟨fun _ hf => h.facts_subset (.inl (.inr hf))⟩

end EcmaEval
