import EcmaEval.Proofs.Conduct.Fact

/-!
# Parts of code

Code mentions what its parts mention: a part that runs with the `this` around it mentions the same
calls of the parent constructor, and in a part that has a `this` of its own they are stray ones.

## Main results

* `Framed.covers_of_openParts`: a part that runs in the same frames
* `Framed.covers_of_closedParts`: a part that has a `this` of its own
* `Program.Every.facts_code`: a program that is read mentions no calls
-/

namespace EcmaEval

variable {α β : Type} [HasSites α] [HasSites β]

namespace Framed

/-! ## Calls in parts -/

/-- The calls in the second phrase are calls in the first one. -/
theorem covers_of_calls {x : α} {y : β} (frame : Option FrameId)
    (hcalls : ∀ c, ∃ c', ∀ s ∈ sites y c', ∀ args, s.CallsSuper args →
      ∃ t ∈ sites x c, t.CallsSuper args)
    (hstray : ∀ c, ∃ c', ∀ s ∈ sites y c', ∀ args, s.StraysSuper args →
      ∃ t ∈ sites x c, t.StraysSuper args) : Covers (Framed.mk frame x) (Framed.mk frame y) := by
  refine ⟨Set.union_subset_union ?_ ?_⟩
  · rintro _ ⟨scope, args, rfl, hin⟩
    refine ⟨scope, args, rfl, fun c => ?_⟩
    obtain ⟨c', h⟩ := hstray c
    obtain ⟨s, hs, hs'⟩ := hin c'
    exact h s hs args hs'
  · rintro _ ⟨scope, args, rfl, hscope, hin⟩
    refine ⟨scope, args, rfl, hscope, fun c => ?_⟩
    obtain ⟨c', h⟩ := hcalls c
    obtain ⟨s, hs, hs'⟩ := hin c'
    exact h s hs args hs'

/-- What lies in the same sites. -/
theorem covers_of_sites {x : α} {y : β} (frame : Option FrameId)
    (h : ∀ c, ∃ c', sites y c' ⊆ sites x c) : Covers (Framed.mk frame x) (Framed.mk frame y) := by
  refine covers_of_calls frame (fun c => ?_) fun c => ?_ <;> obtain ⟨c', h⟩ := h c
  · exact ⟨c', fun s hs _ hcalls => ⟨s, h hs, hcalls⟩⟩
  · exact ⟨c', fun s hs _ hstrays => ⟨s, h hs, hstrays⟩⟩

/-- What runs with the same `this`. -/
theorem covers_of_openParts {x : α} {y : β} (frame : Option FrameId)
    (h : ∀ c, ∃ c', ∃ t ∈ sites x c, sites y c' ⊆ t.openParts) :
    Covers (Framed.mk frame x) (Framed.mk frame y) := by
  refine covers_of_calls frame (fun c => ?_) fun c => ?_ <;> obtain ⟨c', t, ht, h⟩ := h c
  · exact ⟨c', fun s hs _ hcalls => ⟨t, ht, .inside (h hs) hcalls⟩⟩
  · exact ⟨c', fun s hs _ hstrays => ⟨t, ht, .inside (t.openParts_subset (h hs)) hstrays⟩⟩

/-- What has a `this` of its own. -/
theorem covers_of_closedParts {x : α} {y : β} (frame : Option FrameId)
    (h : ∀ c, ∃ c', ∃ t ∈ sites x c, sites y c' ⊆ t.closedParts) :
    Covers (Framed.mk frame x) (Framed.mk none y) := by
  refine ⟨Set.union_subset ?_ ?_⟩
  · rintro _ ⟨scope, args, rfl, hin⟩
    refine .inl ⟨scope, args, rfl, fun c => ?_⟩
    obtain ⟨c', t, ht, h⟩ := h c
    obtain ⟨s, hs, hs'⟩ := hin c'
    exact ⟨t, ht, .inside (t.closedParts_subset (h hs)) hs'⟩
  · rintro _ ⟨scope, args, rfl, -, hin⟩
    refine .inl ⟨scope, args, rfl, fun c => ?_⟩
    obtain ⟨c', t, ht, h⟩ := h c
    obtain ⟨s, hs, hs'⟩ := hin c'
    exact ⟨t, ht, .here (h hs) hs'⟩

/-- Sites that have no parts but those of others. -/
theorem covers_of_parts {x : α} {y : β} (frame : Option FrameId)
    (h : ∀ c, ∀ s ∈ sites y c, ∃ t ∈ sites x c, s.openParts ⊆ t.openParts ∧
      s.closedParts ⊆ t.closedParts ∧ s.parts ⊆ t.parts ∧
      ∀ args, s.node ≠ .expression (.call .super args)) :
    Covers (Framed.mk frame x) (Framed.mk frame y) := by
  refine covers_of_calls frame (fun c => ⟨c, fun s hs args hcalls => ?_⟩)
    fun c => ⟨c, fun s hs args hstrays => ?_⟩ <;>
    obtain ⟨t, ht, hopen, hclosed, hparts, hne⟩ := h c s hs
  · cases hcalls with
    | here => exact absurd rfl (hne args)
    | inside part within => exact ⟨t, ht, .inside (hopen part) within⟩
  · cases hstrays with
    | here part calls => exact ⟨t, ht, .here (hclosed part) calls⟩
    | inside part within => exact ⟨t, ht, .inside (hparts part) within⟩

/-- Fewer elements of a list. -/
theorem covers_of_subset {xs ys : List α} (h : ys ⊆ xs) (frame : Option FrameId) :
    Covers (Framed.mk frame xs) (Framed.mk frame ys) :=
  covers_of_sites frame fun c => ⟨c, fun s hs => by
    obtain ⟨y, hy, hs⟩ := List.mem_flatMap.mp hs
    exact List.mem_flatMap.mpr ⟨y, h hy, hs⟩⟩

/-- The elements of a list. -/
theorem covers_of_mem {x : α} {xs : List α} (hx : x ∈ xs) (frame : Option FrameId) :
    Covers (Framed.mk frame xs) (Framed.mk frame x) :=
  covers_of_sites frame fun c => ⟨c, fun _ hs => List.mem_flatMap.mpr ⟨x, hx, hs⟩⟩

end Framed

/-! ## Elements of lists -/

namespace Site

variable {args : List Expression} {c : Surroundings} {e : Expression}

/-- A spread calls what its operand calls. -/
theorem callsSuper_element (h : (c.expression e).CallsSuper args) :
    (c.element e).CallsSuper args := by
  cases e
  case spread operand =>
    cases h with
    | inside part within =>
      obtain rfl := List.mem_singleton.mp part
      exact within
  all_goals exact h

theorem straysSuper_element (h : (c.expression e).StraysSuper args) :
    (c.element e).StraysSuper args := by
  cases e
  case spread operand =>
    cases h with
    | here part => cases part
    | inside part within =>
      obtain rfl := List.mem_singleton.mp part
      exact within
  all_goals exact h

/-- The word `super` calls nothing by itself. -/
theorem callsSuper_base (h : (c.expression e).CallsSuper args) : c.expression e ∈ c.base e := by
  cases e
  case super =>
    cases h with
    | inside part => cases part
  all_goals exact List.mem_singleton_self _

theorem straysSuper_base (h : (c.expression e).StraysSuper args) : c.expression e ∈ c.base e := by
  cases e
  case super =>
    cases h with
    | here part => cases part
    | inside part => cases part
  all_goals exact List.mem_singleton_self _

end Site

namespace Framed

variable (frame : Option FrameId)

/-! ## Lists and options -/

instance (x : α) (xs : List α) : Covers (Framed.mk frame (x :: xs)) (Framed.mk frame x) :=
  covers_of_mem (.head _) frame

instance (x : α) (xs : List α) : Covers (Framed.mk frame (x :: xs)) (Framed.mk frame xs) :=
  covers_of_sites frame fun c => ⟨c, by simp [sites]⟩

instance (xs : List α) : Covers (Framed.mk frame xs) (Framed.mk frame (xs.map some)) :=
  covers_of_sites frame fun c => ⟨c, by simp [sites, List.flatMap_map]⟩

instance (x : α) : Covers (Framed.mk frame (some x)) (Framed.mk frame x) :=
  covers_of_sites frame fun c => ⟨c, by simp [sites]⟩

instance (x : α) : Covers (Framed.mk frame x) (Framed.mk frame (some x)) :=
  covers_of_sites frame fun c => ⟨c, by simp [sites]⟩

instance {K : Knowledge} (x : α) [h : Shown K (Framed.mk frame x)] :
    Shown K (Framed.mk frame (some x)) :=
  h.part

/-! ## Parts of expressions -/

section Expressions

variable (e e₁ e₂ e₃ : Expression) (es : List Expression)

theorem covers_expression {e : Expression} {y : β}
    (h : ∀ c, sites y c ⊆ (Site.mk c (.expression e)).openParts) :
    Covers (Framed.mk frame e) (Framed.mk frame y) :=
  covers_of_openParts frame fun c => ⟨c, _, List.mem_singleton_self _, h c⟩

instance (op : UnaryOperator) : Covers (Framed.mk frame (Expression.unary op e)) (Framed.mk frame e) :=
  covers_expression frame fun _ => List.Subset.refl _

instance (op : UpdateOperator) (before : Bool) :
    Covers (Framed.mk frame (Expression.update op before e)) (Framed.mk frame e) :=
  covers_expression frame fun _ => List.Subset.refl _

instance : Covers (Framed.mk frame (Expression.await e)) (Framed.mk frame e) :=
  covers_expression frame fun _ => List.Subset.refl _

instance : Covers (Framed.mk frame (Expression.spread e)) (Framed.mk frame e) :=
  covers_expression frame fun _ => List.Subset.refl _

instance (op : BinaryOperator) :
    Covers (Framed.mk frame (Expression.binary op e₁ e₂)) (Framed.mk frame e₁) :=
  covers_expression frame fun _ => by
    simp [sites, Site.openParts, Site.parts, Site.expressionParts]

instance (op : BinaryOperator) :
    Covers (Framed.mk frame (Expression.binary op e₁ e₂)) (Framed.mk frame e₂) :=
  covers_expression frame fun _ => by
    simp [sites, Site.openParts, Site.parts, Site.expressionParts]

instance (op : LogicalOperator) :
    Covers (Framed.mk frame (Expression.logical op e₁ e₂)) (Framed.mk frame e₁) :=
  covers_expression frame fun _ => by
    simp [sites, Site.openParts, Site.parts, Site.expressionParts]

instance (op : LogicalOperator) :
    Covers (Framed.mk frame (Expression.logical op e₁ e₂)) (Framed.mk frame e₂) :=
  covers_expression frame fun _ => by
    simp [sites, Site.openParts, Site.parts, Site.expressionParts]

instance (op : AssignmentOperator) :
    Covers (Framed.mk frame (Expression.assign op e₁ e₂)) (Framed.mk frame e₁) :=
  covers_expression frame fun _ => by
    simp [sites, Site.openParts, Site.parts, Site.expressionParts]

instance (op : AssignmentOperator) :
    Covers (Framed.mk frame (Expression.assign op e₁ e₂)) (Framed.mk frame e₂) :=
  covers_expression frame fun _ => by
    simp [sites, Site.openParts, Site.parts, Site.expressionParts]

instance : Covers (Framed.mk frame (Expression.conditional e₁ e₂ e₃)) (Framed.mk frame e₁) :=
  covers_expression frame fun _ => by
    simp [sites, Site.openParts, Site.parts, Site.expressionParts]

instance : Covers (Framed.mk frame (Expression.conditional e₁ e₂ e₃)) (Framed.mk frame e₂) :=
  covers_expression frame fun _ => by
    simp [sites, Site.openParts, Site.parts, Site.expressionParts]

instance : Covers (Framed.mk frame (Expression.conditional e₁ e₂ e₃)) (Framed.mk frame e₃) :=
  covers_expression frame fun _ => by
    simp [sites, Site.openParts, Site.parts, Site.expressionParts]

instance (texts : List (Option String)) :
    Covers (Framed.mk frame (Expression.template texts es)) (Framed.mk frame es) :=
  covers_expression frame fun _ => by
    simp [sites, Site.openParts, Site.parts, Site.expressionParts, List.map_eq_flatMap]

instance : Covers (Framed.mk frame (Expression.sequence es)) (Framed.mk frame es) :=
  covers_expression frame fun _ => by
    simp [sites, Site.openParts, Site.parts, Site.expressionParts, List.map_eq_flatMap]

/-- Elements of a list, each of which may be a spread. -/
theorem covers_elements {e : Expression} {y : β}
    (h : ∀ c, ∀ s ∈ sites y c, ∃ e', s = c.expression e' ∧
      c.element e' ∈ (Site.mk c (.expression e)).openParts) :
    Covers (Framed.mk frame e) (Framed.mk frame y) := by
  refine covers_of_calls frame (fun c => ⟨c, fun s hs args hcalls => ?_⟩)
    fun c => ⟨c, fun s hs args hstrays => ?_⟩ <;> obtain ⟨e', rfl, he'⟩ := h c s hs
  · exact ⟨_, List.mem_singleton_self _, .inside he' (Site.callsSuper_element hcalls)⟩
  · exact ⟨_, List.mem_singleton_self _,
      .inside (Site.openParts_subset _ he') (Site.straysSuper_element hstrays)⟩

/-- What stands before an access, a call or a construction. -/
theorem covers_base {e e' : Expression} (h : ∀ c : Surroundings,
    c.base e' ⊆ (Site.mk c (.expression e)).openParts) :
    Covers (Framed.mk frame e) (Framed.mk frame e') := by
  refine covers_of_calls frame (fun c => ⟨c, fun s hs args hcalls => ?_⟩)
    fun c => ⟨c, fun s hs args hstrays => ?_⟩ <;> obtain rfl := List.mem_singleton.mp hs
  · exact ⟨_, List.mem_singleton_self _, .inside (h c (Site.callsSuper_base hcalls)) hcalls⟩
  · exact ⟨_, List.mem_singleton_self _,
      .inside (Site.openParts_subset _ (h c (Site.straysSuper_base hstrays))) hstrays⟩

instance (elements : List (Option Expression)) :
    Covers (Framed.mk frame (Expression.array elements)) (Framed.mk frame elements) := by
  refine covers_elements frame fun c s hs => ?_
  obtain ⟨element, helement, hs⟩ := List.mem_flatMap.mp hs
  obtain ⟨e, he, hs⟩ := List.mem_flatMap.mp hs
  obtain rfl := List.mem_singleton.mp hs
  exact ⟨e, rfl, List.mem_map.mpr ⟨e, List.mem_filterMap.mpr ⟨element, helement,
    Option.mem_toList.mp he⟩, rfl⟩⟩

instance : Covers (Framed.mk frame (Expression.call e es)) (Framed.mk frame e) :=
  covers_base frame fun _ => List.subset_append_left _ _

instance : Covers (Framed.mk frame (Expression.new e es)) (Framed.mk frame e) :=
  covers_base frame fun _ => List.subset_append_left _ _

instance : Covers (Framed.mk frame (Expression.call e es)) (Framed.mk frame es) := by
  refine covers_elements frame fun c s hs => ?_
  obtain ⟨e', he', hs⟩ := List.mem_flatMap.mp hs
  exact ⟨e', List.mem_singleton.mp hs, List.mem_append_right _ (List.mem_map_of_mem he')⟩

instance : Covers (Framed.mk frame (Expression.new e es)) (Framed.mk frame es) := by
  refine covers_elements frame fun c s hs => ?_
  obtain ⟨e', he', hs⟩ := List.mem_flatMap.mp hs
  exact ⟨e', List.mem_singleton.mp hs, List.mem_append_right _ (List.mem_map_of_mem he')⟩

instance (key : MemberKey) :
    Covers (Framed.mk frame (Expression.member e key)) (Framed.mk frame e) :=
  covers_base frame fun _ => List.subset_append_left _ _

instance (key : MemberKey) :
    Covers (Framed.mk frame (Expression.member e key)) (Framed.mk frame key) :=
  covers_expression frame fun _ => List.subset_append_right _ _

instance : Covers (Framed.mk frame (MemberKey.computed e)) (Framed.mk frame e) :=
  covers_of_sites frame fun c => ⟨c, List.Subset.refl _⟩

instance : Covers (Framed.mk frame (PropertyKey.computed e)) (Framed.mk frame e) :=
  covers_of_sites frame fun c => ⟨c, List.Subset.refl _⟩

instance (k : ClassNode) : Covers (Framed.mk frame (Expression.class k)) (Framed.mk frame k) :=
  covers_expression frame fun _ => List.Subset.refl _

end Expressions

/-! ### Functions and members of object literals -/

section Functions

variable (f : FunctionNode)

instance : Covers (Framed.mk frame (Expression.function f)) (Framed.mk none f) :=
  covers_of_closedParts frame fun c => ⟨c.ownBody false false, _, List.mem_singleton_self _,
    List.Subset.refl _⟩

/-- An arrow function has no `this` of its own, if it is marked as one. -/
instance : Covers (Framed.mk frame (Expression.arrow f))
    (Framed.mk (if f.isArrow then frame else none) f) := by
  by_cases harrow : f.isArrow
  · rw [if_pos harrow]
    exact covers_expression frame fun c => by simp [sites, Site.openParts, harrow]
  · rw [if_neg harrow]
    exact covers_of_closedParts frame fun c => ⟨c, _, List.mem_singleton_self _, by
      simp [sites, Site.closedParts, harrow]⟩

instance : Covers (Framed.mk frame (Statement.function f)) (Framed.mk none f) :=
  covers_of_closedParts frame fun c => ⟨c.ownBody false false, _, List.mem_singleton_self _,
    List.Subset.refl _⟩

instance : Covers (Framed.mk frame f) (Framed.mk frame f.params) :=
  covers_of_sites frame fun c => ⟨c, by simp [sites, Surroundings.arrow, List.map_eq_flatMap]⟩

instance : Covers (Framed.mk frame f) (Framed.mk frame f.body) :=
  covers_of_sites frame fun c => ⟨c.body, List.subset_append_right _ _⟩

instance (statements : List Statement) :
    Covers (Framed.mk frame (FunctionBody.block statements)) (Framed.mk frame statements) :=
  covers_of_sites frame fun c => ⟨c, by simp [sites, Surroundings.functionBody, List.map_eq_flatMap]⟩

instance (e : Expression) :
    Covers (Framed.mk frame (FunctionBody.expression e)) (Framed.mk frame e) :=
  covers_of_sites frame fun c => ⟨c, List.Subset.refl _⟩

instance (target : Pattern) (value : Expression) :
    Covers (Framed.mk frame (Pattern.withDefault target value)) (Framed.mk frame value) :=
  covers_of_openParts frame fun c => ⟨c, _, List.mem_singleton_self _, by
    simp [sites, Site.openParts, Site.parts, Site.patternParts]⟩

instance (members : List ObjectMember) :
    Covers (Framed.mk frame (Expression.object members)) (Framed.mk frame members) := by
  refine covers_of_parts frame fun c s hs => ⟨_, List.mem_singleton_self _, ?_⟩
  obtain ⟨m, hm, hs⟩ := List.mem_flatMap.mp hs
  obtain rfl := List.mem_singleton.mp hs
  have hsub {F : ObjectMember → List Site} : [m].flatMap F ⊆ members.flatMap F := by
    rw [List.flatMap_singleton]
    exact fun t ht => List.mem_flatMap.mpr ⟨m, hm, ht⟩
  exact ⟨hsub, hsub, hsub, nofun⟩

variable (m : ObjectMember)

instance : Covers (Framed.mk frame m) (Framed.mk frame m.key) :=
  covers_of_openParts frame fun c => ⟨c, _, List.mem_singleton_self _, by
    simp [sites, Site.openParts]⟩

theorem covers_value (h : m.method? = none) : Covers (Framed.mk frame m) (Framed.mk frame m.value) :=
  covers_of_openParts frame fun c => ⟨c, _, List.mem_singleton_self _, by
    simp [sites, Site.openParts, h]⟩

theorem covers_method (h : m.method? = some f) : Covers (Framed.mk frame m) (Framed.mk none f) :=
  covers_of_closedParts frame fun c => ⟨c.ownBody true false, _, List.mem_singleton_self _, by
    simp [Site.closedParts, h]
    exact List.Subset.refl _⟩

end Functions

/-! ## Parts of classes -/

section Classes

variable (k : ClassNode)

instance : Covers (Framed.mk frame k) (Framed.mk frame k.heritage) :=
  covers_of_openParts frame fun c => ⟨c, _, List.mem_singleton_self _, by
    cases h : k.heritage <;> simp [sites, Site.openParts, h]⟩

/-- Only in its constructor it matters whether a class extends another. -/
theorem classElement_eq {element : ClassElement} (h : Grammar.isConstructor element = false)
    (c : Surroundings) (derived : Bool) :
    c.classElement false element = c.classElement derived element := by
  cases element with
  | method kind isStatic key f =>
    cases kind with
    | constructor => cases h
    | _ => rfl
  | _ => rfl

instance : Covers (Framed.mk frame k) (Framed.mk frame k.body) := by
  refine covers_of_parts frame fun c s hs => ⟨_, List.mem_singleton_self _, ?_⟩
  obtain ⟨element, helement, hs⟩ := List.mem_flatMap.mp hs
  simp only [sites] at hs
  split at hs
  · cases hs
  next hconstructor =>
  obtain rfl := List.mem_singleton.mp hs
  have hsub {F G : ClassElement → List Site} (hFG : F element = G element) :
      [element].flatMap F ⊆ k.body.flatMap G := by
    rw [List.flatMap_singleton, hFG]
    exact fun t ht => List.mem_flatMap.mpr ⟨element, helement, ht⟩
  refine ⟨List.subset_append_of_subset_right _ (hsub rfl), hsub rfl,
    List.subset_append_of_subset_right _ (hsub ?_), nofun⟩
  exact classElement_eq (by simpa using hconstructor) c _

/-- The code of a constructor mentions the stray calls in it only. -/
theorem constructs_constructor? {K : Knowledge} [h : Shown K (Framed.mk frame k)] :
    Constructs K k.constructor? := by
  refine ⟨fun f hf => h.facts_subset (.inl ?_)⟩
  obtain ⟨scope, args, rfl, hin⟩ := hf
  refine ⟨scope, args, rfl, fun c => ⟨_, List.mem_singleton_self _, ?_⟩⟩
  obtain ⟨s, hs, hstrays⟩ := hin (c.ownBody true k.heritage.isSome)
  obtain ⟨node, hnode, hs⟩ := List.mem_flatMap.mp hs
  obtain ⟨element, helement, hfound⟩ := List.exists_of_findSome?_eq_some (Option.mem_toList.mp hnode)
  have helement' : s ∈ c.classElement k.heritage.isSome element := by
    split at hfound
    · next isStatic key node' =>
      cases hfound
      refine List.mem_append_right _ ?_
      rw [decide_eq_true rfl, Bool.true_and]
      exact hs
    · cases hfound
  exact .inside (List.mem_append_right _ (List.mem_flatMap.mpr ⟨element, helement, helement'⟩)) hstrays

section Elements

variable {element : ClassElement} (hconstructor : Grammar.isConstructor element = false)
include hconstructor

theorem covers_elementKey {y : β} (h : ∀ c : Surroundings, sites y c ⊆ c.elementKey element) :
    Covers (Framed.mk frame element) (Framed.mk frame y) :=
  covers_of_openParts frame fun c => ⟨c, c.class ⟨none, none, [element]⟩, by
    simp [sites, hconstructor], by simpa [Site.openParts] using h c⟩

theorem covers_elementBody {y : β}
    (h : ∀ c : Surroundings, ∃ c', sites y c' ⊆ c.elementBody element) :
    Covers (Framed.mk frame element) (Framed.mk none y) :=
  covers_of_closedParts frame fun c => (h c).imp fun c' h =>
    ⟨c.class ⟨none, none, [element]⟩, by simp [sites, hconstructor],
      by simpa [Site.closedParts] using h⟩

end Elements

variable {kind : MethodKind} (isStatic : Bool) (key : PropertyKey)

section Methods

variable (hkind : kind ≠ .constructor) (f : FunctionNode)
include hkind

theorem isConstructor_method : Grammar.isConstructor (.method kind isStatic key f) = false := by
  cases kind with
  | constructor => exact absurd rfl hkind
  | _ => rfl

theorem covers_methodKey :
    Covers (Framed.mk frame (ClassElement.method kind isStatic key f)) (Framed.mk frame key) :=
  covers_elementKey frame (isConstructor_method isStatic key hkind f) fun _ => List.Subset.refl _

theorem covers_methodNode :
    Covers (Framed.mk frame (ClassElement.method kind isStatic key f)) (Framed.mk none f) :=
  covers_elementBody frame (isConstructor_method isStatic key hkind f) fun c =>
    ⟨c.ownBody true false, by
      rw [Surroundings.elementBody, if_neg hkind]
      exact List.Subset.refl _⟩

end Methods

instance (value : Option Expression) :
    Covers (Framed.mk frame (ClassElement.field isStatic key value)) (Framed.mk frame key) :=
  covers_elementKey frame rfl fun _ => List.Subset.refl _

instance (value : Option Expression) :
    Covers (Framed.mk frame (ClassElement.field isStatic key value)) (Framed.mk none value) :=
  covers_elementBody frame rfl fun c => ⟨c.ownBody true false, by
    cases value <;> simp [sites, Surroundings.elementBody]⟩

instance (statements : List Statement) :
    Covers (Framed.mk frame (ClassElement.staticBlock statements)) (Framed.mk none statements) :=
  covers_elementBody frame rfl fun c => ⟨c.ownBody true false, by
    simp [sites, Surroundings.elementBody, List.map_eq_flatMap]⟩

end Classes

/-! ## Parts of statements -/

section Statements

variable (e : Expression) (s : Statement) (statements : List Statement)

theorem covers_statement {s : Statement} {y : β}
    (h : ∀ c : Surroundings, ∃ c', sites y c' ⊆ Site.statementParts c s)
    (hfunction : ∀ f, s ≠ .function f) : Covers (Framed.mk frame s) (Framed.mk frame y) :=
  covers_of_openParts frame fun c => (h c).imp fun c' h => ⟨_, List.mem_singleton_self _, by
    cases s with
    | function f => exact absurd rfl (hfunction f)
    | _ => exact h⟩

instance : Covers (Framed.mk frame (Statement.expression e)) (Framed.mk frame e) :=
  covers_statement frame (fun c => ⟨c, List.Subset.refl _⟩) nofun

instance : Covers (Framed.mk frame (Statement.throw e)) (Framed.mk frame e) :=
  covers_statement frame (fun c => ⟨c, List.Subset.refl _⟩) nofun

instance (value : Option Expression) :
    Covers (Framed.mk frame (Statement.return value)) (Framed.mk frame value) :=
  covers_statement frame (fun c => ⟨c, by
    cases value <;> simp [sites, Site.statementParts]⟩) nofun

instance : Covers (Framed.mk frame (Statement.block statements)) (Framed.mk frame statements) :=
  covers_statement frame (fun c => ⟨c, by
    simp [sites, Site.statementParts, List.map_eq_flatMap]⟩) nofun

instance (k : ClassNode) : Covers (Framed.mk frame (Statement.class k)) (Framed.mk frame k) :=
  covers_statement frame (fun c => ⟨c, List.Subset.refl _⟩) nofun

instance (label : String) : Covers (Framed.mk frame (Statement.labeled label s)) (Framed.mk frame s) :=
  covers_statement frame (fun c => ⟨c.labeled label s.isLoop, List.Subset.refl _⟩) nofun

instance (kind : DeclarationKind) (declarators : List Declarator) :
    Covers (Framed.mk frame (Statement.declaration kind declarators)) (Framed.mk frame declarators) :=
  covers_statement frame (fun c => ⟨c, List.Subset.refl _⟩) nofun

instance (d : Declarator) : Covers (Framed.mk frame d) (Framed.mk frame d.init) :=
  covers_of_sites frame fun c => ⟨c, by
    cases h : d.init <;> simp [sites, Surroundings.declarator, h]⟩

section If

variable (consequent : Statement) (alternate : Option Statement)

instance : Covers (Framed.mk frame (Statement.if e consequent alternate)) (Framed.mk frame e) :=
  covers_statement frame (fun c => ⟨c, by simp [sites, Site.statementParts]⟩) nofun

instance : Covers (Framed.mk frame (Statement.if e consequent alternate))
    (Framed.mk frame consequent) :=
  covers_statement frame (fun c => ⟨c, by simp [sites, Site.statementParts]⟩) nofun

instance : Covers (Framed.mk frame (Statement.if e consequent alternate))
    (Framed.mk frame alternate) :=
  covers_statement frame (fun c => ⟨c, by
    cases alternate <;> simp [sites, Site.statementParts]⟩) nofun

end If

/-! ### Loops -/

section Loops

variable (init : Option ForInit) (test update : Option Expression) (head : ForHead)

instance : Covers (Framed.mk frame (Statement.while e s)) (Framed.mk frame e) :=
  covers_statement frame (fun c => ⟨c, by simp [sites, Site.statementParts]⟩) nofun

instance : Covers (Framed.mk frame (Statement.while e s)) (Framed.mk frame s) :=
  covers_statement frame (fun c => ⟨c.loop, by simp [sites, Site.statementParts]⟩) nofun

instance : Covers (Framed.mk frame (Statement.doWhile s e)) (Framed.mk frame e) :=
  covers_statement frame (fun c => ⟨c, by simp [sites, Site.statementParts]⟩) nofun

instance : Covers (Framed.mk frame (Statement.doWhile s e)) (Framed.mk frame s) :=
  covers_statement frame (fun c => ⟨c.loop, by simp [sites, Site.statementParts]⟩) nofun

instance : Covers (Framed.mk frame (Statement.for init test update s)) (Framed.mk frame init) :=
  covers_statement frame (fun c => ⟨c, by simp [sites, Site.statementParts]⟩) nofun

instance : Covers (Framed.mk frame (Statement.for init test update s)) (Framed.mk frame test) :=
  covers_statement frame (fun c => ⟨c, by
    cases test <;> simp [sites, Site.statementParts]⟩) nofun

instance : Covers (Framed.mk frame (Statement.for init test update s)) (Framed.mk frame update) :=
  covers_statement frame (fun c => ⟨c, by
    cases update <;> simp [sites, Site.statementParts]⟩) nofun

instance : Covers (Framed.mk frame (Statement.for init test update s)) (Framed.mk frame s) :=
  covers_statement frame (fun c => ⟨c.loop, by simp [sites, Site.statementParts]⟩) nofun

instance (kind : DeclarationKind) (declarators : List Declarator) :
    Covers (Framed.mk frame (ForInit.declaration kind declarators)) (Framed.mk frame declarators) :=
  covers_of_sites frame fun c => ⟨c, List.Subset.refl _⟩

instance : Covers (Framed.mk frame (ForInit.expression e)) (Framed.mk frame e) :=
  covers_of_sites frame fun c => ⟨c, List.Subset.refl _⟩

instance : Covers (Framed.mk frame (ForHead.target e)) (Framed.mk frame e) :=
  covers_of_sites frame fun c => ⟨c, List.Subset.refl _⟩

instance : Covers (Framed.mk frame (Statement.forIn head e s)) (Framed.mk frame head) :=
  covers_statement frame (fun c => ⟨c, by simp [sites, Site.statementParts]⟩) nofun

instance : Covers (Framed.mk frame (Statement.forIn head e s)) (Framed.mk frame e) :=
  covers_statement frame (fun c => ⟨c, by simp [sites, Site.statementParts]⟩) nofun

instance : Covers (Framed.mk frame (Statement.forIn head e s)) (Framed.mk frame s) :=
  covers_statement frame (fun c => ⟨c.loop, by simp [sites, Site.statementParts]⟩) nofun

instance : Covers (Framed.mk frame (Statement.forOf head e s)) (Framed.mk frame head) :=
  covers_statement frame (fun c => ⟨c, by simp [sites, Site.statementParts]⟩) nofun

instance : Covers (Framed.mk frame (Statement.forOf head e s)) (Framed.mk frame e) :=
  covers_statement frame (fun c => ⟨c, by simp [sites, Site.statementParts]⟩) nofun

instance : Covers (Framed.mk frame (Statement.forOf head e s)) (Framed.mk frame s) :=
  covers_statement frame (fun c => ⟨c.loop, by simp [sites, Site.statementParts]⟩) nofun

end Loops

/-! ### Handlers and cases -/

section Cases

variable (handler : Option CatchClause) (finalizer : Option (List Statement))
  (cases : List SwitchCase)

instance : Covers (Framed.mk frame (Statement.try statements handler finalizer))
    (Framed.mk frame statements) :=
  covers_statement frame (fun c => ⟨c, by
    simp [sites, Site.statementParts, List.map_eq_flatMap]⟩) nofun

instance : Covers (Framed.mk frame (Statement.try statements handler finalizer))
    (Framed.mk frame handler) :=
  covers_statement frame (fun c => ⟨c, by simp [sites, Site.statementParts]⟩) nofun

instance : Covers (Framed.mk frame (Statement.try statements handler finalizer))
    (Framed.mk frame finalizer) :=
  covers_statement frame (fun c => ⟨c, by
    cases finalizer <;> simp [sites, Site.statementParts, List.map_eq_flatMap]⟩) nofun

instance (h : CatchClause) : Covers (Framed.mk frame h) (Framed.mk frame h.body) :=
  covers_of_sites frame fun c => ⟨c, by
    simp [sites, Surroundings.handler, List.map_eq_flatMap]⟩

instance : Covers (Framed.mk frame (Statement.switch e cases)) (Framed.mk frame e) :=
  covers_statement frame (fun c => ⟨c, by simp [sites, Site.statementParts]⟩) nofun

instance : Covers (Framed.mk frame (Statement.switch e cases)) (Framed.mk frame cases) :=
  covers_statement frame (fun c => ⟨c.switch, by simp [sites, Site.statementParts]⟩) nofun

instance (k : SwitchCase) : Covers (Framed.mk frame k) (Framed.mk frame k.test) :=
  covers_of_sites frame fun c => ⟨c, by
    cases h : k.test <;> simp [sites, Surroundings.switchCase, h]⟩

instance (k : SwitchCase) : Covers (Framed.mk frame k) (Framed.mk frame k.body) :=
  covers_of_sites frame fun c => ⟨c, by
    simp [sites, Surroundings.switchCase, List.map_eq_flatMap]⟩

end Cases

end Statements

end Framed

/-! ## Programs -/

/-- A program that is read calls the parent constructor in constructors only. -/
theorem Program.Every.facts_code {options : ParseOptions} {p : Program}
    (h : p.Every options Site.Read) (frame : Option FrameId) :
    facts (Framed.mk frame p.body) = ∅ := by
  have hsite {s : Site} (hs : s ∈ HasSites.sites p.body (.top options)) : s ∈ p.sites options := by
    obtain ⟨statement, hstatement, hs⟩ := List.mem_flatMap.mp hs
    exact List.mem_map.mpr ⟨statement, hstatement, (List.mem_singleton.mp hs).symm⟩
  refine Set.eq_empty_of_forall_notMem ?_
  rintro _ (⟨scope, args, rfl, hin⟩ | ⟨scope, args, rfl, -, hin⟩) <;>
    obtain ⟨s, hs, hs'⟩ := hin (.top options)
  · exact (h s (hsite hs)).not_straysSuper hs'
  · have hcalls := (h s (hsite hs)).superCall_of_callsSuper hs'
    obtain ⟨statement, -, rfl⟩ := List.mem_map.mp (hsite hs)
    cases hcalls

end EcmaEval
