import EcmaEval.Eval.Hoist
import EcmaEval.Grammar.Expression
import EcmaEval.Integer.Text
import EcmaEval.Proofs.Syntax.Site

/-!
# Rules for syntax trees

Rules that every tree read from a text obeys.  The first says where jumps, labels and `super`
may stand, how many constructors a class has and what a template is made of.  The second says which
shapes the operands of spreads, assignments, loops, methods and literals have, which the evaluation
relies on.  The third says where names are declared.

## Main definitions

* `Site.Permitted`: the node may stand in its surroundings
* `Site.WellShaped`: the operands of the node have a shape that can be evaluated
* `Statement.declared`: the names that a statement adds to the frame that it is executed in
* `Site.Listed`: declarations stand in lists of statements
* `Site.CallsSuper`: code calls the constructor of the parent
* `Site.StraysSuper`: such a call stands where no constructor is around it
* `Numeral.Fractional`: a numeral has a fraction or an exponent
-/

namespace EcmaEval

/-- The text of a numeral in radix ten with a fraction or an exponent. -/
def Numeral.Fractional (text : String) : Prop :=
  Number.markedRadix? text.toList = none ∧
    ∃ ch ∈ text.toList, ch = '.' ∨ ch = 'e' ∨ ch = 'E'

/-- The constructors among the elements of a class. -/
def ClassNode.constructors (k : ClassNode) : List ClassElement :=
  k.body.filter Grammar.isConstructor

/-! ## What a statement declares -/

mutual

/-- The names that a statement adds to the frame that it is executed in.  A loop, a switch and a block
have frames of their own. -/
def Statement.declared : Statement → List String
  | .declaration kind declarators =>
    match kind with
    | .variable => []
    | .lexical | .constant => declarators.flatMap fun d => d.target.names
  | .class node => [node.name.getD ""]
  | .if _ consequent alternate => consequent.declared ++ declaredOfOption alternate
  | .labeled _ body => body.declared
  | .empty | .debugger | .expression _ | .return _ | .break _ | .continue _ | .throw _
  | .function _ | .while .. | .doWhile .. | .for .. | .forIn .. | .forOf .. | .block _ | .try ..
  | .switch .. | .with .. => []

/-- The names that a statement that may be missing adds to its frame. -/
def declaredOfOption : Option Statement → List String
  | none => []
  | some statement => statement.declared

end

/-- The statements directly inside a statement that stand in no list of statements. -/
def Statement.inner : Statement → List Statement
  | .if _ consequent alternate => consequent :: alternate.toList
  | .while _ body | .doWhile body _ | .for _ _ _ body | .forIn _ _ body | .forOf _ _ body
  | .labeled _ body | .with _ body => [body]
  | .empty | .debugger | .expression _ | .declaration .. | .return _ | .break _ | .continue _
  | .throw _ | .function _ | .class _ | .block _ | .try .. | .switch .. => []

/-! ## Functions with a receiver of their own -/

/-- The function of a member of an object literal that has a `this` of its own. -/
def ObjectMember.method? (m : ObjectMember) : Option FunctionNode :=
  match m.kind, m.value with
  | .value, _ | .spread, _ => none
  | _, .function f => some f
  | _, _ => none

namespace ObjectMember

variable {m : ObjectMember} {f : FunctionNode}

theorem method?_of_spread (h : m.kind = .spread) : m.method? = none := by
  unfold method?
  rw [h]

theorem method?_of_value (h : m.kind = .value) : m.method? = none := by
  unfold method?
  rw [h]

theorem method?_of_function (hvalue : m.kind ≠ .value) (hspread : m.kind ≠ .spread)
    (h : m.value = .function f) : m.method? = some f := by
  unfold method?
  rw [h]
  cases hkind : m.kind with
  | value => exact absurd hkind hvalue
  | spread => exact absurd hkind hspread
  | _ => rfl

end ObjectMember

namespace Surroundings

variable (c : Surroundings)

/-- The key of an element of a class. -/
def elementKey : ClassElement → List Site
  | .method _ _ key _ | .field _ key _ => c.propertyKey key
  | .staticBlock _ => []

/-- What an element of a class runs with a `this` of its own, unless it is the constructor. -/
def elementBody : ClassElement → List Site
  | .method kind _ _ f => if kind = .constructor then [] else c.ownFunction true false f
  | .field _ _ value => value.toList.map (c.ownBody true false).expression
  | .staticBlock statements => statements.map (c.ownBody true false).statement

end Surroundings

namespace Site

/-- The sites right below a site that run with the `this` around it. -/
def openParts : Site → List Site
  | ⟨_, .expression (.function _)⟩ | ⟨_, .statement (.function _)⟩ => []
  | ⟨c, .expression (.arrow f)⟩ => if f.isArrow then c.arrow f else []
  | ⟨c, .expression (.object members)⟩ => members.flatMap fun m =>
    c.propertyKey m.key ++ if m.method?.isSome then [] else [c.expression m.value]
  | ⟨c, .class k⟩ => k.heritage.toList.map c.expression ++ k.body.flatMap c.elementKey
  | s => s.parts

/-- The sites right below a site that run with a `this` of their own, but for those of a
constructor. -/
def closedParts : Site → List Site
  | ⟨c, .expression (.function f)⟩ | ⟨c, .statement (.function f)⟩ => c.ownFunction false false f
  | ⟨c, .expression (.arrow f)⟩ => if f.isArrow then [] else c.arrow f
  | ⟨c, .expression (.object members)⟩ =>
    members.flatMap fun m => m.method?.toList.flatMap (c.ownFunction true false)
  | ⟨c, .class k⟩ => k.body.flatMap c.elementBody
  | _ => []

/-- The code of the site calls the constructor of the parent with these arguments, through arrow
functions only. -/
inductive CallsSuper (args : List Expression) : Site → Prop where
  | here (c : Surroundings) : CallsSuper args (c.expression (.call .super args))
  | inside {s t : Site} (part : t ∈ s.openParts) (within : CallsSuper args t) : CallsSuper args s

/-- Somewhere below the site the constructor of the parent is called in a function that has a `this`
of its own and is no constructor. -/
inductive StraysSuper (args : List Expression) : Site → Prop where
  | here {s t : Site} (part : t ∈ s.closedParts) (calls : t.CallsSuper args) : StraysSuper args s
  | inside {s t : Site} (part : t ∈ s.parts) (within : StraysSuper args t) : StraysSuper args s

end Site

/-! ## Rules -/

namespace Site

/-- What may stand where.  A jump needs something in reach that it can aim at, and a label must not
be one of those around it.  The word `super` needs a home object where it is accessed and the
constructor of a class that extends another where it is called or constructed, and stands nowhere
else. -/
def Permitted : Site → Prop
  | ⟨c, .statement (.return _)⟩ => c.mayReturn
  | ⟨c, .statement (.break none)⟩ => c.inLoop ∨ c.inSwitch
  | ⟨c, .statement (.break (some label))⟩ => ∃ onLoop, (label, onLoop) ∈ c.labels
  | ⟨c, .statement (.continue none)⟩ => c.inLoop
  | ⟨c, .statement (.continue (some label))⟩ => (label, true) ∈ c.labels
  | ⟨c, .statement (.labeled label _)⟩ => ∀ onLoop, (label, onLoop) ∉ c.labels
  | ⟨c, .expression (.member .super _)⟩ => c.superProperty
  | ⟨c, .expression (.call .super _)⟩ => c.superCall
  | ⟨c, .expression (.new .super _)⟩ => c.superCall
  | ⟨_, .expression .super⟩ => False
  | ⟨_, .expression (.template texts substitutions)⟩ =>
    texts.length = substitutions.length + 1 ∧ none ∉ texts
  | ⟨_, .expression (.taggedTemplate _ texts substitutions)⟩ =>
    texts.length = substitutions.length + 1
  | ⟨_, .class k⟩ => k.constructors.length ≤ 1
  | _ => True

/-- Which shapes operands have.  A spread stands in a list only, what is assigned to is a place or
a pattern, a method is a function, an arrow function is marked as one, and the digits of an unbounded
integer denote one unless they have a fraction or an exponent. -/
def WellShaped : Site → Prop
  | ⟨_, .expression (.spread _)⟩ => False
  | ⟨_, .expression (.object members)⟩ =>
    ∀ m ∈ members, m.kind = .value ∨ m.kind = .spread ∨ ∃ f, m.value = .function f
  | ⟨_, .expression (.arrow f)⟩ => f.isArrow
  | ⟨_, .expression (.assign _ target _)⟩ => Grammar.isTarget false target
  | ⟨_, .expression (.update _ _ target)⟩ => Grammar.isTarget true target
  | ⟨_, .statement (.forIn (.target target) _ _)⟩ => Grammar.isTarget true target
  | ⟨_, .statement (.forOf (.target target) _ _)⟩ => Grammar.isTarget true target
  | ⟨_, .expression (.literal (.bigint digits))⟩ =>
    Integer.ofText? digits = none ↔ Numeral.Fractional digits
  | _ => True

/-- The rule of the trees that are read from a text. -/
def Readable (s : Site) : Prop := s.Permitted ∧ s.WellShaped

/-- Declarations stand in lists of statements: other statements inside a statement declare nothing
in the frame that they are executed in. -/
def Listed : Site → Prop
  | ⟨_, .statement s⟩ => ∀ t ∈ s.inner, t.declared = []
  | _ => True

/-- The rule of the trees that are read from a text, with what they declare. -/
def Read (s : Site) : Prop := s.Readable ∧ s.Listed

/-! ## Calls of the parent constructor in trees that are read -/

/-- The sites are around calls of the parent constructor like `c`. -/
def Alike (c : Surroundings) (ts : List Site) : Prop :=
  ∀ t ∈ ts, t.surroundings.superCall = c.superCall

section Alike

variable {c : Surroundings} {ts us : List Site} {α : Type}

@[simp] theorem alike_nil : Alike c [] := List.forall_mem_nil _

@[simp] theorem alike_cons {t : Site} :
    Alike c (t :: ts) ↔ t.surroundings.superCall = c.superCall ∧ Alike c ts :=
  List.forall_mem_cons

@[simp] theorem alike_append : Alike c (ts ++ us) ↔ Alike c ts ∧ Alike c us :=
  List.forall_mem_append

@[simp] theorem alike_map {f : α → Site} {xs : List α} :
    Alike c (xs.map f) ↔ ∀ x ∈ xs, (f x).surroundings.superCall = c.superCall :=
  List.forall_mem_map

@[simp] theorem alike_flatMap {f : α → List Site} {xs : List α} :
    Alike c (xs.flatMap f) ↔ ∀ x ∈ xs, Alike c (f x) := by
  simp only [Alike, List.mem_flatMap]
  exact ⟨fun h x hx t ht => h t ⟨x, hx, ht⟩, fun h t ⟨x, hx, ht⟩ => h x hx t ht⟩

@[simp] theorem surroundings_element (e : Expression) : (c.element e).surroundings = c := by
  cases e <;> rfl

@[simp] theorem alike_base (e : Expression) : Alike c (c.base e) := by
  cases e <;> simp [Surroundings.base]

@[simp] theorem alike_propertyKey (key : PropertyKey) : Alike c (c.propertyKey key) := by
  cases key <;> simp [Surroundings.propertyKey]

@[simp] theorem alike_memberKey (key : MemberKey) : Alike c (c.memberKey key) := by
  cases key <;> simp [Surroundings.memberKey]

@[simp] theorem alike_elementKey (element : ClassElement) : Alike c (c.elementKey element) := by
  cases element <;> simp [Surroundings.elementKey]

@[simp] theorem alike_patternMember (m : PatternMember) : Alike c (c.patternMember m) := by
  simp [Surroundings.patternMember]

@[simp] theorem alike_declarator (d : Declarator) : Alike c (c.declarator d) := by
  simp [Surroundings.declarator]

@[simp] theorem alike_forInit (init : ForInit) : Alike c (c.forInit init) := by
  cases init <;> simp [Surroundings.forInit]

@[simp] theorem alike_forHead (head : ForHead) : Alike c (c.forHead head) := by
  cases head <;> simp [Surroundings.forHead]

@[simp] theorem alike_handler (h : CatchClause) : Alike c (c.handler h) := by
  simp [Surroundings.handler]

@[simp] theorem alike_switchCase (k : SwitchCase) : Alike c (c.switch.switchCase k) := by
  simp [Surroundings.switchCase, Surroundings.switch]

theorem alike_arrow (f : FunctionNode) : Alike c (c.arrow f) := by
  cases hbody : f.body <;> simp [Surroundings.arrow, Surroundings.functionBody, Surroundings.body, hbody]

end Alike

theorem memberValue_eq (c : Surroundings) (m : ObjectMember) : c.memberValue m.kind m.value =
    (m.method?.map (c.ownFunction true false)).getD [c.expression m.value] := by
  obtain ⟨kind, key, value, shorthand⟩ := m
  cases kind <;> cases value <;> rfl

/-- What runs with the `this` around it calls the parent constructor where that is called around
it. -/
theorem alike_openParts (s : Site) : Alike s.surroundings s.openParts := by
  obtain ⟨c, n⟩ := s
  cases n with
  | expression e =>
    cases e
    case arrow f =>
      by_cases harrow : f.isArrow <;> simp [openParts, harrow, alike_arrow]
    case object members =>
      simp only [openParts, alike_flatMap, alike_append]
      intro m _
      split <;> simp
    all_goals simp [openParts, parts, expressionParts]
  | pattern p => cases p <;> simp [openParts, parts, patternParts]
  | statement s =>
    cases s
    all_goals simp [openParts, parts, statementParts, Surroundings.loop, Surroundings.labeled]
  | «class» k => simp [openParts]

theorem elementKey_subset (c : Surroundings) (derived : Bool) (element : ClassElement) :
    c.elementKey element ⊆ c.classElement derived element := by
  cases element <;> simp [Surroundings.elementKey, Surroundings.classElement]

theorem elementBody_subset (c : Surroundings) (derived : Bool) (element : ClassElement) :
    c.elementBody element ⊆ c.classElement derived element := by
  cases element with
  | method kind isStatic key f => by_cases hkind : kind = .constructor <;>
      simp [Surroundings.elementBody, Surroundings.classElement, hkind]
  | _ => simp [Surroundings.elementBody, Surroundings.classElement]

theorem flatMap_subset {α : Type} {f g : α → List Site} (xs : List α) (h : ∀ x, f x ⊆ g x) :
    xs.flatMap f ⊆ xs.flatMap g := by
  intro t ht
  obtain ⟨x, hx, ht⟩ := List.mem_flatMap.mp ht
  exact List.mem_flatMap.mpr ⟨x, hx, h x ht⟩

theorem openParts_subset (s : Site) : s.openParts ⊆ s.parts := by
  obtain ⟨c, n⟩ := s
  cases n with
  | expression e =>
    cases e
    case arrow f =>
      by_cases harrow : f.isArrow <;> simp [openParts, parts, expressionParts, harrow]
    case object members =>
      refine flatMap_subset members fun m => ?_
      rw [Surroundings.objectMember, memberValue_eq]
      cases m.method? <;> simp
    case function => exact List.nil_subset _
    all_goals exact List.Subset.refl _
  | pattern p => exact List.Subset.refl _
  | statement s =>
    cases s
    case function => exact List.nil_subset _
    all_goals exact List.Subset.refl _
  | «class» k =>
    exact List.append_subset.mpr ⟨List.subset_append_left _ _,
      List.subset_append_of_subset_right _ (flatMap_subset _ (elementKey_subset c _))⟩

theorem closedParts_subset (s : Site) : s.closedParts ⊆ s.parts := by
  obtain ⟨c, n⟩ := s
  cases n with
  | expression e =>
    cases e
    case arrow f =>
      by_cases harrow : f.isArrow <;> simp [closedParts, parts, expressionParts, harrow]
    case object members =>
      refine flatMap_subset members fun m => ?_
      rw [Surroundings.objectMember, memberValue_eq]
      cases m.method? <;> simp
    case function => exact List.Subset.refl _
    all_goals exact List.nil_subset _
  | pattern p => exact List.nil_subset _
  | statement s =>
    cases s
    case function => exact List.Subset.refl _
    all_goals exact List.nil_subset _
  | «class» k =>
    exact List.subset_append_of_subset_right _ (flatMap_subset _ (elementBody_subset c _))

theorem superCall_of_mem_ownFunction {c : Surroundings} {superProperty : Bool} {f : FunctionNode}
    {t : Site} (ht : t ∈ c.ownFunction superProperty false f) : t.surroundings.superCall = false :=
  alike_arrow (c := c.ownBody superProperty false) f t ht

/-- What runs with a `this` of its own, and is no constructor, must not call the parent
constructor. -/
theorem superCall_of_mem_closedParts {s t : Site} (hs : s.WellShaped) (ht : t ∈ s.closedParts) :
    t.surroundings.superCall = false := by
  obtain ⟨c, n⟩ := s
  cases n with
  | expression e =>
    cases e
    case arrow f =>
      have harrow : f.isArrow = true := hs
      simp [closedParts, harrow] at ht
    case object members =>
      obtain ⟨m, -, ht⟩ := List.mem_flatMap.mp ht
      obtain ⟨f, -, ht⟩ := List.mem_flatMap.mp ht
      exact superCall_of_mem_ownFunction ht
    case function => exact superCall_of_mem_ownFunction ht
    all_goals cases ht
  | pattern p => cases ht
  | statement s =>
    cases s
    case function => exact superCall_of_mem_ownFunction ht
    all_goals cases ht
  | «class» k =>
    obtain ⟨element, -, ht⟩ := List.mem_flatMap.mp ht
    cases element with
    | method kind isStatic key f =>
      by_cases hkind : kind = .constructor
      · simp [Surroundings.elementBody, hkind] at ht
      · simp only [Surroundings.elementBody, hkind, if_false] at ht
        exact superCall_of_mem_ownFunction ht
    | field isStatic key value =>
      obtain ⟨e, -, rfl⟩ := List.mem_map.mp ht
      rfl
    | staticBlock statements =>
      obtain ⟨statement, -, rfl⟩ := List.mem_map.mp ht
      rfl

section Read

variable {args : List Expression} {s : Site}

/-- Where the parent constructor is called, it may be called. -/
theorem Every.superCall_of_callsSuper (h : s.CallsSuper args) (hs : s.Every Read) :
    s.surroundings.superCall = true := by
  induction h with
  | here c => exact hs.here.1.1
  | @inside s t part within ih =>
    exact (alike_openParts s t part).symm.trans (ih (hs.parts t (openParts_subset s part)))

/-- In a tree that is read the parent constructor is called in constructors only. -/
theorem Every.not_straysSuper (hs : s.Every Read) : ¬ s.StraysSuper args := by
  intro h
  induction h with
  | @here s t part calls =>
    have htrue := Every.superCall_of_callsSuper calls (hs.parts t (closedParts_subset s part))
    rw [superCall_of_mem_closedParts hs.here.1.2 part] at htrue
    cases htrue
  | @inside s t part within ih => exact ih (hs.parts t part)

end Read

end Site

end EcmaEval
