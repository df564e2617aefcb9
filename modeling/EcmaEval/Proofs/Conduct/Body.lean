import EcmaEval.Eval.Statement
import EcmaEval.Proofs.Conduct.Code
import EcmaEval.Proofs.Conduct.Settlement

/-!
# Names of bodies

The names that a body declares with `var` are bound before its statements run, in the frame that
takes its variables.  From then on that frame owns them, also seen from the blocks inside the body,
and a declaration that is executed later writes what is there.

## Main definitions

* `Owned`: the frame of variables is known to bind some names
* `Rooted`: a frame is known to take variables
* `Declares`: some names are where a kind of declaration needs them

## Main results

* `Law.leaves_hoist`: behind the hoist the frame of variables owns the names
* `Law.Conducts.executeBody`: a body in its frame
* `Law.Conducts.callClosure`: a call of a function of the program
-/

namespace EcmaEval

variable {L : Law} {K : Knowledge} {scope : FrameId} {names : List String}

/-! ## What is known of names -/

/-- That the frame which takes the variables of `scope` binds some names. -/
def ownedFacts (scope : FrameId) (names : List String) : Set Fact :=
  {f | ∃ name ∈ names, f = .owns scope name}

/-- The frame that takes the variables of `scope` is known to bind the names. -/
class Owned (K : Knowledge) (scope : FrameId) (names : List String) : Prop where
  known : ownedFacts scope names ⊆ K.known

/-- The frame is known to take variables. -/
class Rooted (K : Knowledge) (scope : FrameId) : Prop where
  known : .root scope ∈ K.known

/-- The names can be bound for `var`: they are already, or the frame takes variables itself. -/
class Hoists (K : Knowledge) (scope : FrameId) (names : List String) : Prop where
  known : ∀ name ∈ names, .owns scope name ∈ K.known ∨ .root scope ∈ K.known

/-- What a declaration of a kind needs of a name. -/
def declaredFact (scope : FrameId) (kind : DeclarationKind) (name : String) : Fact :=
  match kind with
  | .variable => .owns scope name
  | .lexical | .constant => .free scope name

/-- A declaration of a kind finds the names as it needs them. -/
class Declares (K : Knowledge) (scope : FrameId) (kind : DeclarationKind) (names : List String) :
    Prop where
  known : ∀ name ∈ names, declaredFact scope kind name ∈ K.known

section Names

variable {α : Type} [HasFacts α]

instance (priority := low) (F : Set Fact) [h : Owned K scope names] : Owned (K.plus F) scope names :=
  ⟨h.known.trans Set.subset_union_left⟩

instance (priority := low) (x : α) [h : Owned K scope names] : Owned (K.and x) scope names :=
  ⟨h.known.trans Set.subset_union_left⟩

instance owned_plus : Owned (K.plus (ownedFacts scope names)) scope names :=
  ⟨Set.subset_union_right⟩

/-- A block owns what the frame around it owns. -/
instance (outer : FrameId) [h : Owned K outer names] : Owned (K.inBlock outer scope) scope names := by
  refine ⟨?_⟩
  rintro _ ⟨name, hname, rfl⟩
  exact .inr (.inl (.inr ⟨name, rfl, h.known ⟨name, hname, rfl⟩⟩))

theorem Owned.subset {names' : List String} [h : Owned K scope names] (hsub : names' ⊆ names) :
    Owned K scope names' :=
  ⟨fun _ ⟨name, hname, heq⟩ => h.known ⟨name, hsub hname, heq⟩⟩

instance (priority := low) (x : α) [h : Rooted K scope] : Rooted (K.and x) scope := ⟨.inl h.known⟩

instance rooted_inFrame : Rooted (K.inFrame scope) scope := ⟨.inr (.inl (.inr rfl))⟩

instance (priority := low) (inner : FrameId) [h : Rooted K scope] :
    Rooted (K.inFrame inner) scope :=
  ⟨.inl h.known⟩

/-- The frame of programs takes variables. -/
instance (r : Realm) [h : Shown K r] : Rooted K r.programFrame :=
  ⟨h.facts_subset (.inr (.inr rfl))⟩

instance [h : Owned K scope names] : Hoists K scope names :=
  ⟨fun name hname => .inl (h.known ⟨name, hname, rfl⟩)⟩

instance [h : Rooted K scope] : Hoists K scope names := ⟨fun _ _ => .inr h.known⟩

instance (priority := low) (x : α) (kind : DeclarationKind) [h : Declares K scope kind names] :
    Declares (K.and x) scope kind names :=
  ⟨fun name hname => .inl (h.known name hname)⟩

/-- In a frame of its own any kind of declaration finds what it needs. -/
theorem Declares.of_owned {kind : DeclarationKind} [hfree : ∀ name, Free K scope name]
    (h : kind = .variable → Owned K scope names) : Declares K scope kind names := by
  refine ⟨fun name hname => ?_⟩
  cases kind with
  | «variable» => exact (h rfl).known ⟨name, hname, rfl⟩
  | lexical => exact (hfree name).known
  | constant => exact (hfree name).known

/-- A statement may be executed where its variables are owned and any name may be added. -/
instance Shown.execute (s : Statement) [h : Shown K scope] [howned : Owned K scope s.variableNames]
    [hfree : ∀ name, Free K scope name] [hcode : Shown K (Framed.mk (some scope) s)] :
    Shown K (Query.execute scope s) := by
  refine .union rfl (Set.union_subset (Set.union_subset h.facts_subset howned.known) ?_)
    hcode.facts_subset
  rintro _ ⟨name, -, rfl⟩
  exact (hfree name).known

section Parts

variable (s : Statement) [h : Shown K (Query.execute scope s)]

include h

theorem Shown.scope_of_execute : Shown K scope :=
  ⟨fun _ hf => h.facts_subset (.inl (.inl (.inl hf)))⟩

theorem Shown.owned_of_execute : Owned K scope s.variableNames :=
  ⟨fun _ hf => h.facts_subset (.inl (.inl (.inr hf)))⟩

theorem Shown.free_of_execute {name : String} (hname : name ∈ s.declared) : Free K scope name :=
  ⟨h.facts_subset (.inl (.inr ⟨name, hname, rfl⟩))⟩

theorem Shown.code_of_execute : Shown K (Framed.mk (some scope) s) :=
  ⟨fun _ hf => h.facts_subset (.inr hf)⟩

/-- A part of a statement may be executed where the statement may. -/
theorem Shown.execute_part {s' : Statement} (hvariable : s'.variableNames ⊆ s.variableNames)
    (hdeclared : s'.declared ⊆ s.declared) [hcode : Shown K (Framed.mk (some scope) s')] :
    Shown K (Query.execute scope s') := by
  refine .union rfl (Set.union_subset (Set.union_subset (scope_of_execute s).facts_subset ?_) ?_)
    hcode.facts_subset
  · have howned : Owned K scope s.variableNames := owned_of_execute s
    exact (howned.subset hvariable).known
  · rintro _ ⟨name, hname, rfl⟩
    exact (free_of_execute s (hdeclared hname)).known

end Parts

end Names

namespace Law

open EcmaEval.Action EcmaEval.Engine

variable {engine : Engine} [hengine : engine.Behaves L]

/-! ## Declarations before the run -/

section Hoist

variable (scope) [hscope : Shown K scope]

instance newClosure (node : FunctionNode) (name : String) (home : Option ObjectId)
    [Placed K home] [Shown K (Framed.mk (if node.isArrow then some scope else none) node)] :
    L.Conducts K (newClosure node scope name home) := by
  unfold Action.newClosure
  infer_instance

instance hoistFunctions (statements : List Statement) [hfree : ∀ name, Free K scope name]
    [hcode : Shown K (Framed.mk (some scope) statements)] :
    L.Conducts K (hoistFunctions scope statements) := by
  -- Induction on the statements that are left.
  induction statements generalizing K with
  | nil =>
    unfold Action.hoistFunctions
    infer_instance
  | cons s rest ih =>
    have hs : Shown K (Framed.mk (some scope) s) := .covered (Framed.mk (some scope) (s :: rest))
    have : Shown K (Framed.mk (some scope) rest) := .covered (Framed.mk (some scope) (s :: rest))
    cases s with
    | function node =>
      have : Shown K (Framed.mk none node) := .covered (Framed.mk (some scope) (Statement.function node))
      unfold Action.hoistFunctions
      infer_instance
    | _ => exact ih

end Hoist

end Law

/-- Names that are missing are bound, and the others stay as they are. -/
theorem Frame.binds_declareMissing (f : Frame) (name other : String) :
    (f.declareMissing name).binds other = true ↔ other = name ∨ f.binds other = true := by
  unfold declareMissing
  split
  · next hbinds =>
    refine ⟨.inr, fun h => ?_⟩
    rcases h with rfl | h
    · exact hbinds
    · exact h
  · exact f.binds_declareVariable name other _

theorem Frame.binds_foldl_declareMissing (f : Frame) (names : List String) (other : String) :
    (names.foldl declareMissing f).binds other = true ↔ other ∈ names ∨ f.binds other = true := by
  induction names generalizing f with
  | nil => simp
  | cons name names ih =>
    rw [List.foldl_cons, ih, binds_declareMissing, List.mem_cons]
    tauto

theorem Frame.persists_foldl_declareMissing (f : Frame) (names : List String) :
    f.Persists (names.foldl declareMissing f) := by
  induction names generalizing f with
  | nil => exact .refl f
  | cons name names ih =>
    have hone : f.Persists (f.declareMissing name) := by
      unfold declareMissing
      split
      · exact .refl f
      · exact .insert f name _
    exact hone.trans (ih _)

namespace Law

open EcmaEval.Action EcmaEval.Engine

variable {engine : Engine} [hengine : engine.Behaves L]

/-- The names that `var` declares are bound where they are not. -/
theorem leaves_declareMissing [hscope : Shown K scope] [hnames : Hoists K scope names]
    [hfree : ∀ name, Free K scope name] :
    L.Leaves K (do
      let target ← readFrames (·.variableScope scope)
      modifyFrame target fun f => names.foldl Frame.declareMissing f) fun _ =>
        ownedFacts scope names := by
  intro m hm
  have hlt : m.Grants L K.hidden (.frame scope) := hm.facts_subset scope rfl
  have hle := hm.sound.nested.variableScope_le hlt
  let target := m.frames.variableScope scope
  have hstep : L.Step K.hidden L.suites m { m with
      frames := m.frames.modify target (fun f => names.foldl Frame.declareMissing f) } := by
    refine .modifyFrame hm.sound (Frame.persists_foldl_declareMissing _ names)
      (fun name h => ?_) ?_
    · rcases (Frame.binds_foldl_declareMissing _ names name).mp h with hname | h
      · -- A name that the frame does not own yet goes to the frame itself.
        rcases hnames.known name hname with howns | hroot
        · exact .inl (hm.known howns : _ ∧ _).2
        · have hroot : _ ∧ _ := hm.known hroot
          have htarget : target = scope := Frames.variableScope_root hroot.1 hroot.2
          exact .inr (htarget.symm ▸ hm.known (hfree name).known)
      · exact .inl h
    · have hchange : Shown (K.and (m.frames.get target))
          (names.foldl Frame.declareMissing (m.frames.get target)) := inferInstance
      exact hchange.facts_subset.trans (hm.and_subset (hm.sound.frames target))
  refine .ok hstep ?_
  rintro _ ⟨name, hname, rfl⟩
  refine ⟨hlt.trans_le hstep.grows.frames.size_le, ?_⟩
  rw [hstep.grows.frames.variableScope hm.sound.nested hlt]
  change ((m.frames.modify target _).get target).binds name = true
  rw [m.frames.get_modify_self (hle.trans_lt hlt)]
  exact (Frame.binds_foldl_declareMissing _ names name).mpr (.inl hname)

/-- Behind the hoist the frame of variables owns what the statements declare with `var`. -/
theorem leaves_hoist (statements : List Statement) [hscope : Shown K scope]
    [hnames : Hoists K scope (variableNamesOfList statements)]
    [hfree : ∀ name, Free K scope name] [Shown K (Framed.mk (some scope) statements)] :
    L.Leaves K (hoist scope statements) fun _ =>
      ownedFacts scope (variableNamesOfList statements) := by
  have hrest : L.Leaves (K.plus (ownedFacts scope (variableNamesOfList statements)))
      (Action.hoistFunctions scope statements) fun _ =>
        ownedFacts scope (variableNamesOfList statements) :=
    (hoistFunctions scope statements).leaves.remember Set.subset_union_right
  unfold hoist
  dsimp only
  split
  · next hempty =>
    have hnil : ownedFacts scope (variableNamesOfList statements) = ∅ := by
      rw [List.isEmpty_iff.mp hempty]
      exact Set.eq_empty_of_forall_notMem fun _ ⟨_, h, _⟩ => nomatch h
    rw [hnil] at hrest ⊢
    exact hrest.mono (Set.union_subset Set.Subset.rfl (Set.empty_subset _)) rfl
  · rw [← bind_assoc]
    exact leaves_declareMissing.bind fun _ => hrest

namespace Conducts

/-! ## Statements in sequence -/

section Sequence

variable (scope) (statements : List Statement) [hscope : Shown K scope]
  [hfree : ∀ name, Free K scope name] [hcode : Shown K (Framed.mk (some scope) statements)]

instance executeFrom (last : Value) [Shown K last]
    [howned : Owned K scope (variableNamesOfList statements)] :
    L.Conducts K (engine.executeFrom scope last statements) := by
  -- Induction on the statements that are left.
  induction statements generalizing last K with
  | nil =>
    unfold Engine.executeFrom
    infer_instance
  | cons s rest ih =>
    have : Owned K scope s.variableNames := howned.subset (List.subset_append_left _ _)
    have : Owned K scope (variableNamesOfList rest) := howned.subset (List.subset_append_right _ _)
    have : Shown K (Framed.mk (some scope) s) := .covered (Framed.mk (some scope) (s :: rest))
    have : Shown K (Framed.mk (some scope) rest) := .covered (Framed.mk (some scope) (s :: rest))
    unfold Engine.executeFrom
    infer_instance

instance executeList [Owned K scope (variableNamesOfList statements)] :
    L.Conducts K (engine.executeList scope statements) :=
  executeFrom scope statements .undefined

instance executeBody [Hoists K scope (variableNamesOfList statements)] :
    L.Conducts K (engine.executeBody scope statements) :=
  (leaves_hoist statements).andThen fun _ => inferInstance

end Sequence

instance executeBlock (scope : FrameId) (statements : List Statement) [Shown K scope]
    [Owned K scope (variableNamesOfList statements)]
    [Shown K (Framed.mk (some scope) statements)] :
    L.Conducts K (engine.executeBlock scope statements) := by
  unfold Engine.executeBlock
  infer_instance

/-! ## Names and references -/

section References

variable (scope : FrameId) [hscope : Shown K scope]

instance (name : String) : L.Conducts K (nameValue scope name) := by
  unfold nameValue
  infer_instance

/-- A name is assigned where it is bound. -/
instance (name : String) (value : Value) [Shown K value] :
    L.Conducts K (assignName scope name value) := by
  refine ⟨fun m hm => ?_⟩
  unfold assignName
  rw [readFrames_bind]
  cases htarget : m.frames.assignmentTarget scope name with
  | error failure => cases failure <;> exact Conducts.ends inferInstance hm
  | ok owner =>
    have hbinds := Frames.binds_of_assignmentTarget htarget
    exact .ok (.declareVariable hm (.inl hbinds) value) (subset_of_plain _ _)

instance : L.Conducts K (thisValue scope) := by
  unfold thisValue innermost
  refine .bind fun this => ?_
  cases this with
  | none => infer_instance
  | some this => cases this <;> infer_instance

/-- The home of a function may be still in the making, but its prototype is not. -/
instance : L.Conducts K (superBase scope) := by
  refine ⟨fun m hm => ?_⟩
  unfold superBase innermost
  rw [readFrames_bind]
  generalize Option.bind _ _ = home
  cases home <;> exact Conducts.ends inferInstance hm

instance (key : String) : L.Conducts K (engine.getSuper scope key) := by
  unfold getSuper
  refine .bind fun base => .bind fun this => ?_
  split <;> infer_instance

instance (key : String) (value : Value) [Shown K value] :
    L.Conducts K (engine.setSuper scope key value) := by
  unfold setSuper
  refine .bind fun base => .bind fun this => ?_
  split <;> infer_instance

instance (key : MemberKey) [hkey : Shown K (Framed.mk (some scope) key)] :
    L.Conducts K (engine.memberKey scope key) := by
  unfold memberKey
  cases key with
  | name name => infer_instance
  | computed e =>
    have : Shown K (Framed.mk (some scope) e) := .covered (Framed.mk (some scope) (MemberKey.computed e))
    infer_instance

instance (key : PropertyKey) [hkey : Shown K (Framed.mk (some scope) key)] :
    L.Conducts K (engine.propertyKey scope key) := by
  unfold propertyKey
  cases key with
  | computed e =>
    have : Shown K (Framed.mk (some scope) e) :=
      .covered (Framed.mk (some scope) (PropertyKey.computed e))
    infer_instance
  | _ => infer_instance

instance (target : Expression) [htarget : Shown K (Framed.mk (some scope) target)] :
    L.Conducts K (engine.resolve scope target) := by
  unfold resolve
  split
  case h_2 key =>
    have : Shown K (Framed.mk (some scope) key) :=
      .covered (Framed.mk (some scope) (Expression.member .super key))
    infer_instance
  case h_3 object key _ =>
    have : Shown K (Framed.mk (some scope) object) :=
      .covered (Framed.mk (some scope) (Expression.member object key))
    have : Shown K (Framed.mk (some scope) key) :=
      .covered (Framed.mk (some scope) (Expression.member object key))
    infer_instance
  all_goals infer_instance

instance (r : Reference) [Shown K r] : L.Conducts K (engine.readReference scope r) := by
  unfold readReference
  cases r with
  | property base key =>
    have : Shown K base := .covered (Reference.property base key)
    infer_instance
  | _ => infer_instance

instance (r : Reference) (value : Value) [Shown K r] [Shown K value] :
    L.Conducts K (engine.writeReference scope r value) := by
  unfold writeReference
  cases r with
  | property base key =>
    have : Shown K base := .covered (Reference.property base key)
    infer_instance
  | _ => infer_instance

/-! ## Declarations -/

/-- A `var` writes a name that is there, and the other kinds add one that may be added. -/
instance declare (kind : DeclarationKind) (name : String) (value : Value) [Shown K value]
    [hdeclares : Declares K scope kind [name]] : L.Conducts K (declare scope kind name value) := by
  have hknown := hdeclares.known name List.mem_cons_self
  cases kind with
  | «variable» =>
    refine ⟨fun m hm => ?_⟩
    unfold Engine.declare
    simp only [readFrames_bind]
    have howns : _ ∧ _ := hm.known hknown
    exact .ok (.declareVariable hm (.inl howns.2) value) (subset_of_plain _ _)
  | lexical =>
    have : Free K scope name := ⟨hknown⟩
    unfold Engine.declare
    infer_instance
  | constant =>
    have : Free K scope name := ⟨hknown⟩
    unfold Engine.declare
    infer_instance

instance (kind : DeclarationKind) (d : Declarator)
    [hdeclares : Declares K scope kind d.target.names] [hcode : Shown K (Framed.mk (some scope) d)] :
    L.Conducts K (engine.executeDeclarator scope kind d) := by
  have hinit : Shown K (Framed.mk (some scope) d.init) := .covered (Framed.mk (some scope) d)
  unfold executeDeclarator
  cases htarget : d.target with
  | identifier name =>
    have : Declares K scope kind [name] := by
      rw [htarget] at hdeclares
      exact hdeclares
    dsimp only
    split
    · next e heq =>
      have : Shown K (Framed.mk (some scope) e) := by
        rw [heq] at hinit
        exact .covered (Framed.mk (some scope) (some e))
      infer_instance
    all_goals infer_instance
  | _ => infer_instance

theorem executeDeclaration (kind : DeclarationKind) (declarators : List Declarator)
    [hdeclares : Declares K scope kind (declarators.flatMap fun d => d.target.names)]
    [hcode : Shown K (Framed.mk (some scope) declarators)] :
    L.Conducts K (engine.executeDeclaration scope kind declarators) := by
  unfold Engine.executeDeclaration
  refine forM_of_mem fun d hd => ?_
  have : Declares K scope kind d.target.names :=
    ⟨fun name hname => hdeclares.known name (List.mem_flatMap.mpr ⟨d, hd, hname⟩)⟩
  have := Framed.covers_of_mem hd (some scope)
  have : Shown K (Framed.mk (some scope) d) := hcode.part
  infer_instance

instance bindHead (head : ForHead) (value : Value) [Shown K value]
    [hfree : ∀ name, Free K scope name] [howned : Owned K scope head.variableNames]
    [hcode : Shown K (Framed.mk (some scope) head)] :
    L.Conducts K (engine.bindHead scope head value) := by
  unfold Engine.bindHead
  cases head with
  | declaration kind target =>
    cases target with
    | identifier name =>
      have : Declares K scope kind [name] := .of_owned fun h => by
        subst h
        exact howned
      infer_instance
    | _ => infer_instance
  | target e =>
    have : Shown K (Framed.mk (some scope) e) := .covered (Framed.mk (some scope) (ForHead.target e))
    infer_instance

end References

/-! ## Functions -/

section Functions

variable (scope : FrameId) [hscope : Shown K scope]

instance functionExpression (name : String) (node : FunctionNode) [Shown K (Framed.mk none node)] :
    L.Conducts K (functionExpression name scope node) := by
  unfold Engine.functionExpression
  split <;> infer_instance

instance parameter (args : List Value) [Shown K args] (i : Nat) (p : Pattern)
    [hcode : Shown K (Framed.mk (some scope) p)] : L.Conducts K (engine.parameter scope args i p) := by
  unfold Engine.parameter
  split
  case h_2 name value =>
    have : Shown K (Framed.mk (some scope) value) :=
      .covered (Framed.mk (some scope) (Pattern.withDefault (.identifier name) value))
    infer_instance
  all_goals infer_instance

instance bindParameters (args : List Value) [Shown K args] (i : Nat) (params : List Pattern)
    [hfree : ∀ name, Free K scope name] [hcode : Shown K (Framed.mk (some scope) params)] :
    L.Conducts K (engine.bindParameters scope args i params) := by
  -- Induction on the parameters that are left.
  induction params generalizing i K with
  | nil =>
    unfold Engine.bindParameters
    infer_instance
  | cons p rest ih =>
    have : Shown K (Framed.mk (some scope) p) := .covered (Framed.mk (some scope) (p :: rest))
    have : Shown K (Framed.mk (some scope) rest) := .covered (Framed.mk (some scope) (p :: rest))
    unfold Engine.bindParameters
    refine .bind fun bound => ?_
    obtain ⟨name, value⟩ := bound
    infer_instance

instance runBody (node : FunctionNode) (args : List Value) [Shown K args] [hroot : Rooted K scope]
    [hfree : ∀ name, Free K scope name] [hcode : Shown K (Framed.mk (some scope) node)] :
    L.Conducts K (engine.runBody node scope args) := by
  have : Shown K (Framed.mk (some scope) node.params) := .covered (Framed.mk (some scope) node)
  have hbody : Shown K (Framed.mk (some scope) node.body) := .covered (Framed.mk (some scope) node)
  unfold Engine.runBody
  refine .bind fun _ => ?_
  generalize node.body = body at hbody ⊢
  cases body with
  | expression e =>
    have : Shown K (Framed.mk (some scope) e) := .covered (Framed.mk (some scope) (FunctionBody.expression e))
    infer_instance
  | block statements =>
    have : Shown K (Framed.mk (some scope) statements) :=
      .covered (Framed.mk (some scope) (FunctionBody.block statements))
    refine .bind fun _ => .bind fun signal => ?_
    cases signal with
    | none => infer_instance
    | some signal => cases signal <;> infer_instance

instance promiseOfAction (a : Action Value) [L.Conducts K a] :
    L.Conducts K (engine.promiseOfAction a) := by
  unfold Engine.promiseOfAction
  refine .bind fun result => ?_
  cases result <;> infer_instance

instance runFunction (node : FunctionNode) (args : List Value) [Shown K args]
    [hroot : Rooted K scope] [hfree : ∀ name, Free K scope name]
    [Shown K (Framed.mk (some scope) node)] :
    L.Conducts K (engine.runFunction node scope args) := by
  unfold Engine.runFunction
  infer_instance

/-- The body of a function runs in a new frame for its code. -/
instance runBody_codeFacts (frame : FrameId) (node : FunctionNode) (args : List Value)
    [Shown K args] : L.Conducts (K.plus (Knowledge.codeFacts node frame))
      (engine.runBody node frame args) := by
  have hrun : L.Conducts ((K.inFrame frame).and (Framed.mk (some frame) node))
      (engine.runBody node frame args) := inferInstance
  exact hrun.mono (Set.union_assoc _ _ _).subset rfl

instance runFunction_codeFacts (frame : FrameId) (node : FunctionNode) (args : List Value)
    [Shown K args] : L.Conducts (K.plus (Knowledge.codeFacts node frame))
      (engine.runFunction node frame args) := by
  unfold Engine.runFunction
  infer_instance

/-- The frame of a call takes variables, and the code of the function may run in it. -/
theorem leaves_callFrame (node : FunctionNode) (home : Option ObjectId) (this : Value)
    (args : List Value) [Placed K home] [Shown K this] [Shown K args]
    [hcode : Shown K (Framed.mk (if node.isArrow then some scope else none) node)] :
    L.Leaves K (callFrame node scope home this args) (Knowledge.codeFacts node) := by
  have hkind : FrameKind.function ≠ .block := nofun
  unfold callFrame
  dsimp only
  split
  · next harrow =>
    rw [if_pos harrow] at hcode
    have hframe : L.Leaves K (addFrame { parent := some scope, kind := .function }) _ :=
      leaves_addInside hkind ⟨rfl, rfl, rfl⟩ rfl
    refine hframe.imp fun id => Set.union_subset ?_ ?_
    · exact Set.subset_union_right.trans' Set.subset_union_left
    · exact (Shown.code_subset_inside scope id node).trans
        (Set.union_subset_union_right _ Set.subset_union_right)
  · next harrow =>
    rw [if_neg harrow] at hcode
    have hargs : L.Conducts K (newArrayOf args) := inferInstance
    refine hargs.leaves.bind fun arguments => ?_
    refine (leaves_addFrame (K := K.and arguments) _ hkind).imp fun id => ?_
    have hcode : Shown (K.and arguments) (Framed.mk (some id) node) := inferInstance
    exact Set.union_subset Set.subset_union_right (hcode.facts_subset.trans Set.subset_union_left)

instance callClosure (node : FunctionNode) (home : Option ObjectId) (this : Value)
    (args : List Value) [Placed K home] [Shown K this] [Shown K args]
    [Shown K (Framed.mk (if node.isArrow then some scope else none) node)] :
    L.Conducts K (engine.callClosure node scope home this args) := by
  unfold Engine.callClosure
  exact (leaves_callFrame scope node home this args).andThen fun frame => inferInstance

end Functions

instance (v : Value) [Shown K v] : L.Conducts K (resume v) := by
  unfold resume
  refine .bind fun promise => ?_
  cases promise with
  | none => infer_instance
  | some promise =>
    obtain ⟨id, state⟩ := promise
    cases state with
    | pending => infer_instance
    | settled outcome => cases outcome <;> infer_instance

instance (v : Value) [Shown K v] : L.Conducts K (await v) := by
  unfold await
  refine .bind fun _ => .bind fun signal => ?_
  cases signal with
  | none => infer_instance
  | some signal => cases signal <;> infer_instance

end Conducts

end Law

end EcmaEval
