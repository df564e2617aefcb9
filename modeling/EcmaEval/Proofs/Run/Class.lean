import EcmaEval.Eval.Function
import EcmaEval.Proofs.Run.Library
import EcmaEval.Eval.Class

/-!
# Bodies and classes

Statements in sequence stop at the first signal, so what a sequence leaves is what one of its
statements leaves.  No loop, switch or label around a function can be reached from its body, so a
body leaves a return or nothing, and the function takes that out.

A class keeps the code of its constructor and its fields, and a constructor keeps the class whose
instance it builds in its frame.  Both come from the tree of the class, so they obey the rule that
the tree obeys.

## Main results

* `Discipline.runs_executeBody`: what the statements of a body leave
* `Discipline.AllowsSignal.of_isBody`: a body leaves nothing but a return
* `Discipline.steady_runFunction`: a function puts everything back
* `Discipline.steady_makeClass`: making a class
* `Discipline.steady_constructInstance`: constructing an instance
* `Discipline.steady_callSuper`: a call of the parent's constructor
-/

namespace EcmaEval.Discipline

open EcmaEval.Action Engine

variable {D : Discipline} {engine : Engine} [hengine : engine.Obeys D]

/-! ## Signals -/

section Signals

variable {before : Option Signal}

theorem runs_isSignaled :
    D.Runs before isSignaled fun b after => b = before.isSome ∧ after = before :=
  fun m hm hbefore => .ok hm (.refl m) ⟨congrArg Option.isSome hbefore, hbefore⟩

theorem runs_takeSignal : D.Runs before takeSignal fun x after => x = before ∧ after = none :=
  fun _ hm hbefore => .ok ⟨hm.callable, hm.superCall⟩ (.of_eq ⟨rfl, rfl⟩ rfl rfl) ⟨hbefore, rfl⟩

theorem runs_raise (x : Signal) : D.Runs before (raise x) fun _ after => after = some x :=
  fun _ hm _ => .ok ⟨hm.callable, hm.superCall⟩ (.of_eq ⟨rfl, rfl⟩ rfl rfl) rfl

theorem runs_reinstate (pending : Option Signal) :
    D.Runs before (reinstate pending) fun _ after => after = before.or pending :=
  fun _ hm hbefore => .ok ⟨hm.callable, hm.superCall⟩ (.of_eq ⟨rfl, rfl⟩ rfl rfl)
    (congrArg (·.or pending) hbefore)

theorem runs_absorb (aimed : Signal → Bool) :
    D.Runs before (absorb aimed) fun _ after => after = before.filter fun x => !aimed x :=
  fun _ hm hbefore => .ok ⟨hm.callable, hm.superCall⟩ (.of_eq ⟨rfl, rfl⟩ rfl rfl)
    (congrArg (Option.filter fun x => !aimed x) hbefore)

end Signals

section Allowed

variable {c : Surroundings} {s : Statement} {after : Option Signal}

theorem allowsSignal_none : D.AllowsSignal c none := fun _ => nofun

theorem allowsExit_none : D.AllowsExit c s none := fun _ => nofun

theorem AllowsExit.allowsSignal (h : D.AllowsExit c s after) : D.AllowsSignal c after :=
  fun haimed x hx => (h haimed x hx).1

/-- No signal is aimed at most kinds of statements. -/
theorem AllowsSignal.allowsExit (h : D.AllowsSignal c after) (hs : ∀ x, ¬ s.Absorbs x) :
    D.AllowsExit c s after :=
  fun haimed x hx => ⟨h haimed x hx, hs x⟩

/-- From the body of a function only a return leads out. -/
theorem AllowsSignal.of_isBody (h : D.AllowsSignal c after) (hc : c.IsBody) (haimed : D.aimed) :
    ∀ x ∈ after, ∃ v, x = .return v := by
  intro x hx
  have hwithin := h haimed x hx
  -- Each other signal would need a loop, a switch or a label in reach.
  cases x with
  | «return» v => exact ⟨v, rfl⟩
  | «break» label =>
    cases label <;> simp [Signal.Within, hc.inLoop, hc.inSwitch, hc.labels] at hwithin
  | «continue» label => cases label <;> simp [Signal.Within, hc.inLoop, hc.labels] at hwithin
  | suspend v => exact hwithin.elim

end Allowed

/-! ## Code -/

section Code

variable {c : Surroundings} (engine)

theorem steady_evaluateAs {e : Expression} (h : (c.expression e).Every D.rule) (name : String)
    (scope : FrameId) : D.Steady (engine.evaluateAs name scope e) :=
  hengine.evaluateAs h name scope

theorem steady_evaluate {e : Expression} (h : (c.expression e).Every D.rule) (scope : FrameId) :
    D.Steady (engine.evaluate scope e) :=
  hengine.evaluateAs h "" scope

theorem runs_execute {s : Statement} (h : (c.statement s).Every D.rule) (scope : FrameId) :
    D.Runs none (engine.execute scope s) fun _ after => D.AllowsExit c s after :=
  hengine.execute h scope

theorem allowsFunction_ownFunction {superProperty superCall : Bool} {f : FunctionNode}
    (h : Site.All D.rule (c.ownFunction superProperty superCall f)) : D.AllowsFunction f :=
  ⟨_, _, c.isBody_ownBody superProperty superCall, h⟩

theorem allowsFunction_arrow {f : FunctionNode} (h : Site.All D.rule (c.arrow f)) :
    D.AllowsFunction f :=
  ⟨_, _, c.isBody_body, h⟩

end Code

/-! ## Statements in sequence -/

section Sequence

variable {c : Surroundings} {statements : List Statement} (engine)

theorem steady_hoistFunctions (h : ∀ s ∈ statements, (c.statement s).Every D.rule)
    (scope : FrameId) : D.Steady (hoistFunctions scope statements) := by
  fun_induction hoistFunctions with
  | case1 => infer_instance
  | case2 node rest name ih =>
    -- A declaration of a function, which is made before the statements run.
    obtain ⟨hnode, hrest⟩ := List.forall_mem_cons.mp h
    have := ih hrest
    have := steady_newClosure (allowsFunction_ownFunction hnode.parts) scope name none
    infer_instance
  | case3 statement rest hstatement ih => exact ih (List.forall_mem_cons.mp h).2

theorem steady_hoist (h : ∀ s ∈ statements, (c.statement s).Every D.rule) (scope : FrameId) :
    D.Steady (hoist scope statements) := by
  have := steady_hoistFunctions h scope
  unfold hoist
  infer_instance

theorem runs_executeFrom (h : ∀ s ∈ statements, (c.statement s).Every D.rule) (scope : FrameId)
    (last : Value) :
    D.Runs none (engine.executeFrom scope last statements) fun _ after =>
      D.AllowsSignal c after := by
  -- Induction on the statements that are left; the first signal ends the sequence.
  induction statements generalizing last with
  | nil => exact .pure allowsSignal_none
  | cons s rest ih =>
    obtain ⟨hs, hrest⟩ := List.forall_mem_cons.mp h
    unfold executeFrom
    refine (runs_execute engine hs scope).bind fun value after hafter => ?_
    dsimp only
    refine runs_isSignaled.bind ?_
    rintro _ after ⟨rfl, rfl⟩
    cases after with
    -- Nothing is asked for, so the next statement starts as this one did.
    | none => exact ih hrest _
    | some x => exact .pure hafter.allowsSignal

theorem runs_executeList (h : ∀ s ∈ statements, (c.statement s).Every D.rule) (scope : FrameId) :
    D.Runs none (engine.executeList scope statements) fun _ after => D.AllowsSignal c after :=
  runs_executeFrom engine h scope .undefined

/-- A body leaves what its statements may leave. -/
theorem runs_executeBody (h : ∀ s ∈ statements, (c.statement s).Every D.rule) (scope : FrameId) :
    D.Runs none (engine.executeBody scope statements) fun _ after => D.AllowsSignal c after :=
  (steady_hoist h scope).keeps.andThen fun _ _ => runs_executeList engine h scope

theorem runs_executeBlock (h : ∀ s ∈ statements, (c.statement s).Every D.rule)
    (scope : FrameId) :
    D.Runs none (engine.executeBlock scope statements) fun _ after => D.AllowsSignal c after :=
  .next fun inner => runs_executeBody engine h inner

end Sequence

/-! ## Functions -/

section Functions

variable (engine)

theorem steady_functionExpression {node : FunctionNode} (h : D.AllowsFunction node)
    (name : String) (scope : FrameId) : D.Steady (functionExpression name scope node) := by
  have hclosure (scope : FrameId) (name : String) : D.Steady (newClosure node scope name none) :=
    steady_newClosure h scope name none
  unfold functionExpression
  split <;> infer_instance

theorem steady_parameter {c : Surroundings} {p : Pattern} (h : (c.pattern p).Every D.rule)
    (frame : FrameId) (args : List Value) (i : Nat) :
    D.Steady (engine.parameter frame args i p) := by
  unfold parameter
  split
  case h_2 name default =>
    -- A default is an expression in the surroundings of the parameter.
    have hdefault : (c.expression default).Every D.rule :=
      (Site.all_cons.mp (Site.all_cons.mp h.parts).2).1
    have := steady_evaluateAs engine hdefault name frame
    infer_instance
  all_goals infer_instance

theorem steady_bindParameters {c : Surroundings} {params : List Pattern}
    (h : ∀ p ∈ params, (c.pattern p).Every D.rule) (frame : FrameId) (args : List Value) (i : Nat) :
    D.Steady (engine.bindParameters frame args i params) := by
  induction params generalizing i with
  | nil =>
    unfold bindParameters
    infer_instance
  | cons p rest ih =>
    obtain ⟨hp, hrest⟩ := List.forall_mem_cons.mp h
    have := steady_parameter engine hp frame args i
    have := ih hrest (i + 1)
    unfold bindParameters
    infer_instance

theorem steady_runBody {node : FunctionNode} (h : D.AllowsFunction node) (frame : FrameId)
    (args : List Value) : D.Steady (engine.runBody node frame args) := by
  obtain ⟨outer, inner, hinner, hcode⟩ := h
  obtain ⟨hparams, hbody⟩ := Site.all_append.mp hcode
  have := steady_bindParameters engine (Site.all_map.mp hparams) frame args 0
  unfold runBody
  refine .bind fun _ => ?_
  split
  case h_1 e hnode =>
    rw [hnode] at hbody
    exact steady_evaluate engine (Site.all_cons.mp hbody).1 frame
  case h_2 statements hnode =>
    rw [hnode] at hbody
    refine ⟨(runs_executeBody engine (Site.all_map.mp hbody) frame).bind fun _ after _ => ?_⟩
    -- What the statements ask for is taken out, and only a return gives its value.
    refine runs_takeSignal.bind ?_
    rintro _ _ ⟨rfl, rfl⟩
    split <;> exact .pure ⟨rfl, trivial⟩

instance (a : Action Value) [D.Steady a] : D.Steady (engine.promiseOfAction a) := by
  unfold promiseOfAction
  refine .bind fun result => ?_
  split <;> infer_instance

/-- A function leaves nothing of what its body asks for. -/
theorem steady_runFunction {node : FunctionNode} (h : D.AllowsFunction node) (frame : FrameId)
    (args : List Value) : D.Steady (engine.runFunction node frame args) := by
  have := steady_runBody engine h frame args
  unfold runFunction
  infer_instance

instance (node : FunctionNode) (scope : FrameId) (home : Option ObjectId) (this : Value)
    (args : List Value) : D.Steady (callFrame node scope home this args) := by
  unfold callFrame
  dsimp only
  split
  · exact ⟨keeps_addFrame rfl⟩
  · exact .bind fun _ => ⟨keeps_addFrame rfl⟩

theorem steady_callClosure {node : FunctionNode} (h : D.AllowsFunction node) (scope : FrameId)
    (home : Option ObjectId) (this : Value) (args : List Value) :
    D.Steady (engine.callClosure node scope home this args) := by
  have hrun (frame : FrameId) : D.Steady (engine.runFunction node frame args) :=
    steady_runFunction engine h frame args
  unfold callClosure
  infer_instance

end Functions

instance (v : Value) : D.Steady (resume v) := by
  unfold resume
  refine .bind fun promise => ?_
  split <;> infer_instance

/-- The suspension is taken out where it was put in. -/
instance (v : Value) : D.Steady (await v) := by
  unfold await
  refine ⟨(runs_raise _).bind ?_⟩
  rintro _ _ rfl
  refine runs_takeSignal.bind ?_
  rintro _ _ ⟨rfl, rfl⟩
  exact (inferInstance : D.Steady (resume v)).keeps

end EcmaEval.Discipline

/-! # Classes -/

namespace EcmaEval.Discipline

open EcmaEval.Action Engine

variable {D : Discipline} {engine : Engine} [hengine : engine.Obeys D]

/-! ## Names, receivers and references -/

instance (scope : FrameId) (name : String) : D.Steady (nameValue scope name) := by
  unfold nameValue
  infer_instance

instance (scope : FrameId) (name : String) (value : Value) :
    D.Steady (assignName scope name value) := by
  unfold assignName
  refine .bind fun target => ?_
  split <;> infer_instance

instance {α : Type} (scope : FrameId) (held : Frame → Option α) :
    D.Steady (innermost scope held) := by
  unfold innermost
  infer_instance

instance (scope : FrameId) : D.Steady (thisValue scope) := by
  unfold thisValue
  refine .bind fun this => ?_
  split <;> infer_instance

instance (scope : FrameId) : D.Steady (superBase scope) := by
  unfold superBase
  refine .bind fun home => ?_
  split <;> infer_instance

instance (scope : FrameId) (key : String) : D.Steady (engine.getSuper scope key) := by
  unfold getSuper
  refine .bind fun base => .bind fun this => ?_
  split <;> infer_instance

instance (scope : FrameId) (key : String) (value : Value) :
    D.Steady (engine.setSuper scope key value) := by
  unfold setSuper
  refine .bind fun base => .bind fun this => ?_
  split <;> infer_instance

instance (scope : FrameId) (r : Reference) : D.Steady (engine.readReference scope r) := by
  unfold readReference
  split <;> infer_instance

instance (scope : FrameId) (r : Reference) (value : Value) :
    D.Steady (engine.writeReference scope r value) := by
  unfold writeReference
  split <;> infer_instance

section Keys

variable {c : Surroundings} (engine)

theorem steady_memberKey {key : MemberKey} (h : Site.All D.rule (c.memberKey key))
    (scope : FrameId) : D.Steady (engine.memberKey scope key) := by
  unfold Engine.memberKey
  split
  case h_1 => infer_instance
  case h_2 e =>
    have := steady_evaluate engine (Site.all_cons.mp h).1 scope
    infer_instance

theorem steady_propertyKey {key : PropertyKey} (h : Site.All D.rule (c.propertyKey key))
    (scope : FrameId) : D.Steady (engine.propertyKey scope key) := by
  unfold Engine.propertyKey
  split
  case h_4 e =>
    have := steady_evaluate engine (Site.all_cons.mp h).1 scope
    infer_instance
  all_goals infer_instance

end Keys

section Classes

variable (engine)

/-! ## The parts of a class -/

/-- The code of a static part of a class. -/
def AllowsStatic (D : Discipline) : StaticElement → Prop
  | .field _ initializer => D.AllowsValue initializer
  | .block statements =>
    ∃ c : Surroundings, c.IsBody ∧ ∀ s ∈ statements, (c.statement s).Every D.rule

/-- The code of the parts of a class body. -/
structure AllowsParts (D : Discipline) (parts : ClassParts) : Prop where
  fields : ∀ field ∈ parts.fields, D.AllowsValue field.initializer
  methods : ∀ m ∈ parts.methods, D.AllowsFunction m.node
  statics : ∀ element ∈ parts.statics, D.AllowsStatic element

theorem allowsValue_field {c : Surroundings} {value : Option Expression}
    (h : Site.All D.rule (value.toList.map c.expression)) : D.AllowsValue value :=
  fun e he => ⟨c, Site.all_map.mp h e (Option.mem_toList.mpr he)⟩

/-- What stands in a class body becomes what the class keeps. -/
theorem keeps_classParts {c : Surroundings} {derived : Bool} {elements : List ClassElement}
    (h : ∀ element ∈ elements, Site.All D.rule (c.classElement derived element))
    (scope : FrameId) (parts : ClassParts) (hparts : D.AllowsParts parts) :
    D.Keeps (engine.classParts scope elements parts) D.AllowsParts := by
  -- Induction on the elements that are left, over the parts collected from those before.
  induction elements generalizing parts with
  | nil => exact .pure hparts
  | cons element rest ih =>
    obtain ⟨helement, hrest⟩ := List.forall_mem_cons.mp h
    have hkey {key : PropertyKey} (hkey : Site.All D.rule (c.propertyKey key)) :=
      steady_propertyKey engine hkey scope
    unfold classParts
    split
    case h_1 => exact ih hrest _ hparts
    case h_2 kind isStatic key node _ =>
      obtain ⟨hname, hnode⟩ := Site.all_append.mp helement
      have := hkey hname
      refine .next fun key => ih hrest _ { hparts with methods := ?_ }
      exact List.forall_mem_append.mpr
        ⟨hparts.methods, List.forall_mem_singleton.mpr (allowsFunction_ownFunction hnode)⟩
    case h_3 key value =>
      obtain ⟨hname, hvalue⟩ := Site.all_append.mp helement
      have := hkey hname
      refine .next fun key => ih hrest _ { hparts with statics := ?_ }
      exact List.forall_mem_append.mpr
        ⟨hparts.statics, List.forall_mem_singleton.mpr (allowsValue_field hvalue)⟩
    case h_4 key value =>
      obtain ⟨hname, hvalue⟩ := Site.all_append.mp helement
      have := hkey hname
      refine .next fun key => ih hrest _ { hparts with fields := ?_ }
      exact List.forall_mem_append.mpr
        ⟨hparts.fields, List.forall_mem_singleton.mpr (allowsValue_field hvalue)⟩
    case h_5 body =>
      refine ih hrest _ { hparts with statics := ?_ }
      exact List.forall_mem_append.mpr ⟨hparts.statics, List.forall_mem_singleton.mpr
        ⟨_, c.isBody_ownBody true false, Site.all_map.mp helement⟩⟩

/-- The constructor is one of the methods that stand in the class body. -/
theorem allowsFunction_constructor {c : Surroundings} {k : ClassNode}
    (h : ∀ element ∈ k.body, Site.All D.rule (c.classElement k.heritage.isSome element)) :
    ∀ f ∈ k.constructor?, D.AllowsFunction f := by
  intro f hf
  -- The first method of the kind of a constructor is the one that is found.
  obtain ⟨element, helement, hfound⟩ := List.exists_of_findSome?_eq_some hf
  have hsites := h element helement
  split at hfound
  · next isStatic key node =>
    cases hfound
    exact allowsFunction_ownFunction (Site.all_append.mp hsites).2
  · cases hfound

/-! ## Fields and static parts -/

instance (scope : FrameId) (this : Value) (home : ObjectId) :
    D.Steady (initializerFrame scope this home) :=
  ⟨keeps_addFrame rfl⟩

theorem steady_fieldValue (frame : Action FrameId) [D.Steady frame]
    {initializer : Option Expression} (h : D.AllowsValue initializer) (key : String) :
    D.Steady (engine.fieldValue frame key initializer) := by
  unfold fieldValue
  split
  case h_1 e =>
    obtain ⟨c, he⟩ := h e rfl
    have hvalue (scope : FrameId) := steady_evaluateAs engine he key scope
    infer_instance
  case h_2 => infer_instance

theorem steady_initializeFields {definition : ClassDefinition} (h : D.AllowsClass definition)
    (id : ObjectId) : D.Steady (engine.initializeFields definition id) := by
  unfold initializeFields
  refine .andThen (.forIn_mem (fun field hfield x => ?_) _) fun _ => inferInstance
  have := steady_fieldValue engine
    (initializerFrame definition.scope (.object id) definition.prototype)
    (h.fields field hfield) field.key
  infer_instance

/-- What the statements of a static block ask for is dropped. -/
theorem steady_runStatic {element : StaticElement} (h : D.AllowsStatic element)
    (classId : ObjectId) (scope : FrameId) :
    D.Steady (engine.runStatic classId scope element) := by
  unfold runStatic
  refine .bind fun frame => ?_
  split
  case h_1 key initializer =>
    have := steady_fieldValue engine (pure frame) h key
    infer_instance
  case h_2 body =>
    -- Whatever surrounds the block, its signals do not leave it.
    obtain ⟨c, -, hbody⟩ := h
    refine ⟨(runs_executeBody engine hbody frame).bind fun _ after _ => ?_⟩
    refine runs_takeSignal.bind ?_
    rintro _ _ ⟨rfl, rfl⟩
    exact .pure ⟨rfl, trivial⟩

/-! ## Making a class -/

theorem steady_defineMethod {m : MethodDefinition} (h : D.AllowsFunction m.node)
    (target : ObjectId) (scope : FrameId) (enumerable : Bool) :
    D.Steady (defineMethod target scope enumerable m) := by
  have := steady_newClosure h scope (m.kind.functionName m.key) (some target)
  unfold defineMethod
  infer_instance

theorem steady_heritage {c : Surroundings} {e : Option Expression}
    (h : Site.All D.rule (e.toList.map c.expression)) (scope : FrameId) :
    D.Steady (engine.heritage scope e) := by
  unfold heritage
  split
  case h_1 => infer_instance
  case h_2 e =>
    have := steady_evaluate engine (Site.all_cons.mp h).1 scope
    refine .bind fun v => .bind fun constructible => ?_
    split
    · infer_instance
    · refine .bind fun prototype => ?_
      split <;> infer_instance
    · infer_instance

theorem steady_newClass {definition : ClassDefinition} (h : D.AllowsClass definition) :
    D.Steady (newClass definition) := by
  have hfunction (name : String) (length : Nat) :
      D.Steady (newFunction (.class definition) name length) :=
    steady_newFunction (.class definition) h rfl name length
  unfold newClass
  infer_instance

theorem steady_makeClass {c : Surroundings} {k : ClassNode} (h : (c.class k).Every D.rule)
    (name : String) (scope : FrameId) : D.Steady (engine.makeClass name scope k) := by
  obtain ⟨hheritage, helements⟩ := Site.all_append.mp h.parts
  have helements := Site.all_flatMap.mp helements
  have hparent (scope : FrameId) := steady_heritage engine hheritage scope
  unfold makeClass
  refine .bind fun scope => .bind fun parents => .bind fun prototype => ?_
  -- First the parts are collected, and with them the class is defined ...
  refine ⟨(keeps_classParts engine helements scope {} ?_).bind fun parts hparts => ?_⟩
  · exact ⟨List.forall_mem_nil _, List.forall_mem_nil _, List.forall_mem_nil _⟩
  have hdefinition : D.AllowsClass {
      name := k.name.getD name
      constructor? := k.constructor?
      parent := parents.1, prototype, scope
      fields := parts.fields } :=
    ⟨allowsFunction_constructor helements, hparts.fields⟩
  have := steady_newClass hdefinition
  -- ... then its methods are written on the class or on its prototype ...
  refine .next fun id => (?_ : D.Steady _).keeps
  refine .andThen (.forIn_mem (fun m hm _ => ?_) _) fun _ => ?_
  · have := steady_defineMethod (hparts.methods m hm) (if m.isStatic then id else prototype)
      scope false
    infer_instance
  -- ... and at last its static parts run.
  extract_lets statics
  have hstatics (x : Unit) : D.Steady (statics x) := by
    refine .andThen (.forIn_mem (fun element helement _ => ?_) _) fun _ => inferInstance
    have := steady_runStatic engine (hparts.statics element helement) id scope
    infer_instance
  clear_value statics
  split <;> infer_instance

/-! ## Constructing an instance -/

instance (newTarget : ObjectId) : D.Steady (engine.allocateInstance newTarget) := by
  unfold allocateInstance
  refine .bind fun prototype => ?_
  split <;> infer_instance

section Construct

variable {definition : ClassDefinition} (h : D.AllowsClass definition) (args : List Value)
  (newTarget : ObjectId)
include h

theorem steady_constructByDefault :
    D.Steady (engine.constructByDefault definition args newTarget) := by
  have hfields (id : ObjectId) := steady_initializeFields engine h id
  unfold constructByDefault
  dsimp only
  split
  · infer_instance
  · refine .bind fun made => ?_
    split <;> infer_instance

/-- The frame of a constructor keeps the class for the call of the parent. -/
theorem steady_constructorFrame :
    D.Steady (engine.constructorFrame definition args newTarget) := by
  have hfields (id : ObjectId) := steady_initializeFields engine h id
  have hframe (f : Frame) (name : String) (v : Value) (hf : f.superCall = none) :
      D.Steady (addFrame (f.declareConstant name v)) :=
    ⟨keeps_addFrame hf⟩
  -- Until the parent is called there is no receiver, and the frame tells which fields follow.
  have hderived (id : FrameId) : D.Steady (modifyFrame id ({ · with
      this := some .uninitialized
      superCall := some { definition, newTarget } })) := by
    refine ⟨keeps_modifyFrame fun f call hcall => .inr ?_⟩
    cases hcall
    exact h
  unfold constructorFrame
  refine .bind fun arguments => ?_
  dsimp only
  refine .andThen (hframe _ _ _ rfl) fun id => ?_
  split <;> infer_instance

theorem steady_constructInstance :
    D.Steady (engine.constructInstance definition args newTarget) := by
  have := steady_constructByDefault engine h args newTarget
  have := steady_constructorFrame engine h args newTarget
  unfold constructInstance
  split
  case h_1 => infer_instance
  -- A constructor of its own may give another object back.
  case h_2 node hnode =>
    have hrun (frame : FrameId) := steady_runFunction engine (h.constructor node hnode) frame args
    refine .bind fun frame => .bind fun result => ?_
    split
    · infer_instance
    · refine .bind fun this => ?_
      split <;> infer_instance

end Construct

/-- The frame that is found belongs to a constructor, and keeps a class that the machine may
hold. -/
theorem steady_callSuper (scope : FrameId) (args : Action (List Value)) [D.Steady args] :
    D.Steady (engine.callSuper scope args) := by
  unfold callSuper
  refine .bind fun found => ?_
  split
  case h_2 => infer_instance
  case h_1 frame =>
    -- The class comes from a frame, so it is the machine that says that it is allowed.
    refine .bind fun args => ⟨Keeps.bind (keeps_readFrames (P := fun f => ∀ call,
      f.superCall = some call → D.AllowsClass call.definition) fun m hm _ => hm.superCall) ?_⟩
    intro f hf
    refine (?_ : D.Steady _).keeps
    split
    case h_2 definition newTarget _ _ =>
      have hfields (id : ObjectId) := steady_initializeFields engine (hf _ rfl) id
      split
      · refine .bind fun made => ?_
        split <;> infer_instance
      · infer_instance
    all_goals infer_instance

end Classes

end EcmaEval.Discipline
