import EcmaEval.Eval.Expression
import EcmaEval.Proofs.Run.Class

/-!
# Expressions

The evaluation of an expression evaluates its parts, so it keeps to a discipline that all of them
obey.  Where the shape of an operand makes it break down, the rule of the discipline says that it
may.

## Main results

* `Discipline.steady_evaluateExpression`: the evaluation of an expression
-/

namespace EcmaEval.Discipline

open EcmaEval.Action Engine

variable {D : Discipline} {c : Surroundings}

/-! ## Operands -/

/-- What is accessed, called or constructed is the word `super` or an expression. -/
theorem every_of_base {e : Expression} (h : Site.All D.rule (c.base e)) (he : e ≠ .super) :
    (c.expression e).Every D.rule := by
  unfold Surroundings.base at h
  split at h
  · exact absurd rfl he
  · exact (Site.all_cons.mp h).1

/-- A spread in a list is not evaluated itself. -/
theorem every_of_element {e : Expression} (h : (c.element e).Every D.rule)
    (he : ∀ operand, e ≠ .spread operand) : (c.expression e).Every D.rule := by
  unfold Surroundings.element at h
  split at h
  · exact absurd rfl (he _)
  · exact h

/-- A member that is neither a value nor a spread is a function. -/
theorem allowsFunction_memberValue {kind : MemberKind} {f : FunctionNode}
    (hplain : kind ≠ .value) (hspread : kind ≠ .spread)
    (h : Site.All D.rule (c.memberValue kind (.function f))) : D.AllowsFunction f := by
  cases kind with
  | value => exact absurd rfl hplain
  | spread => exact absurd rfl hspread
  | method | getter | setter => exact allowsFunction_ownFunction h

section

variable (engine : Engine) [hengine : engine.Obeys D]

theorem steady_evaluateList {elements : List (Option Expression)}
    (h : ∀ e, some e ∈ elements → (c.element e).Every D.rule) (scope : FrameId)
    (values : Array Value) : D.Steady (engine.evaluateList scope values elements) := by
  fun_induction evaluateList with
  | case1 => infer_instance
  -- A hole.
  | case2 values rest ih => exact ih fun e he => h e (.tail _ he)
  -- A spread.
  | case3 values operand rest ih =>
    have := steady_evaluate engine (h _ (.head _)) scope
    have ih (added : Array Value) := ih added fun e he => h e (.tail _ he)
    infer_instance
  | case4 values e rest hspread ih =>
    have := steady_evaluate engine (every_of_element (h _ (.head _)) hspread) scope
    have ih (value : Value) := ih value fun e he => h e (.tail _ he)
    infer_instance

theorem steady_evaluateArguments {args : List Expression}
    (h : ∀ e ∈ args, (c.element e).Every D.rule) (scope : FrameId) :
    D.Steady (engine.evaluateArguments scope args) := by
  have helements : ∀ e, some e ∈ args.map some → (c.element e).Every D.rule :=
    fun e he => h e (by simpa using he)
  have := steady_evaluateList engine helements scope #[]
  unfold evaluateArguments
  infer_instance

theorem steady_evaluateSequence {parts : List Expression}
    (h : ∀ e ∈ parts, (c.expression e).Every D.rule) (scope : FrameId) (last : Value) :
    D.Steady (engine.evaluateSequence scope last parts) := by
  induction parts generalizing last with
  | nil =>
    unfold evaluateSequence
    infer_instance
  | cons e rest ih =>
    obtain ⟨he, hrest⟩ := List.forall_mem_cons.mp h
    have := steady_evaluate engine he scope
    have ih := ih hrest
    unfold evaluateSequence
    infer_instance

/-! ## Literals -/

theorem steady_literalValue {l : Literal} (h : (c.expression (.literal l)).Every D.rule) :
    D.Steady (literalValue l) := by
  unfold literalValue
  split
  -- Digits that denote no integer are the only literal that breaks down.
  case h_5 digits =>
    split
    · infer_instance
    · next hdigits => exact ⟨keeps_breakDown (D.breaks h.here (.bigint hdigits))⟩
  all_goals infer_instance

instance (target : ObjectId) (source : Value) :
    D.Steady (engine.copyProperties target source) := by
  unfold copyProperties
  split <;> infer_instance

instance (id : ObjectId) (v : Value) : D.Steady (setLiteralPrototype id v) := by
  unfold setLiteralPrototype
  split <;> infer_instance

theorem steady_addMember {m : ObjectMember} (h : Site.All D.rule (c.objectMember m))
    (hshape : m.kind ≠ .value → m.kind ≠ .spread → (∀ f, m.value ≠ .function f) →
      D.breakdown (.malformed "FunctionExpression" m.value.kindName))
    (scope : FrameId) (id : ObjectId) : D.Steady (engine.addMember scope id m) := by
  obtain ⟨hkey, hvalue⟩ := Site.all_append.mp h
  have := steady_propertyKey engine hkey scope
  unfold addMember
  split
  case h_1 hkind =>
    rw [hkind] at hvalue
    have := steady_evaluate engine (Site.all_cons.mp hvalue).1 scope
    infer_instance
  case h_2 hkind =>
    rw [hkind] at hvalue
    have hnamed (name : String) := steady_evaluateAs engine (Site.all_cons.mp hvalue).1 name scope
    infer_instance
  case h_3 kind hspread hplain =>
    refine .bind fun key => ?_
    split
    case h_1 node hnode =>
      rw [hnode] at hvalue
      exact steady_defineMethod (m := ⟨_, _, _, node⟩)
        (allowsFunction_memberValue hplain hspread hvalue) _ _ _
    case h_2 e hnode => exact ⟨keeps_breakDown (hshape hplain hspread hnode)⟩

theorem steady_templateText {texts : List (Option String)} {substitutions : List Expression}
    (h : ∀ e ∈ substitutions, (c.expression e).Every D.rule)
    (htexts : none ∈ texts →
      D.breakdown (.malformed "cooked template string" "invalid escape"))
    (scope : FrameId) (written : String) :
    D.Steady (engine.templateText scope written texts substitutions) := by
  fun_induction templateText with
  | case1 => infer_instance
  -- A text with an escape that cannot be read.
  | case2 => exact ⟨keeps_breakDown (htexts (.head _))⟩
  | case3 written text texts ih => exact ih h fun hnone => htexts (.tail _ hnone)
  | case4 written text texts e rest ih =>
    obtain ⟨he, hrest⟩ := List.forall_mem_cons.mp h
    have := steady_evaluate engine he scope
    have ih (substitution : String) :=
      ih substitution hrest fun hnone => htexts (.tail _ hnone)
    infer_instance

/-! ## Operators and references -/

theorem steady_delete {operand : Expression} (h : (c.expression operand).Every D.rule)
    (scope : FrameId) : D.Steady (engine.delete scope operand) := by
  unfold Engine.delete
  split
  case h_1 => infer_instance
  case h_2 object key hobject =>
    obtain ⟨hbase, hkey⟩ := Site.all_append.mp h.parts
    have := steady_evaluate engine (every_of_base hbase hobject) scope
    have := steady_memberKey engine hkey scope
    refine .bind fun base => .bind fun key => ?_
    split <;> infer_instance
  case h_3 => infer_instance
  case h_4 =>
    have := steady_evaluate engine h scope
    infer_instance

theorem steady_typeOfOperand {operand : Expression} (h : (c.expression operand).Every D.rule)
    (scope : FrameId) : D.Steady (engine.typeOfOperand scope operand) := by
  have := steady_evaluate engine h scope
  unfold typeOfOperand
  refine .bind fun unbound => ?_
  split <;> infer_instance

theorem steady_unary {op : UnaryOperator} {operand : Expression}
    (h : (c.expression operand).Every D.rule) (scope : FrameId) :
    D.Steady (engine.unary scope op operand) := by
  have := steady_evaluate engine h scope
  have := steady_typeOfOperand engine h scope
  have := steady_delete engine h scope
  unfold unary
  cases op <;> infer_instance

theorem steady_resolve {target : Expression} (h : (c.expression target).Every D.rule)
    (hshape : Grammar.isTarget false target = false → D.breakdown (.strayTarget target))
    (scope : FrameId) : D.Steady (engine.resolve scope target) := by
  unfold Engine.resolve
  split
  case h_2 key =>
    have := steady_memberKey engine (Site.all_append.mp h.parts).2 scope
    infer_instance
  case h_3 object key hobject =>
    obtain ⟨hbase, hkey⟩ := Site.all_append.mp h.parts
    have := steady_evaluate engine (every_of_base hbase hobject) scope
    have := steady_memberKey engine hkey scope
    infer_instance
  -- What is left is no identifier, no access and no pattern, so it is no target.
  case h_6 hidentifier _ hmember harray hobject =>
    refine ⟨keeps_breakDown (hshape ?_)⟩
    unfold Grammar.isTarget
    split
    · exact (hidentifier _ rfl).elim
    · exact (hmember _ _ rfl).elim
    · exact (harray _ rfl).elim
    · exact (hobject _ rfl).elim
    · rfl
  all_goals infer_instance

theorem steady_assign {op : AssignmentOperator} {target value : Expression}
    (h : (c.expression (.assign op target value)).Every D.rule) (scope : FrameId) :
    D.Steady (engine.assign scope op target value) := by
  obtain ⟨htarget, hvalue⟩ := Site.all_cons.mp h.parts
  have hvalue := (Site.all_cons.mp hvalue).1
  have := steady_resolve engine htarget (fun hshape => D.breaks h.here (.assign hshape)) scope
  have hnamed (name : String) := steady_evaluateAs engine hvalue name scope
  have := steady_evaluate engine hvalue scope
  unfold assign
  refine .bind fun reference => ?_
  cases op <;> infer_instance

theorem steady_update {op : UpdateOperator} {before : Bool} {target : Expression}
    (h : (c.expression (.update op before target)).Every D.rule) (scope : FrameId) :
    D.Steady (engine.update scope op before target) := by
  have := steady_resolve engine (Site.all_cons.mp h.parts).1
    (fun hshape => D.breaks h.here (.update hshape)) scope
  unfold update
  infer_instance

/-! ## Calls and constructions -/

theorem steady_memberFunction {object : Expression} {key : MemberKey}
    (hobject : Site.All D.rule (c.base object)) (hkey : Site.All D.rule (c.memberKey key))
    (scope : FrameId) : D.Steady (engine.memberFunction scope object key) := by
  have := steady_memberKey engine hkey scope
  unfold memberFunction
  split
  case h_1 => infer_instance
  case h_2 hsuper =>
    have := steady_evaluate engine (every_of_base hobject hsuper) scope
    infer_instance

theorem steady_evaluateCall {callee : Expression} {args : List Expression}
    (h : (c.expression (.call callee args)).Every D.rule) (scope : FrameId) :
    D.Steady (engine.evaluateCall scope callee args) := by
  obtain ⟨hcallee, hargs⟩ := Site.all_append.mp h.parts
  have := steady_evaluateArguments engine (Site.all_map.mp hargs) scope
  unfold evaluateCall
  split
  case h_1 => exact steady_callSuper engine scope _
  case h_2 object key =>
    obtain ⟨hobject, hkey⟩ := Site.all_append.mp (every_of_base hcallee fun h => by cases h).parts
    have := steady_memberFunction engine hobject hkey scope
    infer_instance
  case h_3 hsuper _ =>
    have := steady_evaluate engine (every_of_base hcallee hsuper) scope
    infer_instance

theorem steady_evaluateNew {callee : Expression} {args : List Expression}
    (h : (c.expression (.new callee args)).Every D.rule) (scope : FrameId) :
    D.Steady (engine.evaluateNew scope callee args) := by
  obtain ⟨hcallee, hargs⟩ := Site.all_append.mp h.parts
  have := steady_evaluateArguments engine (Site.all_map.mp hargs) scope
  have : D.Steady (engine.evaluate scope callee) := by
    -- The callee is evaluated whatever it is, and the word alone breaks down.
    by_cases hsuper : callee = .super
    · subst hsuper
      exact hengine.evaluateSuper (D.breaks h.here .newSuper) "" scope
    · exact steady_evaluate engine (every_of_base hcallee hsuper) scope
  unfold evaluateNew
  refine .bind fun constructor => .bind fun args => .bind fun constructible => ?_
  split <;> infer_instance

/-! ## Expressions -/

/-- The evaluation of an expression keeps to each discipline that its tree obeys. -/
theorem steady_evaluateExpression {e : Expression} (h : (c.expression e).Every D.rule)
    (name : String) (scope : FrameId) :
    D.Steady (engine.evaluateExpression name scope e) := by
  unfold evaluateExpression
  cases e with
  | literal l => exact steady_literalValue h
  -- These look at no part, or are not supported.
  | regExp | identifier | this | newTarget | optionalChain | taggedTemplate | yield =>
    infer_instance
  | super => exact ⟨keeps_breakDown (D.breaks h.here .super)⟩
  | array elements =>
    have helements := Site.all_map.mp h.parts
    have := steady_evaluateList engine
      (fun e he => helements e (List.mem_filterMap.mpr ⟨some e, he, rfl⟩)) scope #[]
    infer_instance
  | object members =>
    refine .bind fun id => .andThen (.forM_mem fun m hm => ?_) fun _ => inferInstance
    exact steady_addMember engine (Site.all_flatMap.mp h.parts m hm)
      (fun hplain hspread hvalue => D.breaks h.here (.member hm hplain hspread hvalue)) scope id
  | function node =>
    exact steady_functionExpression (allowsFunction_ownFunction h.parts) name scope
  | arrow node => exact steady_newClosure (allowsFunction_arrow h.parts) scope name none
  | «class» node => exact steady_makeClass engine (Site.all_cons.mp h.parts).1 name scope
  | unary op operand => exact steady_unary engine (Site.all_cons.mp h.parts).1 scope
  | binary op left right =>
    obtain ⟨hleft, hright⟩ := Site.all_cons.mp h.parts
    have := steady_evaluate engine hleft scope
    have := steady_evaluate engine (Site.all_cons.mp hright).1 scope
    infer_instance
  | logical op left right =>
    obtain ⟨hleft, hright⟩ := Site.all_cons.mp h.parts
    have := steady_evaluate engine hleft scope
    have := steady_evaluate engine (Site.all_cons.mp hright).1 scope
    infer_instance
  | update op before target => exact steady_update engine h scope
  | assign op target value => exact steady_assign engine h scope
  | conditional test consequent alternate =>
    obtain ⟨htest, hbranches⟩ := Site.all_cons.mp h.parts
    obtain ⟨hconsequent, halternate⟩ := Site.all_cons.mp hbranches
    have := steady_evaluate engine htest scope
    have := steady_evaluate engine hconsequent scope
    have := steady_evaluate engine (Site.all_cons.mp halternate).1 scope
    infer_instance
  | call callee args => exact steady_evaluateCall engine h scope
  | new callee args => exact steady_evaluateNew engine h scope
  | member object key =>
    obtain ⟨hobject, hkey⟩ := Site.all_append.mp h.parts
    have := steady_memberKey engine hkey scope
    -- An access to the parent's members does not evaluate its object.
    split
    case h_19 key hmember =>
      cases hmember
      infer_instance
    case h_20 object key hsuper hmember =>
      cases hmember
      have := steady_evaluate engine (every_of_base hobject hsuper) scope
      infer_instance
    all_goals contradiction
  | spread operand => exact ⟨keeps_breakDown (D.breaks h.here .spread)⟩
  | template texts substitutions =>
    have := steady_templateText engine (Site.all_map.mp h.parts)
      (fun hnone => D.breaks h.here (.template hnone)) scope ""
    infer_instance
  | await operand =>
    have := steady_evaluate engine (Site.all_cons.mp h.parts).1 scope
    infer_instance
  | sequence parts => exact steady_evaluateSequence engine (Site.all_map.mp h.parts) scope _

end

end EcmaEval.Discipline
