import EcmaEval.Eval.Expression
import EcmaEval.Proofs.Conduct.Class

/-!
# Expressions on sound machines

The members of an object literal run while nothing names the object: its functions know it as their
home, but they cannot hand it out.  So no value leads to the object, and any value may become its
prototype without a look at the chain.  When the members are there, the object is shown.

## Main definitions

* `Concealed`: nothing names the object

## Main results

* `Machine.Sound.conceal`, `Machine.Sound.reveal`: before and behind the members of a literal
* `Law.Conducts.evaluateExpression`: each form of expression
-/

namespace EcmaEval

variable {L : Law} {K : Knowledge} {hidden : Set ObjectId} {m : Machine}

/-! ## Objects that nothing names -/

/-- Nothing names the object. -/
class Concealed (K : Knowledge) (id : ObjectId) : Prop where
  mem : id ∈ K.hidden

section Concealed

variable {α : Type} [HasFacts α] (id : ObjectId)

instance : Concealed (K.conceal id) id := ⟨Set.mem_insert id K.hidden⟩

instance (priority := low) (x : α) [h : Concealed K id] : Concealed (K.and x) id := ⟨h.mem⟩

end Concealed

namespace Machine

/-- Fewer facts are true when more is hidden. -/
theorem granted_antitone {hidden' : Set ObjectId} (h : hidden ⊆ hidden') :
    m.granted L hidden' ⊆ m.granted L hidden := by
  intro fact hfact
  cases fact with
  | object id => exact ⟨hfact.1, fun hid => hfact.2 (h hid)⟩
  | _ => exact hfact

/-- Nothing names a new object. -/
theorem Sound.conceal (hm : m.Sound L hidden) {o : Object} (hfacts : facts o ⊆ m.granted L hidden)
    (hstate : ∀ outcome, o.promiseState? ≠ some (.settled outcome)) :
    ({ m with heap := (m.heap.allocate o).2 } : Machine).Sound L (insert ⟨m.heap.size⟩ hidden) ∧
      m.granted L hidden ⊆ ({ m with heap := (m.heap.allocate o).2 } : Machine).granted L
        (insert ⟨m.heap.size⟩ hidden) := by
  have hstep : L.Step hidden L.suites m { m with heap := (m.heap.allocate o).2 } :=
    .allocate hm hfacts hstate
  have hgranted : m.granted L hidden ⊆ ({ m with heap := (m.heap.allocate o).2 } : Machine).granted L
      (insert ⟨m.heap.size⟩ hidden) := by
    intro fact hfact
    have hmono := granted_mono hm hstep.grows hfact
    cases fact with
    | object id =>
      refine ⟨hmono.1, fun hid => hid.elim (fun heq => ?_) hmono.2⟩
      subst heq
      exact absurd hfact.1 (Nat.lt_irrefl _)
    | _ => exact hmono
  refine ⟨?_, hgranted⟩
  exact {
    objects := fun id => by
      change facts ((m.heap.allocate o).2.get id) ⊆ _
      rw [Heap.get_allocate]
      split
      · exact hfacts.trans hgranted
      · exact (hm.objects id).trans hgranted
    frames := fun id => (hm.frames id).trans hgranted
    realm := hm.realm.trans hgranted
    signal := hm.signal.trans hgranted
    newTarget := hm.newTarget.trans hgranted
    grounded := hstep.sound.grounded
    anchored := hstep.sound.anchored
    nested := hm.nested
    concealed := fun id hid => hid.elim (fun heq => heq ▸ by simp)
      (hstep.sound.concealed id)
    fresh := hm.fresh }

/-- What was hidden may be shown. -/
theorem Sound.reveal {hidden' : Set ObjectId} (hm : m.Sound L hidden') (h : hidden ⊆ hidden') :
    m.Sound L hidden :=
  have hgranted := granted_antitone h
  { objects := fun id => (hm.objects id).trans hgranted
    frames := fun id => (hm.frames id).trans hgranted
    realm := hm.realm.trans hgranted
    signal := hm.signal.trans hgranted
    newTarget := hm.newTarget.trans hgranted
    grounded := hm.grounded
    anchored := hm.anchored
    nested := hm.nested
    concealed := fun id hid => hm.concealed id (h hid)
    fresh := hm.fresh }

end Machine

namespace Law

open EcmaEval.Action EcmaEval.Engine

/-- An object that is built while nothing names it. -/
theorem conducts_building {o : Object} [Shown K o]
    (hstate : ∀ outcome, o.promiseState? ≠ some (.settled outcome)) {build : ObjectId → Action Unit}
    (hbuild : ∀ id, L.Conducts (K.conceal id) (build id)) :
    L.Conducts K (do
      let id ← Action.allocate o
      build id
      return Value.object id) := by
  refine ⟨fun m hm => ?_⟩
  let id : ObjectId := ⟨m.heap.size⟩
  let m₁ : Machine := { m with heap := (m.heap.allocate o).2 }
  have hstep : L.Step K.hidden L.suites m m₁ := .allocate hm.sound (hm.facts_subset o) hstate
  obtain ⟨hsound, hgranted⟩ := hm.sound.conceal (hm.facts_subset o) hstate
  have hlt : id.index < m₁.heap.size := by simp [id, m₁]
  have hm₁ : m₁.Meets L (K.conceal id) :=
    ⟨hsound, Set.union_subset (hm.known.trans hgranted) (Set.singleton_subset_iff.mpr hlt)⟩
  have hshow {hidden : Set ObjectId} : hidden ⊆ insert id hidden := Set.subset_insert id hidden
  refine .of_step hstep ?_
  change L.Ends K.hidden m₁ facts ((build id >>= fun _ => pure (Value.object id)) m₁)
  have hend : L.Ends (insert id K.hidden) m₁ facts (build id m₁) := (hbuild id).ends hm₁
  rw [Discipline.bind_apply]
  generalize build id m₁ = result at hend
  -- Behind the members the object may be named: it was not among what was hidden before.
  have hnew : id ∉ K.hidden := fun hid => absurd (hm.sound.concealed id hid) (Nat.lt_irrefl _)
  cases hend with
  | @ok u m₂ hstep₁ hx =>
    refine .ok ⟨hstep₁.sound.reveal hshow, hstep₁.grows, hstep₁.settles⟩ ?_
    have hlt₂ : id.index < m₂.heap.size := hlt.trans_le hstep₁.grows.size_le
    exact Set.insert_subset_iff.mpr ⟨⟨hlt₂, hnew⟩, Set.singleton_subset_iff.mpr hlt₂⟩
  | error hstep₁ he =>
    exact .error ⟨hstep₁.sound.reveal hshow, hstep₁.grows, hstep₁.settles⟩
      (he.trans (Machine.granted_antitone hshow))

variable {engine : Engine} [hengine : engine.Behaves L]

namespace Conducts

/-- What a value leads to is not hidden, so it may become the prototype of a hidden object. -/
instance setLiteralPrototype (id : ObjectId) (v : Value) [hconcealed : Concealed K id]
    [Shown K v] : L.Conducts K (setLiteralPrototype id v) := by
  unfold Engine.setLiteralPrototype
  cases v with
  | object p =>
    refine ⟨fun m hm => ?_⟩
    have hp := hm.facts_subset (Value.object p)
    refine .ok (.setPrototype hm.sound hp fun q hq hreach => ?_) (subset_of_plain _ _)
    cases hq
    have hgranted : _ ∧ _ := hp (.inl rfl)
    exact hreach.induction (P := fun x => x ∉ K.hidden) hgranted.2
      (fun a b hb _ => (hm.sound.prototype hb).2) hconcealed.mem
  | null =>
    exact ⟨fun m hm => .ok (.setPrototype hm.sound (Set.empty_subset _) nofun)
      (subset_of_plain _ _)⟩
  | _ => infer_instance

/-! ## Literals, lists and templates -/

instance (l : Literal) : L.Conducts K (literalValue l) := by
  unfold literalValue
  cases l with
  | bigint digits =>
    dsimp only
    split <;> infer_instance
  | _ => infer_instance

section Scope

variable (scope : FrameId) [hscope : Shown K scope]

instance evaluateList (values : Array Value) (es : List (Option Expression)) [Shown K values]
    [hcode : Shown K (Framed.mk (some scope) es)] :
    L.Conducts K (engine.evaluateList scope values es) := by
  -- Induction on the expressions that are left.
  induction es generalizing values K with
  | nil =>
    unfold Engine.evaluateList
    infer_instance
  | cons e rest ih =>
    have : Shown K (Framed.mk (some scope) rest) := hcode.part
    cases e with
    | none =>
      unfold Engine.evaluateList
      infer_instance
    | some e =>
      have hsome : Shown K (Framed.mk (some scope) (some e)) := hcode.part
      have he : Shown K (Framed.mk (some scope) e) := hsome.part
      cases e
      case spread operand =>
        have : Shown K (Framed.mk (some scope) operand) := he.part
        unfold Engine.evaluateList
        infer_instance
      all_goals
        unfold Engine.evaluateList
        infer_instance

instance evaluateArguments (args : List Expression) [hcode : Shown K (Framed.mk (some scope) args)] :
    L.Conducts K (engine.evaluateArguments scope args) := by
  have : Shown K (Framed.mk (some scope) (args.map some)) := hcode.part
  unfold Engine.evaluateArguments
  infer_instance

instance (texts : List (Option String)) (written : String) (es : List Expression)
    [hcode : Shown K (Framed.mk (some scope) es)] :
    L.Conducts K (engine.templateText scope written texts es) := by
  -- Induction on the texts that are left.
  induction texts generalizing written es K with
  | nil =>
    unfold templateText
    infer_instance
  | cons text texts ih =>
    cases text with
    | none =>
      unfold templateText
      infer_instance
    | some text =>
      cases es with
      | nil =>
        unfold templateText
        infer_instance
      | cons e rest =>
        have : Shown K (Framed.mk (some scope) e) := hcode.part
        have : Shown K (Framed.mk (some scope) rest) := hcode.part
        unfold templateText
        infer_instance

/-! ## Object literals -/

instance (target : ObjectId) (source : Value) [Shown K source] :
    L.Conducts K (engine.copyProperties target source) := by
  unfold copyProperties
  split <;> infer_instance

instance (id : ObjectId) (member : ObjectMember) [Placed K (some id)] [Concealed K id]
    [hcode : Shown K (Framed.mk (some scope) member)] :
    L.Conducts K (engine.addMember scope id member) := by
  have : Shown K (Framed.mk (some scope) member.key) := hcode.part
  unfold addMember
  split
  · next hkind =>
    have := Framed.covers_value (some scope) member (ObjectMember.method?_of_spread hkind)
    have : Shown K (Framed.mk (some scope) member.value) := hcode.part
    infer_instance
  · next hkind =>
    have := Framed.covers_value (some scope) member (ObjectMember.method?_of_value hkind)
    have : Shown K (Framed.mk (some scope) member.value) := hcode.part
    infer_instance
  · next hspread hvalue =>
    refine .bind fun key => ?_
    split
    · next node hnode =>
      have := Framed.covers_method (some scope) node member (ObjectMember.method?_of_function hvalue hspread hnode)
      have : Shown K (Framed.mk none node) := hcode.part
      infer_instance
    · infer_instance

/-- The object of a literal is shown when its members are there. -/
theorem objectLiteral (members : List ObjectMember)
    [hcode : Shown K (Framed.mk (some scope) members)] : L.Conducts K (do
      let id ← newObject
      members.forM (engine.addMember scope id)
      return Value.object id) := by
  unfold newObject newObjectWith
  rw [bind_assoc]
  refine .bind fun prototype => ?_
  refine conducts_building (o := .new prototype .ordinary) (fun _ => nofun) fun id => ?_
  refine forM_of_mem fun member hmember => ?_
  have := Framed.covers_of_mem hmember (some scope)
  have : Shown K (Framed.mk (some scope) member) := hcode.part
  infer_instance

/-! ## Operators -/

instance (operand : Expression) [hcode : Shown K (Framed.mk (some scope) operand)] :
    L.Conducts K (engine.delete scope operand) := by
  unfold Engine.delete
  split
  case h_2 object key _ =>
    have : Shown K (Framed.mk (some scope) object) := hcode.part
    have : Shown K (Framed.mk (some scope) key) := hcode.part
    refine .bind fun base => .bind fun key => ?_
    split <;> infer_instance
  all_goals infer_instance

instance (operand : Expression) [Shown K (Framed.mk (some scope) operand)] :
    L.Conducts K (engine.typeOfOperand scope operand) := by
  unfold typeOfOperand
  refine .bind fun isUnbound => ?_
  split <;> infer_instance

instance (op : UnaryOperator) (operand : Expression) [Shown K (Framed.mk (some scope) operand)] :
    L.Conducts K (engine.unary scope op operand) := by
  unfold unary
  cases op <;> infer_instance

instance (op : AssignmentOperator) (target value : Expression)
    [Shown K (Framed.mk (some scope) target)] [Shown K (Framed.mk (some scope) value)] :
    L.Conducts K (engine.assign scope op target value) := by
  unfold assign
  refine .bind fun reference => ?_
  cases op <;> infer_instance

instance (op : UpdateOperator) (before : Bool) (target : Expression)
    [Shown K (Framed.mk (some scope) target)] :
    L.Conducts K (engine.update scope op before target) := by
  unfold update
  infer_instance

/-! ## Calls -/

instance (object : Expression) (key : MemberKey) [Shown K (Framed.mk (some scope) object)]
    [Shown K (Framed.mk (some scope) key)] :
    L.Conducts K (engine.memberFunction scope object key) := by
  unfold memberFunction
  split <;> infer_instance

instance (callee : Expression) (args : List Expression)
    [hcallee : Shown K (Framed.mk (some scope) callee)] [Shown K (Framed.mk (some scope) args)] :
    L.Conducts K (engine.evaluateCall scope callee args) := by
  unfold evaluateCall
  split
  · infer_instance
  · next object key =>
    have : Shown K (Framed.mk (some scope) object) := hcallee.part
    have : Shown K (Framed.mk (some scope) key) := hcallee.part
    refine .bind fun f => ?_
    obtain ⟨this, f, key⟩ := f
    infer_instance
  · infer_instance

instance (callee : Expression) (args : List Expression) [Shown K (Framed.mk (some scope) callee)]
    [Shown K (Framed.mk (some scope) args)] :
    L.Conducts K (engine.evaluateNew scope callee args) := by
  unfold evaluateNew
  refine .bind fun constructor => .bind fun args => .bind fun isConstructor => ?_
  split <;> infer_instance

instance (last : Value) (es : List Expression) [Shown K last]
    [hcode : Shown K (Framed.mk (some scope) es)] :
    L.Conducts K (engine.evaluateSequence scope last es) := by
  -- Induction on the expressions that are left.
  induction es generalizing last K with
  | nil =>
    unfold evaluateSequence
    infer_instance
  | cons e rest ih =>
    have : Shown K (Framed.mk (some scope) e) := hcode.part
    have : Shown K (Framed.mk (some scope) rest) := hcode.part
    unfold evaluateSequence
    infer_instance

/-! ## Expressions -/

/-- Each form of expression conducts itself well. -/
instance evaluateExpression (name : String) (e : Expression)
    [hcode : Shown K (Framed.mk (some scope) e)] :
    L.Conducts K (engine.evaluateExpression name scope e) := by
  unfold Engine.evaluateExpression
  split
  case h_6 elements =>
    have : Shown K (Framed.mk (some scope) elements) := hcode.part
    infer_instance
  case h_7 members =>
    have : Shown K (Framed.mk (some scope) members) := hcode.part
    exact objectLiteral scope members
  case h_8 node =>
    have : Shown K (Framed.mk none node) := hcode.part
    infer_instance
  case h_9 node =>
    have : Shown K (Framed.mk (if node.isArrow then some scope else none) node) := hcode.part
    infer_instance
  case h_10 node =>
    have : Shown K (Framed.mk (some scope) node) := hcode.part
    infer_instance
  case h_11 op operand =>
    have : Shown K (Framed.mk (some scope) operand) := hcode.part
    infer_instance
  case h_12 op left right =>
    have : Shown K (Framed.mk (some scope) left) := hcode.part
    have : Shown K (Framed.mk (some scope) right) := hcode.part
    infer_instance
  case h_13 op left right =>
    have : Shown K (Framed.mk (some scope) left) := hcode.part
    have : Shown K (Framed.mk (some scope) right) := hcode.part
    infer_instance
  case h_14 op before target =>
    have : Shown K (Framed.mk (some scope) target) := hcode.part
    infer_instance
  case h_15 op target value =>
    have : Shown K (Framed.mk (some scope) target) := hcode.part
    have : Shown K (Framed.mk (some scope) value) := hcode.part
    infer_instance
  case h_16 test consequent alternate =>
    have : Shown K (Framed.mk (some scope) test) := hcode.part
    have : Shown K (Framed.mk (some scope) consequent) := hcode.part
    have : Shown K (Framed.mk (some scope) alternate) := hcode.part
    infer_instance
  case h_17 callee args =>
    have : Shown K (Framed.mk (some scope) callee) := hcode.part
    have : Shown K (Framed.mk (some scope) args) := hcode.part
    infer_instance
  case h_18 callee args =>
    have : Shown K (Framed.mk (some scope) callee) := hcode.part
    have : Shown K (Framed.mk (some scope) args) := hcode.part
    infer_instance
  case h_19 key =>
    have : Shown K (Framed.mk (some scope) key) := hcode.part
    infer_instance
  case h_20 object key _ =>
    have : Shown K (Framed.mk (some scope) object) := hcode.part
    have : Shown K (Framed.mk (some scope) key) := hcode.part
    infer_instance
  case h_21 texts substitutions =>
    have : Shown K (Framed.mk (some scope) substitutions) := hcode.part
    infer_instance
  case h_22 operand =>
    have : Shown K (Framed.mk (some scope) operand) := hcode.part
    infer_instance
  case h_23 parts =>
    have : Shown K (Framed.mk (some scope) parts) := hcode.part
    infer_instance
  all_goals infer_instance

end Scope

end Conducts

end Law

end EcmaEval
