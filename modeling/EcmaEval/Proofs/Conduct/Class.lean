import EcmaEval.Eval.Class
import EcmaEval.Proofs.Conduct.Body

/-!
# Classes on sound machines

A class is a new function, and its parent was there before it; so the prototype that the function
gets does not lead back to it.  The frames for the parts of a class take variables of their own.

## Main results

* `Law.Conducts.makeClass`: making a class
* `Law.Conducts.constructInstance`: constructing an instance
* `Law.Conducts.callSuper`: a call of the constructor of the parent
-/

namespace EcmaEval

variable {L : Law} {K : Knowledge}

namespace Law

open EcmaEval.Action EcmaEval.Engine

variable {engine : Engine} [hengine : engine.Behaves L]

/-! ## Frames of classes -/

/-- The frame for initializers takes variables. -/
theorem leaves_initializerFrame (scope : FrameId) (this : Value) (home : ObjectId) [Shown K scope]
    [Shown K this] [Shown K home] :
    L.Leaves K (initializerFrame scope this home) Knowledge.rootFacts :=
  leaves_addFrame _ nofun

namespace Conducts

/-- A frame that takes variables can be named. -/
theorem of_rootFacts {frame : Action FrameId} (h : L.Leaves K frame Knowledge.rootFacts) :
    L.Conducts K frame := by
  refine ⟨fun m hm => ?_⟩
  have hend := h m hm
  generalize frame m = result at hend
  cases hend with
  | ok hstep hx => exact .ok hstep fun _ hf => hx (.inl (.inl hf))
  | error hstep he => exact .error hstep he

instance (scope : FrameId) (this : Value) (home : ObjectId) [Shown K scope] [Shown K this]
    [Shown K home] : L.Conducts K (initializerFrame scope this home) :=
  of_rootFacts (leaves_initializerFrame scope this home)

instance (frame : Action FrameId) [L.Conducts K frame] (key : String)
    (initializer : Option Expression) [hcode : Shown K (Framed.mk none initializer)] :
    L.Conducts K (engine.fieldValue frame key initializer) := by
  unfold fieldValue
  cases initializer with
  | none => infer_instance
  | some e =>
    have : Shown K (Framed.mk none e) := .covered (Framed.mk none (some e))
    infer_instance

instance (definition : ClassDefinition) (instanceId : ObjectId) [Shown K definition]
    [Shown K instanceId] : L.Conducts K (engine.initializeFields definition instanceId) := by
  unfold initializeFields
  infer_instance

/-! ## Making a class -/

instance defineMethod (target : ObjectId) (scope : FrameId) (enumerable : Bool)
    (m : MethodDefinition) [Shown K scope] [Placed K (some target)] [Shown K m] :
    L.Conducts K (defineMethod target scope enumerable m) := by
  unfold Engine.defineMethod
  infer_instance

instance (scope : FrameId) (e : Option Expression) [Shown K scope]
    [Shown K (Framed.mk (some scope) e)] : L.Conducts K (engine.heritage scope e) := by
  unfold heritage
  cases e with
  | none => infer_instance
  | some e =>
    have : Shown K (Framed.mk (some scope) e) := .covered (Framed.mk (some scope) (some e))
    refine .bind fun v => .bind fun isConstructor => ?_
    split
    · infer_instance
    · refine .bind fun prototype => ?_
      cases prototype <;> infer_instance
    · infer_instance

instance (scope : FrameId) (elements : List ClassElement) (parts : ClassParts) [Shown K scope]
    [hcode : Shown K (Framed.mk (some scope) elements)] [Shown K parts] :
    L.Conducts K (engine.classParts scope elements parts) := by
  -- Induction on the elements that are left.
  induction elements generalizing parts K with
  | nil =>
    unfold classParts
    infer_instance
  | cons element rest ih =>
    have hrest : Shown K (Framed.mk (some scope) rest) :=
      .covered (Framed.mk (some scope) (element :: rest))
    have helement : Shown K (Framed.mk (some scope) element) :=
      .covered (Framed.mk (some scope) (element :: rest))
    unfold classParts
    split
    case h_2 kind isStatic key node hkind =>
      let method : ClassElement := .method kind isStatic key node
      have := Framed.covers_methodKey (some scope) isStatic key hkind node
      have := Framed.covers_methodNode (some scope) isStatic key hkind node
      have : Shown K (Framed.mk (some scope) key) := .covered (Framed.mk (some scope) method)
      have : Shown K (Framed.mk none node) := .covered (Framed.mk (some scope) method)
      infer_instance
    case h_3 key value =>
      let field : ClassElement := .field true key value
      have : Shown K (Framed.mk (some scope) key) := .covered (Framed.mk (some scope) field)
      have : Shown K (Framed.mk none value) := .covered (Framed.mk (some scope) field)
      infer_instance
    case h_4 key value =>
      let field : ClassElement := .field false key value
      have : Shown K (Framed.mk (some scope) key) := .covered (Framed.mk (some scope) field)
      have : Shown K (Framed.mk none value) := .covered (Framed.mk (some scope) field)
      infer_instance
    case h_5 statements =>
      have : Shown K (Framed.mk none statements) :=
        .covered (Framed.mk (some scope) (ClassElement.staticBlock statements))
      infer_instance
    all_goals infer_instance

instance (classId : ObjectId) (scope : FrameId) (element : StaticElement) [Shown K classId]
    [Shown K scope] [Shown K element] : L.Conducts K (engine.runStatic classId scope element) := by
  unfold runStatic
  refine (leaves_initializerFrame scope (.object classId) classId).andThen fun frame => ?_
  change L.Conducts (K.inFrame frame) _
  cases element with
  | field key initializer =>
    have : Shown K (Framed.mk none initializer) := .covered (StaticElement.field key initializer)
    infer_instance
  | block statements =>
    have : Shown K (Framed.mk none statements) := .covered (StaticElement.block statements)
    infer_instance

/-- The parent was there before the function, so it does not lead back to it. -/
instance (definition : ClassDefinition) [Shown K definition] :
    L.Conducts K (newClass definition) := by
  refine ⟨fun m hm => ?_⟩
  let length := (definition.constructor?.map FunctionNode.expectedArguments).getD 0
  let o := (Object.new m.realm.functionPrototype (.function (.class definition))).define "length"
    (.fixed (.ofNat length)) |>.define "name" (.fixed (.ofText definition.name))
  let id : ObjectId := ⟨m.heap.size⟩
  let m₁ : Machine := { m with heap := (m.heap.allocate o).2 }
  have hfunction : L.Ends K.hidden m facts (.ok id m₁) :=
    Conducts.ends (a := newFunction (.class definition) definition.name length) inferInstance hm
  obtain ⟨hstep, hid⟩ := hfunction
  have hm₁ : m₁.Meets L (K.and id) := hm.plus hstep hid
  let rest : Action ObjectId := do
    modifyObject id (·.define "prototype" (.fixed (.object definition.prototype)))
    modifyObject definition.prototype (·.insertHidden "constructor" (.object id))
    return id
  have hrest : L.Conducts (K.and id) rest := inferInstance
  refine .of_step hstep ?_
  change L.Ends K.hidden m₁ facts ((if definition.parent.isSome then
    modifyObject id ({ · with prototype := definition.parent }) >>= fun _ => rest else rest) m₁)
  cases hparent : definition.parent with
  | none => exact hrest.ends hm₁
  | some parent =>
    have hgranted : facts parent ⊆ m.granted L K.hidden := by
      have hfacts := hm.facts_subset definition.parent
      rwa [hparent] at hfacts
    have hlt : _ ∧ _ := hgranted (.inl rfl)
    have hstep₁ : L.Step K.hidden L.suites m₁
        { m₁ with heap := m₁.heap.modify id ({ · with prototype := some parent }) } :=
      .setPrototype_of_spares hstep.sound hm.sound.closed (.allocate _ _) (Nat.le_refl _) hlt.1
        (hgranted.trans (Machine.granted_mono hm.sound hstep.grows))
    exact .of_step hstep₁ (hrest.ends (hm₁.step hstep₁))

instance makeClass (name : String) (scope : FrameId) (node : ClassNode) [Shown K scope]
    [Shown K (Framed.mk (some scope) node)] : L.Conducts K (engine.makeClass name scope node) := by
  unfold Engine.makeClass
  refine (leaves_addBlock scope).andThen fun block => ?_
  change L.Conducts (K.inBlock scope block) _
  have : Shown (K.inBlock scope block) (Framed.mk (some block) node.heritage) :=
    .covered (Framed.mk (some block) node)
  have : Shown (K.inBlock scope block) (Framed.mk (some block) node.body) :=
    .covered (Framed.mk (some block) node)
  have : Constructs (K.inBlock scope block) node.constructor? :=
    Framed.constructs_constructor? (some block) node
  refine .bind fun heritage => ?_
  obtain ⟨parent, prototypeParent⟩ := heritage
  refine .bind fun prototype => .bind fun parts => .bind fun id => .bind fun _ => ?_
  dsimp only
  split <;> infer_instance

/-! ## Constructing an instance -/

instance (newTarget : ObjectId) [Shown K newTarget] :
    L.Conducts K (engine.allocateInstance newTarget) := by
  unfold allocateInstance
  refine .bind fun prototype => ?_
  cases prototype <;> infer_instance

instance (definition : ClassDefinition) (args : List Value) (newTarget : ObjectId)
    [Shown K definition] [Shown K args] [Shown K newTarget] :
    L.Conducts K (engine.constructByDefault definition args newTarget) := by
  unfold constructByDefault
  dsimp only
  have hparent : Shown K definition.parent := inferInstance
  split
  · infer_instance
  · next parent heq =>
    have : Shown K parent := ⟨(heq ▸ hparent).facts_subset⟩
    refine .bind fun result => ?_
    cases result <;> infer_instance

end Conducts

/-- A frame that is made and changed at once. -/
theorem addFrame_modifyFrame {β : Type} (f : Frame) (change : Frame → Frame)
    (next : FrameId → Action β) : (do
      let id ← addFrame f
      modifyFrame id change
      next id) = addFrame (change f) >>= next := by
  funext m
  have hadd := m.frames.add_modify f change
  simp only [Discipline.bind_apply, addFrame, modifyFrame, Frames.add] at hadd ⊢
  rw [hadd]

/-- A frame that is new in a step, and has a home, may get a receiver. -/
theorem Step.bindReceiver {m m' : Machine} {mayStop : Prop}
    (hstep : L.Step K.hidden mayStop m m') (hm' : m'.Meets L K) (id : FrameId)
    (hid : m.frames.size ≤ id.index) (hhome : (m'.frames.get id).home ≠ none) (v : Value)
    [Shown K v] :
    let bound := { m' with frames := m'.frames.modify id ({ · with this := some (.bound v) }) }
    L.Step K.hidden mayStop m bound ∧ bound.Meets L K := by
  let change (f : Frame) : Frame := { f with this := some (.bound v) }
  have hupholds : (m'.frames.get id).Upholds (change (m'.frames.get id)) :=
    ⟨⟨rfl, rfl, rfl, fun h => h⟩, rfl, fun hopen => absurd hopen.home hhome, fun _ => rfl⟩
  have hchange (f : Frame) : Shown (K.and f) (change f) := inferInstance
  have hbound : L.Step K.hidden mayStop m { m' with frames := m'.frames.modify id change } :=
    hstep.modifyNewFrame hid hupholds (fun _ => .inl)
      ((hchange _).facts_subset.trans (hm'.and_subset (hm'.sound.frames id)))
  refine ⟨hbound, hbound.sound, hm'.known.trans ?_⟩
  exact Machine.granted_mono_of_extends hm'.sound (Nat.le_refl _)
    (.modify m'.frames id hupholds.toStays fun _ => .inl) fun _ => .modify m'.frames hupholds

section Constructor

variable {definition : ClassDefinition} {newTarget : ObjectId} {node : FunctionNode}
  (hnode : definition.constructor? = some node)
include hnode

/-- The code of a constructor may run in the frame of an invocation of it. -/
theorem code_subset_of_runs [hdefinition : Shown K definition] {m : Machine} (hm : m.Meets L K)
    {id : FrameId} (hid : id.index < m.frames.size)
    (hruns : (m.frames.get id).Runs definition newTarget) :
    facts (Framed.mk (some id) node) ⊆ m.granted L K.hidden := by
  refine Set.union_subset ?_ ?_
  · rintro _ ⟨scope, args, rfl, hstrays⟩
    refine hm.facts_subset definition (.inr (.inl ⟨scope, args, rfl, ?_⟩))
    simpa [hnode, sites] using hstrays
  · rintro _ ⟨scope, args, rfl, hscope, hcalls⟩ -
    obtain rfl := hscope id rfl
    exact ⟨id, definition, newTarget, .self id, hid, hruns, node, hnode, hcalls⟩

/-- The frame of a constructor that is complete. -/
theorem leaves_derivedFrame (frame : Frame) [Shown K definition] [Shown K frame]
    (hruns : frame.Runs definition newTarget) :
    L.Leaves K (addFrame frame) (Knowledge.codeFacts node) := by
  intro m hm
  have hkind : frame.kind ≠ .block := ne_of_eq_of_ne hruns.kind nofun
  have hadd : L.Ends K.hidden m Knowledge.rootFacts
      (.ok ⟨m.frames.size⟩ { m with frames := (m.frames.add frame).2 }) :=
    leaves_addFrame frame hkind m hm
  obtain ⟨hstep, hroot⟩ := hadd
  rw [← m.frames.get_add_self frame] at hruns
  exact .ok hstep (Set.union_subset hroot
    (code_subset_of_runs hnode (hm.step hstep) (by simp) hruns))

/-- The instance of a class that extends none is the receiver of the frame of its constructor.  The
frame is new, so no other frame gets another receiver. -/
theorem leaves_baseFrame (frame : Frame) [Shown K definition] [Shown K newTarget] [Shown K frame]
    (hruns : ∀ v, ({ frame with this := some v } : Frame).Runs definition newTarget) :
    L.Leaves K (do
      let id ← addFrame frame
      let instanceId ← engine.allocateInstance newTarget
      modifyFrame id ({ · with this := some (.bound (.object instanceId)) })
      engine.initializeFields definition instanceId
      return id) (Knowledge.codeFacts node) := by
  intro m hm
  let id : FrameId := ⟨m.frames.size⟩
  let m₁ : Machine := { m with frames := (m.frames.add frame).2 }
  have hkind : frame.kind ≠ .block := ne_of_eq_of_ne (hruns .uninitialized).kind nofun
  have hadd : L.Ends K.hidden m Knowledge.rootFacts (.ok id m₁) := leaves_addFrame frame hkind m hm
  obtain ⟨hstep₁, hid⟩ := hadd
  have hm₁ : m₁.Meets L (K.inFrame id) := hm.plus hstep₁ hid
  have hlt₁ : id.index < m₁.frames.size := by simp [id, m₁]
  have hinstance : L.Ends K.hidden m₁ facts (engine.allocateInstance newTarget m₁) :=
    Conducts.ends (K := K.inFrame id) inferInstance hm₁
  rw [Discipline.bind_apply]
  change L.Ends K.hidden m _ ((engine.allocateInstance newTarget >>= _) m₁)
  rw [Discipline.bind_apply]
  generalize engine.allocateInstance newTarget m₁ = result at hinstance
  cases hinstance with
  | error hstep₂ he => exact .error ((hstep₁.mono .inl).trans hstep₂) he
  | @ok instanceId m₂ hstep₂ hinstanceId =>
    let K' := (K.inFrame id).and instanceId
    have hm₂ : m₂.Meets L K' := hm₁.plus hstep₂ hinstanceId
    have hnew : L.Step K'.hidden L.suites m m₂ := hstep₁.trans hstep₂
    have hpersists : frame.Persists (m₂.frames.get id) := by
      have h := hstep₂.grows.persists hlt₁
      rwa [m.frames.get_add_self] at h
    have hhome : (m₂.frames.get id).home ≠ none := by
      rw [hpersists.home, (hruns .uninitialized).home]
      nofun
    obtain ⟨hstep₃, hm₃⟩ := hnew.bindReceiver hm₂ id (Nat.le_refl _) hhome (.object instanceId)
    have hcode := code_subset_of_runs hnode hm₃ (by simpa using hlt₁.trans_le hstep₂.grows.frames.size_le) <| by
      rw [m₂.frames.get_modify_self (hlt₁.trans_le hstep₂.grows.frames.size_le)]
      exact (hruns _).upheld hpersists.upholds.withReceiver
    have hrest : L.Leaves (K'.plus (facts (Framed.mk (some id) node))) (do
        engine.initializeFields definition instanceId
        return id) (Knowledge.codeFacts node) :=
      .after (inferInstance : L.Conducts (K'.plus _) (engine.initializeFields definition instanceId))
        fun _ => .pure (Set.union_subset (Set.subset_union_right.trans
          (Set.subset_union_left.trans (Set.subset_union_left.trans Set.subset_union_left)))
          (Set.subset_union_right.trans Set.subset_union_left))
    exact .of_step hstep₃ (hrest _ ⟨hm₃.sound, Set.union_subset hm₃.known hcode⟩)

/-- The frame of a constructor takes variables, and the code of the constructor may run in it. -/
theorem leaves_constructorFrame (args : List Value) [Shown K definition] [Shown K args]
    [Shown K newTarget] :
    L.Leaves K (engine.constructorFrame definition args newTarget) (Knowledge.codeFacts node) := by
  have hargs : L.Conducts K (newArrayOf args) := inferInstance
  unfold constructorFrame
  refine hargs.leaves.bind fun arguments => ?_
  change L.Leaves (K.and arguments) _ _
  dsimp only
  split
  · next hparent =>
    rw [addFrame_modifyFrame, bind_pure]
    exact leaves_derivedFrame hnode _ ⟨rfl, rfl, rfl, rfl, (if_pos hparent).symm⟩
  · next hparent =>
    refine leaves_baseFrame hnode _ fun v => ⟨rfl, rfl, rfl, rfl, ?_⟩
    rw [if_neg hparent]
    rfl

end Constructor

namespace Conducts

instance constructInstance (definition : ClassDefinition) (args : List Value)
    (newTarget : ObjectId) [Shown K definition] [Shown K args] [Shown K newTarget] :
    L.Conducts K (engine.constructInstance definition args newTarget) := by
  unfold Engine.constructInstance
  split
  · infer_instance
  · next node hnode =>
    refine (leaves_constructorFrame hnode args).andThen fun frame => ?_
    refine .bind fun result => ?_
    split
    · infer_instance
    · refine .bind fun this => ?_
      cases this with
      | none => infer_instance
      | some this => cases this <;> infer_instance

/-- What the constructor of the parent gives is the receiver from then on. -/
instance callSuper (scope : FrameId) (args : Action (List Value)) [Shown K scope]
    [L.Conducts K args] : L.Conducts K (engine.callSuper scope args) := by
  unfold Engine.callSuper
  refine .bind fun frame => ?_
  cases frame with
  | none => infer_instance
  | some id =>
    refine .bind fun args => ⟨fun m hm => ?_⟩
    have hid : Shown ((K.and (some id)).and args) id := inferInstance
    have hlt : m.Grants L K.hidden (.frame id) := hm.facts_subset id rfl
    rw [readFrames_bind]
    generalize hframe : m.frames.get id = frame
    generalize hK : ((K.and (some id)).and args).and frame = K'
    have hm : m.Meets L K' := hK ▸ ⟨hm.sound, hm.and_subset (hframe ▸ hm.sound.frames id)⟩
    have hcall : Shown K' frame.superCall := hK ▸ inferInstance
    have hargs : Shown K' args := hK ▸ inferInstance
    have hhidden : K.hidden = K'.hidden := hK ▸ rfl
    clear hK
    change L.Ends K.hidden m facts _
    rw [hhidden]
    split
    · exact Conducts.ends inferInstance hm
    · next definition newTarget _ _ =>
      have hcall : Shown K' (SuperCall.mk definition newTarget) := ⟨hcall.facts_subset⟩
      have : Shown K' definition := .covered (SuperCall.mk definition newTarget)
      have : Shown K' newTarget := .covered (SuperCall.mk definition newTarget)
      have hparent : Shown K' definition.parent := inferInstance
      generalize definition.parent = parent at hparent ⊢
      cases parent with
      | none => exact Conducts.ends inferInstance hm
      | some parent =>
        have : Shown K' parent := ⟨hparent.facts_subset⟩
        have hconstruct : L.Conducts K' (engine.construct parent args newTarget) := inferInstance
        refine (hconstruct.ends hm).bind hm fun result m' hm' hstep => ?_
        change m'.Meets L (K'.and result) at hm'
        have hsuper : (m'.frames.get id).superCall.isSome = true := by
          rw [(hstep.grows.persists hlt).superCall, hframe]
          rfl
        cases result with
        | object instanceId =>
          let change (f : Frame) : Frame := { f with this := some (.bound (.object instanceId)) }
          have hchange (f : Frame) : Shown ((K'.and (Value.object instanceId)).and f) (change f) :=
            inferInstance
          have hbind : L.Step K'.hidden L.suites m'
              { m' with frames := m'.frames.modify id change } :=
            .modifyFrame hm'.sound ⟨⟨rfl, rfl, rfl, fun h => h⟩, rfl, .inr ⟨hsuper, _, rfl⟩⟩
              (fun _ => .inl) ((hchange _).facts_subset.trans (hm'.and_subset (hm'.sound.frames id)))
          have hrest : L.Conducts (K'.and (Value.object instanceId)) (do
              engine.initializeFields definition instanceId
              return Value.object instanceId) := inferInstance
          exact .of_step hbind (hrest.ends (hm'.step hbind))
        | _ => exact Conducts.ends (K := K') inferInstance (hm.step hstep)
    · exact Conducts.ends inferInstance hm

end Conducts

end Law

end EcmaEval
