import EcmaEval.Eval.Class
import EcmaEval.Proofs.Conduct.Ancestry
import EcmaEval.Proofs.Object.PropertyOrder
import EcmaEval.Proofs.Conduct.Arrays

/-!
# The fields of an instance, and constructors

A class gives an instance its fields one after the other.  The initializer of each is evaluated in a
frame of its own, whose receiver is the instance, and what it gives is written under the key of the
field.  Where the initializers leave the instance alone, what is written tells what the instance
has: the keys stand in the order in which each came first, with the values that came last.

A class constructs an instance in one of four ways.  It has a constructor of its own or not, and it
extends another class or not.  In a class that extends none the instance is new, and its prototype
is what the target of `new` has for its instances.  In a derived class it is what the parent gives,
and the frame of the constructor stays that of the construction that it was made for.

## Main definitions

* `Object.withPlain`: an object with listed values written to it, one after the other
* `Engine.fieldOf`: the value of a field for an instance
* `Engine.fillFields`: gives an instance some fields of a class
* `Engine.Initializes`: the initializers come to their ends, and leave the instance as it is
* `Engine.Fills`: each field is evaluated once, in order, and its value is written
* `Machine.entering`: the machine with a new frame for a constructor
* `Machine.withInstance`: the machine with a new instance

## Main results

* `Object.names_withPlain`, `Object.get?_withPlain`: what is kept under which keys, in which order
* `Engine.Fills.initializeFields`: the fields of a class are evaluated once each, in order
* `Engine.Initializes.exists_fills`: and they are what the instance gets
* `Engine.constructByDefault_of_base`, `Engine.constructByDefault_of_derived`,
  `Engine.constructInstance_of_body`: the ways to construct an instance
* `Engine.base_receiver`: the receiver in a base class stays the new instance
* `Engine.fits_super`: what a call of the parent constructor asks for
-/

namespace EcmaEval

/-! ## Listed values -/

namespace Object

/-- The object with listed values written to it, one after the other. -/
def withPlain (o : Object) (written : List (String × Value)) : Object :=
  written.foldl (fun o entry => o.insertPlain entry.1 entry.2) o

variable {o : Object} {key : String}

theorem withPlain_append (written written' : List (String × Value)) :
    o.withPlain (written ++ written') = (o.withPlain written).withPlain written' :=
  List.foldl_append

theorem insertPlain_of_not_array (h : o.isArray = false) (v : Value) :
    o.insertPlain key v = { o with properties := o.properties.insert key (.plain v) } := by
  unfold insertPlain define
  rw [h]

/-- Only the properties change. -/
theorem withPlain_of_not_array (h : o.isArray = false) (written : List (String × Value)) :
    o.withPlain written =
      { o with properties := (o.withPlain written).properties } := by
  induction written using List.reverseRecOn with
  | nil => rfl
  | append_singleton written entry ih =>
    have harray : (o.withPlain written).isArray = false := by rw [ih]; exact h
    rw [withPlain_append]
    change (o.withPlain written).insertPlain entry.1 entry.2 =
      { o with properties := ((o.withPlain written).insertPlain entry.1 entry.2).properties }
    rw [insertPlain_of_not_array harray, ih]

theorem prototype_withPlain (h : o.isArray = false) (written : List (String × Value)) :
    (o.withPlain written).prototype = o.prototype := by
  rw [withPlain_of_not_array h]

theorem isArray_withPlain (h : o.isArray = false) (written : List (String × Value)) :
    (o.withPlain written).isArray = false := by
  rw [withPlain_of_not_array h]
  exact h

/-- Each write adds the value to the properties. -/
theorem properties_withPlain_concat (h : o.isArray = false) (written : List (String × Value))
    (entry : String × Value) : (o.withPlain (written ++ [entry])).properties =
      (o.withPlain written).properties.insert entry.1 (.plain entry.2) := by
  rw [withPlain_append]
  change ((o.withPlain written).insertPlain entry.1 entry.2).properties = _
  rw [insertPlain_of_not_array (isArray_withPlain h written)]

variable (h : o.isArray = false) (hempty : o.properties = ∅) (written : List (String × Value))

include h hempty

/-- The keys stand in the order in which each came first. -/
theorem names_withPlain :
    (o.withPlain written).properties.names = (written.map Prod.fst).eraseDups := by
  -- Induction from the last value on, which stands behind all others.
  induction written using List.reverseRecOn with
  | nil => rw [withPlain, List.foldl_nil, hempty]; rfl
  | append_singleton written entry ih =>
    rw [properties_withPlain_concat h, PropertyTable.names_insert, ih, List.map_append,
      List.eraseDups_append]
    by_cases hmem : entry.1 ∈ written.map Prod.fst
    · simp [List.removeAll, hmem]
    · simp [List.removeAll, hmem, List.eraseDups_cons]

/-- Under each key stands the value that came last. -/
theorem get?_withPlain :
    (o.withPlain written).properties.get? key =
      (written.reverse.lookup key).map .plain := by
  induction written using List.reverseRecOn with
  | nil => rw [withPlain, List.foldl_nil, hempty]; rfl
  | append_singleton written entry ih =>
    rw [properties_withPlain_concat h, PropertyTable.get?_insert, ih, List.reverse_append]
    obtain ⟨name, v⟩ := entry
    by_cases heq : key = name
    · simp [heq]
    · simp [List.lookup_cons, heq, beq_false_of_ne heq]

end Object

/-! ## Evaluating fields -/

/-- The machine with a listed value written to an object. -/
def Machine.withPlain (m : Machine) (id : ObjectId) (key : String) (v : Value) : Machine :=
  { m with heap := m.heap.modify id (·.insertPlain key v) }

/-- An object with a prototype is there. -/
theorem Heap.lt_of_prototype {h : Heap} {id p : ObjectId} (hp : (h.get id).prototype = some p) :
    id.index < h.size := by
  by_contra hnot
  rw [h.get_of_size_le (Nat.le_of_not_lt hnot)] at hp
  cases hp

/-- An object that can be called is there. -/
theorem Heap.lt_of_callable {h : Heap} {id : ObjectId} {c : Callable}
    (hc : (h.get id).callable? = some c) : id.index < h.size := by
  by_contra hnot
  rw [h.get_of_size_le (Nat.le_of_not_lt hnot)] at hc
  cases hc

namespace Engine

open EcmaEval.Action EcmaEval.Discipline

variable (engine : Engine) (definition : ClassDefinition) (instanceId : ObjectId)

/-- The value of a field of a class for an instance.  The initializer is evaluated in a new frame in
the scope of the class, whose receiver is the instance. -/
def fieldOf (field : FieldDefinition) : Action Value :=
  let frame := initializerFrame definition.scope (.object instanceId) definition.prototype
  engine.fieldValue frame field.key field.initializer

/-- The loop over some fields of a class. -/
def fillFields (fields : List FieldDefinition) : Action Unit := do
  for field in fields do
    let value ← engine.fieldOf definition instanceId field
    modifyObject instanceId (·.insertPlain field.key value)

/-- The initializers of fields come to their ends one after the other, and leave the instance as it
is; the values of those that ran before are written to it when the next one runs. -/
def Initializes : List FieldDefinition → Machine → Prop
  | [], _ => True
  | field :: rest, m => ∃ v m', engine.fieldOf definition instanceId field m = .ok v m' ∧
      m'.heap.get instanceId = m.heap.get instanceId ∧
      Initializes rest (m'.withPlain instanceId field.key v)

/-- From one machine to another, each field is evaluated once, in order, and its value is written to
the instance before the next one is evaluated.  Nothing else happens. -/
inductive Fills : List FieldDefinition → Machine → List (String × Value) → Machine → Prop where
  | nil (m : Machine) : Fills [] m [] m
  | cons {field : FieldDefinition} {rest : List FieldDefinition} {m m₁ m' : Machine} {v : Value}
    {written : List (String × Value)}
    (hvalue : engine.fieldOf definition instanceId field m = .ok v m₁)
    (hrest : Fills rest (m₁.withPlain instanceId field.key v) written m') :
    Fills (field :: rest) m ((field.key, v) :: written) m'

variable {engine definition instanceId} {fields : List FieldDefinition} {m m' : Machine}
  {written : List (String × Value)}

/-- What is written is written under the keys of the fields. -/
theorem Fills.keys (h : engine.Fills definition instanceId fields m written m') :
    written.map Prod.fst = fields.map FieldDefinition.key := by
  induction h with
  | nil => rfl
  | cons _ _ ih => rw [List.map_cons, List.map_cons, ih]

theorem fillFields_cons (field : FieldDefinition) (rest : List FieldDefinition) :
    engine.fillFields definition instanceId (field :: rest) = (do
      let value ← engine.fieldOf definition instanceId field
      modifyObject instanceId (·.insertPlain field.key value)
      engine.fillFields definition instanceId rest) := by
  unfold fillFields
  simp

/-- Each round of the loop is the evaluation of one field. -/
theorem Fills.fillFields (h : engine.Fills definition instanceId fields m written m') :
    engine.fillFields definition instanceId fields m = .ok () m' := by
  induction h with
  | nil => rfl
  | cons hvalue _ ih =>
    rw [fillFields_cons, bind_apply, hvalue]
    exact ih

/-- The fields of a class are evaluated once each, in order. -/
theorem Fills.initializeFields
    (h : engine.Fills definition instanceId definition.fields m written m') :
    engine.initializeFields definition instanceId m = .ok () m' :=
  h.fillFields

/-- Initializers that leave the instance alone fill it. -/
theorem Initializes.exists_fills (h : engine.Initializes definition instanceId fields m)
    {p : ObjectId} (hp : (m.heap.get instanceId).prototype = some p)
    (harray : (m.heap.get instanceId).isArray = false) :
    ∃ written m', engine.Fills definition instanceId fields m written m' ∧
      m'.heap.get instanceId = (m.heap.get instanceId).withPlain written := by
  -- Induction on the fields that are left; the instance is on each machine what was written so far.
  induction fields generalizing m with
  | nil => exact ⟨[], m, .nil m, rfl⟩
  | cons field rest ih =>
    obtain ⟨v, m₁, hvalue, hsame, hrest⟩ := h
    have hlt : instanceId.index < m₁.heap.size := Heap.lt_of_prototype (p := p) (by rw [hsame, hp])
    have hget : (m₁.withPlain instanceId field.key v).heap.get instanceId =
        (m.heap.get instanceId).insertPlain field.key v := by
      rw [Machine.withPlain, Heap.get_modify_self _ hlt, hsame]
    have hinsert : (m.heap.get instanceId).insertPlain field.key v = _ :=
      Object.insertPlain_of_not_array harray v
    obtain ⟨written, m', hfills, hobject⟩ := ih hrest (by rw [hget, hinsert, hp])
      (by rw [hget, hinsert]; exact harray)
    refine ⟨(field.key, v) :: written, m', .cons hvalue hfills, ?_⟩
    rw [hobject, hget]
    rfl

end Engine

end EcmaEval

/-! # Constructors -/

namespace EcmaEval

open EcmaEval.Action Engine Discipline

/-! ## The machines of a construction -/

/-- The frame in which the constructor of a class runs. -/
def ClassDefinition.frame (definition : ClassDefinition) : Frame where
  parent := some definition.scope
  kind := .function
  home := some definition.prototype

/-- The frame in which the constructor of a derived class runs.  It has no receiver yet. -/
def ClassDefinition.derivedFrame (definition : ClassDefinition) (newTarget : ObjectId) : Frame :=
  { definition.frame with
    this := some .uninitialized
    superCall := some { definition, newTarget } }

namespace Machine

/-- The machine with a new frame for a constructor and the list of its arguments. -/
def entering (m : Machine) (frame : Frame) (args : List Value) : Machine :=
  { m with
    heap := (m.heap.allocate (.new m.realm.arrayPrototype (.array args.toArray))).2
    frames := (m.frames.add (frame.declareConstant "arguments" (.object ⟨m.heap.size⟩))).2 }

/-- The machine with a new object that has a prototype and nothing else. -/
def withInstance (m : Machine) (prototype : ObjectId) : Machine :=
  { m with heap := (m.heap.allocate (.new (some prototype) .ordinary)).2 }

end Machine

/-! ## Constructions -/

namespace Engine

variable {engine : Engine} {definition : ClassDefinition} {args : List Value} {newTarget : ObjectId}
  {m m' : Machine}

/-- An object is constructed by what the class says. -/
theorem construct_of_class {k : Nat} {id : ObjectId}
    (hclass : (m.heap.get id).callable? = some (.class definition)) :
    (ofFuel (k + 1)).construct id args newTarget m =
      (ofFuel k).constructInstance definition args newTarget m := by
  change (ofFuel k).constructFunction id args newTarget m = _
  unfold constructFunction
  rw [readHeap_bind, hclass]

theorem allocateInstance_of_getOf {prototype : ObjectId}
    (h : engine.getOf newTarget "prototype" m = .ok (.object prototype) m') :
    engine.allocateInstance newTarget m = .ok ⟨m'.heap.size⟩ (m'.withInstance prototype) := by
  unfold allocateInstance
  rw [bind_apply, h]
  rfl

theorem constructInstance_of_none (hnone : definition.constructor? = none) :
    engine.constructInstance definition args newTarget =
      engine.constructByDefault definition args newTarget := by
  unfold constructInstance
  rw [hnone]

/-- The frame of the constructor of a derived class. -/
theorem constructorFrame_of_derived (hparent : definition.parent.isSome = true) :
    engine.constructorFrame definition args newTarget m =
      .ok ⟨m.frames.size⟩ (m.entering (definition.derivedFrame newTarget) args) := by
  unfold constructorFrame
  simp only [hparent, if_true, Law.addFrame_modifyFrame]
  rfl

/-- The frame of the constructor of a base class gets its receiver at once, and this its fields. -/
theorem constructorFrame_of_base (hparent : definition.parent = none) {prototype : ObjectId}
    (hprototype : engine.getOf newTarget "prototype" (m.entering definition.frame args) =
      .ok (.object prototype) m') :
    engine.constructorFrame definition args newTarget m =
      (do
        engine.initializeFields definition ⟨m'.heap.size⟩
        return FrameId.mk m.frames.size)
        ((m'.withInstance prototype).withReceiver ⟨m.frames.size⟩ (.object ⟨m'.heap.size⟩)) := by
  have hinstance := allocateInstance_of_getOf hprototype
  unfold constructorFrame
  simp only [hparent, Option.isSome_none, Bool.false_eq_true, if_false]
  change (engine.allocateInstance newTarget >>= _) (m.entering definition.frame args) = _
  rw [bind_apply, hinstance]
  rfl

/-- A constructor that returns no object constructs its receiver. -/
theorem constructInstance_of_body {node : FunctionNode} {frame : FrameId} {result this : Value}
    {m₁ : Machine} (hnode : definition.constructor? = some node)
    (hframe : engine.constructorFrame definition args newTarget m = .ok frame m₁)
    (hbody : engine.runFunction node frame args m₁ = .ok result m')
    (hresult : result.isObject = false)
    (hthis : (m'.frames.get frame).this = some (.bound this)) :
    engine.constructInstance definition args newTarget m = .ok this m' := by
  unfold constructInstance
  rw [hnode]
  dsimp only
  rw [bind_apply, hframe]
  dsimp only
  rw [bind_apply, hbody]
  dsimp only
  rw [if_neg (by rw [hresult]; exact Bool.false_ne_true), readFrames_bind, hthis]
  rfl

theorem constructByDefault_of_base (hparent : definition.parent = none) {prototype : ObjectId}
    (hprototype : engine.getOf newTarget "prototype" m = .ok (.object prototype) m') :
    engine.constructByDefault definition args newTarget m =
      (do
        engine.initializeFields definition ⟨m'.heap.size⟩
        return Value.object ⟨m'.heap.size⟩) (m'.withInstance prototype) := by
  unfold constructByDefault
  rw [hparent]
  dsimp only
  rw [bind_apply, allocateInstance_of_getOf hprototype]

theorem constructByDefault_of_derived {parent instanceId : ObjectId}
    (hparent : definition.parent = some parent)
    (hconstruct : engine.construct parent args newTarget m = .ok (.object instanceId) m') :
    engine.constructByDefault definition args newTarget m =
      (do
        engine.initializeFields definition instanceId
        return Value.object instanceId) m' := by
  unfold constructByDefault
  rw [hparent]
  dsimp only
  rw [bind_apply, hconstruct]
  rfl

/-- What stands behind the fields. -/
theorem Fills.initializeFields_bind {α : Type} {instanceId : ObjectId}
    {written : List (String × Value)}
    (h : engine.Fills definition instanceId definition.fields m written m') (v : α) :
    (do
      engine.initializeFields definition instanceId
      return v) m = .ok v m' := by
  rw [bind_apply, h.initializeFields]
  rfl

end Engine

/-! ## Constructions on sound machines -/

section Sound

variable {L : Law} {K : Knowledge} {m m' m₁ m₂ : Machine} {id parent newTarget prototype : ObjectId}
  {definition : ClassDefinition} {args values : List Value} {node : FunctionNode} {k j : Nat}

/-- What has been done by an action that conducts itself well, when it has a value. -/
theorem Law.Conducts.step_of_ok {α : Type} [HasFacts α] {a : Action α} {x : α}
    (ha : L.Conducts K a) (hm : m.Meets L K) (h : a m = .ok x m') :
    L.Step K.hidden L.suites m m' ∧ m'.Meets L (K.and x) := by
  have hend := ha.ends hm
  rw [h] at hend
  cases hend with
  | ok hstep hx => exact ⟨hstep, hm.plus hstep hx⟩

/-- What a class mentions is there. -/
theorem Machine.Meets.ofClass (hm : m.Meets L K)
    (hclass : (m.heap.get id).callable? = some (.class definition)) :
    m.Meets L (K.and definition) := by
  have : Shown ⟨m.granted L K.hidden, K.hidden⟩ (m.heap.get id) := ⟨hm.sound.objects id⟩
  have hcallable : Shown ⟨m.granted L K.hidden, K.hidden⟩ (m.heap.get id).callable? := inferInstance
  rw [hclass] at hcallable
  exact ⟨hm.sound, hm.and_subset hcallable.facts_subset⟩

/-- Under a law that lets calls of the parent constructor stand anywhere, any code may run. -/
theorem Machine.Meets.withCode {suites : Prop} (hm : m.Meets (.lax suites) K) {α : Type}
    [HasSites α] (code : Framed α) : m.Meets (.lax suites) (K.and code) :=
  ⟨hm.sound, hm.and_subset (Machine.code_subset_of_not_lexical id code)⟩

instance [Shown K definition] : Shown K definition.frame := by
  unfold ClassDefinition.frame
  infer_instance

instance [Shown K definition] [Shown K newTarget] :
    Shown K (definition.derivedFrame newTarget) := by
  unfold ClassDefinition.derivedFrame
  infer_instance

/-- The frame of a constructor takes variables of its own. -/
theorem Machine.Meets.entering (hm : m.Meets L K) (frame : Frame) (args : List Value)
    [Shown K frame] [Shown K args] (hkind : frame.kind ≠ .block) :
    L.Step K.hidden L.suites m (m.entering frame args) ∧
      (m.entering frame args).Meets L (K.inFrame ⟨m.frames.size⟩) := by
  have hargs : L.Conducts K (newArrayOf args) := inferInstance
  have hleaves : L.Leaves K (do addFrame (frame.declareConstant "arguments" (← newArrayOf args)))
      Knowledge.rootFacts := by
    refine hargs.leaves.bind fun arguments => ?_
    have : Shown (K.and arguments) arguments := inferInstance
    exact Law.leaves_addFrame (K := K.and arguments) _ hkind
  have hend : L.Ends K.hidden m Knowledge.rootFacts
      (.ok ⟨m.frames.size⟩ (m.entering frame args)) := hleaves m hm
  cases hend with
  | ok hstep hx => exact ⟨hstep, hm.plus hstep hx⟩

/-- What a construction by a class is about is known. -/
theorem Engine.exists_knowledge_of_class (hfits : (Query.construct id args newTarget).Fits L m)
    (hclass : (m.heap.get id).callable? = some (.class definition)) :
    ∃ K, m.Meets L K ∧ Shown K definition ∧ Shown K args ∧ Shown K newTarget := by
  obtain ⟨hidden, hm, hq⟩ := hfits
  exact ⟨(m.knowledge L hidden).and definition, hm.meets.ofClass hclass, inferInstance,
    ⟨fun _ hf => .inl (hq (.inl (.inr hf)))⟩, ⟨fun _ hf => .inl (hq (.inr hf))⟩⟩

/-- What an instance is allocated for leaves the heap no smaller. -/
theorem Engine.size_le_of_getOf {suites : Prop}
    (hfits : (Query.construct id args newTarget).Fits (.lax suites) m)
    (hprototype : (ofFuel k).getOf newTarget "prototype" m = .ok (.object prototype) m₁) :
    m.heap.size ≤ m₁.heap.size := by
  have hbehaves := behaves_ofFuel (Law.records_lax suites)
  obtain ⟨hidden, hm, hq⟩ := hfits
  have : Shown (m.knowledge (.lax suites) hidden) newTarget := ⟨fun _ hf => hq (.inr hf)⟩
  have hget : (Law.lax suites).Conducts (m.knowledge (.lax suites) hidden)
      ((ofFuel k).getOf newTarget "prototype") := inferInstance
  exact (hget.step_of_ok hm.meets hprototype).1.grows.size_le

/-- The parent of a class may be asked to construct what the class may be asked to construct. -/
theorem Engine.fits_parent (hfits : (Query.construct id args newTarget).Fits L m)
    (hclass : (m.heap.get id).callable? = some (.class definition))
    (hparent : definition.parent = some parent) :
    (Query.construct parent args newTarget).Fits L m := by
  obtain ⟨hidden, hm, hq⟩ := hfits
  have hdefinition := (hm.meets.ofClass hclass).known
  have hfacts : facts definition.parent ⊆ m.granted L hidden :=
    fun _ hf => hdefinition (.inr (.inl (.inl (.inl hf))))
  rw [hparent] at hfacts
  exact ⟨hidden, hm, Set.union_subset (Set.union_subset hfacts fun _ hf => hq (.inl (.inr hf)))
    fun _ hf => hq (.inr hf)⟩

/-- In the constructor of a base class the receiver stays the new instance. -/
theorem Engine.base_receiver {suites : Prop}
    (hfits : (Query.construct id args newTarget).Fits (.lax suites) m)
    (hclass : (m.heap.get id).callable? = some (.class definition))
    (hprototype : (ofFuel k).getOf newTarget "prototype" (m.entering definition.frame args) =
      .ok (.object prototype) m₁)
    (hfields : (ofFuel k).initializeFields definition ⟨m₁.heap.size⟩
      ((m₁.withInstance prototype).withReceiver ⟨m.frames.size⟩ (.object ⟨m₁.heap.size⟩)) =
        .ok () m₂)
    {result : Value}
    (hbody : (ofFuel k).runFunction node ⟨m.frames.size⟩ args m₂ = .ok result m') :
    m.heap.size ≤ m₁.heap.size ∧
      (m'.frames.get ⟨m.frames.size⟩).this = some (.bound (.object ⟨m₁.heap.size⟩)) := by
  have hbehaves := behaves_ofFuel (Law.records_lax suites)
  obtain ⟨K, hmeets, hdefinition, hargs, htarget⟩ := exists_knowledge_of_class hfits hclass
  let frame : FrameId := ⟨m.frames.size⟩
  let instanceId : ObjectId := ⟨m₁.heap.size⟩
  obtain ⟨hstep, hentered⟩ := hmeets.entering definition.frame args nofun
  have hget : (Law.lax suites).Conducts (K.inFrame frame)
      ((ofFuel k).getOf newTarget "prototype") := inferInstance
  have hallocate : (Law.lax suites).Conducts (K.inFrame frame)
      ((ofFuel k).allocateInstance newTarget) := inferInstance
  obtain ⟨hstep₀, -⟩ := hget.step_of_ok hentered hprototype
  obtain ⟨hstep₁, hm₁⟩ := hallocate.step_of_ok hentered (allocateInstance_of_getOf hprototype)
  have hlt : frame.index < (m.entering definition.frame args).frames.size := by
    simp [Machine.entering, frame]
  have hpersists₀ := hstep₀.grows.persists hlt
  rw [Machine.entering, Frames.get_add_self] at hpersists₀
  have hhome : (m₁.frames.get frame).home ≠ none := by
    rw [hpersists₀.home]
    nofun
  let K' := (K.inFrame frame).and instanceId
  have hnew : (Law.lax suites).Step K'.hidden (Law.lax suites).suites m
      (m₁.withInstance prototype) := hstep.trans hstep₁
  have hm₂ : ((m₁.withInstance prototype).withReceiver frame (.object instanceId)).Meets
      (.lax suites) K' := (hnew.bindReceiver hm₁ frame (Nat.le_refl _) hhome (.object instanceId)).2
  have hinitialize : (Law.lax suites).Conducts K'
      ((ofFuel k).initializeFields definition instanceId) := inferInstance
  have hrun : (Law.lax suites).Conducts (K'.and (Framed.mk (some frame) node))
      ((ofFuel k).runFunction node frame args) := inferInstance
  obtain ⟨hstep₃, -⟩ := hinitialize.step_of_ok hm₂ hfields
  have hm₃ : m₂.Meets (.lax suites) (K'.and (Framed.mk (some frame) node)) :=
    (hm₂.step hstep₃).withCode _
  obtain ⟨hstep₄, -⟩ := hrun.step_of_ok hm₃ hbody
  -- From then on it keeps it, as it is not the frame of a derived class.
  have hlt₁ : frame.index < m₁.frames.size := hlt.trans_le hstep₀.grows.frames.size_le
  have hcall : (m₁.frames.get frame).superCall = none := by
    rw [hpersists₀.superCall]
    rfl
  have hbound : (m₁.frames.modify frame
      ({ · with this := some (.bound (.object instanceId)) })).get frame = _ :=
    Frames.get_modify_self _ hlt₁ _
  have hlt₂ : frame.index < (m₁.frames.modify frame
      ({ · with this := some (.bound (.object instanceId)) })).size :=
    hlt₁.trans_eq (Frames.size_modify ..).symm
  have hpersists := (hstep₃.grows.trans hstep₄.grows).persists hlt₂
  refine ⟨hstep.grows.size_le.trans hstep₀.grows.size_le, ?_⟩
  rw [hpersists.this_eq ((congrArg Frame.superCall hbound).trans hcall)]
  exact congrArg Frame.this hbound

/-- A call of the parent constructor asks for a construction that fits, with the target that the
constructor around it has. -/
theorem Engine.fits_super {suites : Prop}
    (hfits : (Query.construct id args newTarget).Fits (.lax suites) m)
    (hclass : (m.heap.get id).callable? = some (.class definition))
    (hparent : definition.parent = some parent) {name : String} {scope : FrameId}
    {operands : List Expression}
    (hpart : PartOf (·.runFunction node ⟨m.frames.size⟩ args) k
      (m.entering (definition.derivedFrame newTarget) args) (j + 1)
      (.evaluate name scope (.call .super operands)) m₁)
    (hargs : (ofFuel j).evaluateArguments scope operands m₁ = .ok values m₂) :
    (Query.construct parent values newTarget).Fits (.lax suites) m₂ ∧
      m.heap.size ≤ m₂.heap.size ∧
      (m₂.frames.get ⟨m.frames.size⟩).superCall = some { definition, newTarget } := by
  have hbehaves := behaves_ofFuel (Law.records_lax suites)
  obtain ⟨K, hmeets, hdefinition, hshown, htarget⟩ := exists_knowledge_of_class hfits hclass
  obtain ⟨hstep, hentered⟩ :=
    hmeets.entering (definition.derivedFrame newTarget) args nofun
  have hends (engine : Engine) [engine.Behaves (.lax suites)] [engine.Quiet] :=
    Law.Conducts.ends (a := engine.runFunction node ⟨m.frames.size⟩ args)
      (K := (K.inFrame ⟨m.frames.size⟩).and (Framed.mk (some ⟨m.frames.size⟩) node)) inferInstance
      (hentered.withCode _)
  obtain ⟨hidden, hm₁, hq₁⟩ :=
    hpart.fits (Law.isLax_lax suites) hentered.sound hends fun _ => Alike.ends _
  have hgrows := hpart.grows hentered.sound hends fun _ => Alike.ends _
  have : Shown (m₁.knowledge (.lax suites) hidden) scope := ⟨fun _ hf => hq₁ (.inl hf)⟩
  have : Shown (m₁.knowledge (.lax suites) hidden) (Framed.mk (some scope) operands) :=
    ⟨Machine.code_subset_of_not_lexical (fun h => h) _⟩
  have hevaluate : (Law.lax suites).Conducts (m₁.knowledge (.lax suites) hidden)
      ((ofFuel j).evaluateArguments scope operands) := inferInstance
  obtain ⟨hstep₂, hm₂⟩ := hevaluate.step_of_ok hm₁.meets hargs
  -- The frame stays that of the constructor, so it has the target that it was made with.
  have hlt : (FrameId.mk m.frames.size).index <
      (m.entering (definition.derivedFrame newTarget) args).frames.size := by
    simp [Machine.entering]
  have hcall : (m₂.frames.get ⟨m.frames.size⟩).superCall = some { definition, newTarget } := by
    rw [((hgrows.trans hstep₂.grows).persists hlt).superCall, Machine.entering,
      Frames.get_add_self]
    rfl
  have hfacts : facts (SuperCall.mk definition newTarget) ⊆ m₂.granted (.lax suites) hidden := by
    have hframe : facts (m₂.frames.get ⟨m.frames.size⟩).superCall ⊆
        m₂.granted (.lax suites) hidden :=
      fun _ hf => hm₂.sound.frames ⟨m.frames.size⟩ (.inl (.inr hf))
    rwa [hcall] at hframe
  have hparentFacts : facts definition.parent ⊆ m₂.granted (.lax suites) hidden :=
    fun _ hf => hfacts (.inl (.inl (.inl (.inl hf))))
  rw [hparent] at hparentFacts
  refine ⟨⟨hidden, hm₂.sound, ?_⟩, ?_, hcall⟩
  · exact Set.union_subset (Set.union_subset hparentFacts (Set.subset_union_right.trans hm₂.known))
      fun _ hf => hfacts (.inr hf)
  · exact (hstep.grows.size_le.trans hgrows.size_le).trans hstep₂.grows.size_le

end Sound

end EcmaEval
