import EcmaEval.Proofs.Construction.Constructor

/-!
# Construction along a chain of classes

Where each class of a chain extends the one before it, the base class makes the instance, and each
class gives it its fields as soon as the construction comes back from its parent.  A class hands the
construction on by itself, or its constructor does by a call of the parent constructor.  Both ways
take the target of `new` along, and so the prototype of the instance is that of the last class.

The fields stand in the instance as they were written only where the classes work together.  A
constructor may return another object, and an initializer may take away what is there already.

## Main definitions

* `Cooperates`: the classes of a chain construct one instance together
* `Completes`: a class gives an instance its fields, around its constructor
* `Builds`: the classes of a chain do so one after the other

## Main results

* `Cooperates.builds`: classes that cooperate build one instance, the base class first
* `Machine.Asked.constructs_along_chain`: the same for all that a session asks for, and the keys,
  the values and the prototype of the instance
* `Machine.constructs_otherwise`: what happens to classes that do not cooperate
-/

namespace EcmaEval

open EcmaEval.Action Engine Discipline

/-! ## Chains of classes -/

/-- The classes of a chain, the base class first, construct one instance together: the engine of `k`
is asked to construct an object by the class `id`, the last of them.  Their initializers come to
their ends and leave the instance as it is, and so do their constructors, which return no object.
In the constructor of a derived class a call of the parent constructor comes back, and what it gives
stays the receiver. -/
inductive Cooperates (newTarget prototype : ObjectId) :
    (k : Nat) → (id : ObjectId) → List Value → Machine → List ClassDefinition → Prop where
  /-- A base class without a constructor of its own. -/
  | base {k : Nat} {id : ObjectId} {args : List Value} {m m₁ : Machine}
    {definition : ClassDefinition} (hclass : (m.heap.get id).callable? = some (.class definition))
    (hparent : definition.parent = none) (hnone : definition.constructor? = none)
    (hprototype : (ofFuel k).getOf newTarget "prototype" m = .ok (.object prototype) m₁)
    (hfields : (ofFuel k).Initializes definition ⟨m₁.heap.size⟩ definition.fields
      (m₁.withInstance prototype)) :
    Cooperates newTarget prototype (k + 1) id args m [definition]
  /-- A base class with a constructor.  The fields are there when it runs. -/
  | baseBody {k : Nat} {id : ObjectId} {args : List Value} {m m₁ : Machine}
    {definition : ClassDefinition} {node : FunctionNode}
    (hclass : (m.heap.get id).callable? = some (.class definition))
    (hparent : definition.parent = none) (hnode : definition.constructor? = some node)
    (hprototype : (ofFuel k).getOf newTarget "prototype" (m.entering definition.frame args) =
      .ok (.object prototype) m₁)
    (hfields : (ofFuel k).Initializes definition ⟨m₁.heap.size⟩ definition.fields
      ((m₁.withInstance prototype).withReceiver ⟨m.frames.size⟩ (.object ⟨m₁.heap.size⟩)))
    (hbody : ∀ m₂, (ofFuel k).constructorFrame definition args newTarget m =
        .ok ⟨m.frames.size⟩ m₂ →
      ∃ result m', (ofFuel k).runFunction node ⟨m.frames.size⟩ args m₂ = .ok result m' ∧
        result.isObject = false ∧ m'.heap.get ⟨m₁.heap.size⟩ = m₂.heap.get ⟨m₁.heap.size⟩) :
    Cooperates newTarget prototype (k + 1) id args m [definition]
  /-- A derived class without a constructor of its own hands its arguments on. -/
  | derived {k : Nat} {id parent : ObjectId} {args : List Value} {m : Machine}
    {definition : ClassDefinition} {chain : List ClassDefinition}
    (hclass : (m.heap.get id).callable? = some (.class definition))
    (hparent : definition.parent = some parent) (hnone : definition.constructor? = none)
    (h : Cooperates newTarget prototype k parent args m chain)
    (hfields : ∀ instanceId m₁,
      (ofFuel k).construct parent args newTarget m = .ok (.object instanceId) m₁ →
      (ofFuel k).Initializes definition instanceId definition.fields m₁) :
    Cooperates newTarget prototype (k + 1) id args m (chain ++ [definition])
  /-- A derived class with a constructor, which calls that of the parent. -/
  | derivedBody {k j : Nat} {id parent : ObjectId} {args values : List Value}
    {m m₁ m₂ m' : Machine} {definition : ClassDefinition} {node : FunctionNode}
    {chain : List ClassDefinition} {name : String} {scope : FrameId} {operands : List Expression}
    {result : Value}
    (hclass : (m.heap.get id).callable? = some (.class definition))
    (hparent : definition.parent = some parent) (hnode : definition.constructor? = some node)
    (hbody : (ofFuel k).runFunction node ⟨m.frames.size⟩ args
      (m.entering (definition.derivedFrame newTarget) args) = .ok result m')
    (hresult : result.isObject = false)
    (hpart : PartOf (·.runFunction node ⟨m.frames.size⟩ args) k
      (m.entering (definition.derivedFrame newTarget) args) (j + 1)
      (.evaluate name scope (.call .super operands)) m₁)
    (hframe : m₁.frames.find? scope (·.superCall.isSome) = some ⟨m.frames.size⟩)
    (hargs : (ofFuel j).evaluateArguments scope operands m₁ = .ok values m₂)
    (hfirst : ∀ v, (m₂.frames.get ⟨m.frames.size⟩).this ≠ some (.bound v))
    (h : Cooperates newTarget prototype j parent values m₂ chain)
    (hfields : ∀ instanceId m₃,
      (ofFuel j).construct parent values newTarget m₂ = .ok (.object instanceId) m₃ →
      (ofFuel j).Initializes definition instanceId definition.fields
        (m₃.withReceiver ⟨m.frames.size⟩ (.object instanceId)))
    (hkeeps : ∀ instanceId m₃, (ofFuel (j + 1)).evaluateAs name scope (.call .super operands) m₁ =
        .ok (.object instanceId) m₃ →
      (m'.frames.get ⟨m.frames.size⟩).this = some (.bound (.object instanceId)) ∧
        m'.heap.get instanceId = m₃.heap.get instanceId) :
    Cooperates newTarget prototype (k + 1) id args m (chain ++ [definition])

/-- A class gives an instance its fields, each once and in order, and nothing else happens but that
its constructor runs: in a base class behind the fields; in a derived class around the call of the
parent constructor, which binds the receiver and fills the fields before it comes back.  What is
left of the constructor leaves the instance as it is. -/
inductive Completes (instanceId : ObjectId) (definition : ClassDefinition) :
    Machine → List (String × Value) → Machine → Prop where
  | implicit {k : Nat} {m m' : Machine} {written : List (String × Value)}
    (hnone : definition.constructor? = none)
    (hfills : (ofFuel k).Fills definition instanceId definition.fields m written m') :
    Completes instanceId definition m written m'
  | base {k : Nat} {m m₁ m' : Machine} {written : List (String × Value)} {node : FunctionNode}
    {frame : FrameId} {args : List Value} {result : Value}
    (hnode : definition.constructor? = some node) (hparent : definition.parent = none)
    (hfills : (ofFuel k).Fills definition instanceId definition.fields
      (m.withReceiver frame (.object instanceId)) written m₁)
    (hbody : (ofFuel k).runFunction node frame args m₁ = .ok result m')
    (hkeeps : m'.heap.get instanceId = m₁.heap.get instanceId) :
    Completes instanceId definition m written m'
  | derived {k j : Nat} {m m₁ m' n n' : Machine} {written : List (String × Value)}
    {node : FunctionNode} {frame scope : FrameId} {args : List Value} {name : String}
    {operands : List Expression} {result : Value}
    (hnode : definition.constructor? = some node)
    (hbody : (ofFuel k).runFunction node frame args n = .ok result m')
    (hpart : PartOf (·.runFunction node frame args) k n (j + 1)
      (.evaluate name scope (.call .super operands)) n')
    (hfills : (ofFuel j).Fills definition instanceId definition.fields
      (m.withReceiver frame (.object instanceId)) written m₁)
    (hsuper : (ofFuel (j + 1)).evaluateAs name scope (.call .super operands) n' =
      .ok (.object instanceId) m₁)
    (hkeeps : m'.heap.get instanceId = m₁.heap.get instanceId) :
    Completes instanceId definition m written m'

/-- The classes of a chain give an instance their fields, one class after the other. -/
inductive Builds (instanceId : ObjectId) :
    List ClassDefinition → Machine → List (String × Value) → Machine → Prop where
  | nil (m : Machine) : Builds instanceId [] m [] m
  | snoc {chain : List ClassDefinition} {definition : ClassDefinition} {m m₁ m' : Machine}
    {written written' : List (String × Value)} (h : Builds instanceId chain m written m₁)
    (hlast : Completes instanceId definition m₁ written' m') :
    Builds instanceId (chain ++ [definition]) m (written ++ written') m'

theorem Completes.keys {instanceId : ObjectId} {definition : ClassDefinition} {m m' : Machine}
    {written : List (String × Value)} (h : Completes instanceId definition m written m') :
    written.map Prod.fst = definition.fields.map FieldDefinition.key := by
  cases h with
  | implicit _ hfills => exact hfills.keys
  | base _ _ hfills _ _ => exact hfills.keys
  | derived _ _ _ hfills _ _ => exact hfills.keys

theorem Builds.keys {instanceId : ObjectId} {chain : List ClassDefinition} {m m' : Machine}
    {written : List (String × Value)} (h : Builds instanceId chain m written m') :
    written.map Prod.fst = chain.flatMap (·.fields.map FieldDefinition.key) := by
  induction h with
  | nil => rfl
  | snoc _ hlast ih => rw [List.map_append, ih, hlast.keys, List.flatMap_append,
      List.flatMap_singleton]

/-! ## Classes that cooperate -/

variable {newTarget prototype : ObjectId} {k : Nat} {id : ObjectId} {args : List Value}
  {m : Machine} {chain : List ClassDefinition} {suites : Prop}

/-- Classes that cooperate build one instance, the base class first. -/
theorem Cooperates.builds (h : Cooperates newTarget prototype k id args m chain)
    (hfits : (Query.construct id args newTarget).Fits (.lax suites) m) :
    ∃ (m₀ m' : Machine) (written : List (String × Value)),
      (ofFuel k).construct id args newTarget m = .ok (.object ⟨m₀.heap.size⟩) m' ∧
      m.heap.size ≤ m₀.heap.size ∧
      ((∀ definition ∈ chain, definition.constructor? = none) →
        ∃ j, (ofFuel j).getOf newTarget "prototype" m = .ok (.object prototype) m₀) ∧
      Builds ⟨m₀.heap.size⟩ chain (m₀.withInstance prototype) written m' ∧
      m'.heap.get ⟨m₀.heap.size⟩ = (Object.new (some prototype) .ordinary).withPlain written := by
  have hnew (m₀ : Machine) : (m₀.withInstance prototype).heap.get ⟨m₀.heap.size⟩ =
      .new (some prototype) .ordinary := Heap.get_allocate_self _ _
  induction h with
  | @base k id args m m₁ definition hclass hparent hnone hprototype hfields =>
    obtain ⟨written, m', hfills, hobject⟩ := hfields.exists_fills (p := prototype)
      (by rw [hnew]; rfl) (by rw [hnew]; rfl)
    refine ⟨m₁, m', written, ?_, size_le_of_getOf hfits hprototype, fun _ => ⟨k, hprototype⟩,
      .snoc (.nil _) (.implicit hnone hfills), by rw [hobject, hnew]⟩
    rw [construct_of_class hclass, constructInstance_of_none hnone,
      constructByDefault_of_base hparent hprototype, hfills.initializeFields_bind]
  | @baseBody k id args m m₁ definition node hclass hparent hnode hprototype hfields hbody =>
    obtain ⟨written, m₂, hfills, hobject⟩ := hfields.exists_fills (p := prototype)
      (by exact congrArg Object.prototype (hnew m₁)) (by exact congrArg Object.isArray (hnew m₁))
    have hframe : (ofFuel k).constructorFrame definition args newTarget m =
        .ok ⟨m.frames.size⟩ m₂ := by
      rw [constructorFrame_of_base hparent hprototype, hfills.initializeFields_bind]
    obtain ⟨result, m', hrun, hresult, hsame⟩ := hbody m₂ hframe
    obtain ⟨hsize, hthis⟩ := base_receiver hfits hclass hprototype hfills.initializeFields hrun
    refine ⟨m₁, m', written, ?_, hsize, fun hall => ?_,
      .snoc (.nil _) (.base hnode hparent hfills hrun hsame), ?_⟩
    · rw [construct_of_class hclass, constructInstance_of_body hnode hframe hrun hresult hthis]
    · cases hnode.symm.trans (hall definition List.mem_cons_self)
    · rw [hsame, hobject]
      exact congrArg (Object.withPlain · written) (hnew m₁)
  | @derived k id parent args m definition chain hclass hparent hnone h hfields ih =>
    obtain ⟨m₀, m₁, written, hconstruct, hsize, hstart, hbuilds, hobject⟩ :=
      ih (fits_parent hfits hclass hparent)
    obtain ⟨written', m', hfills, hobject'⟩ := (hfields _ _ hconstruct).exists_fills
      (p := prototype) (by rw [hobject, Object.prototype_withPlain rfl]; rfl)
      (by rw [hobject, Object.isArray_withPlain rfl])
    refine ⟨m₀, m', written ++ written', ?_, hsize,
      fun hall => hstart fun d hd => hall d (List.mem_append_left _ hd),
      .snoc hbuilds (.implicit hnone hfills), ?_⟩
    · rw [construct_of_class hclass, constructInstance_of_none hnone,
        constructByDefault_of_derived hparent hconstruct, hfills.initializeFields_bind]
    · rw [hobject', hobject, Object.withPlain_append]
  | @derivedBody k j id parent args values m m₁ m₂ m' definition node chain name scope operands
      result hclass hparent hnode hbody hresult hpart hframe hargs hfirst h hfields hkeeps ih =>
    obtain ⟨hfits', hsize, hcall⟩ := fits_super hfits hclass hparent hpart hargs
    obtain ⟨m₀, m₃, written, hconstruct, hsize', -, hbuilds, hobject⟩ := ih hfits'
    obtain ⟨written', m₄, hfills, hobject'⟩ := (hfields _ _ hconstruct).exists_fills
      (p := prototype)
      ((congrArg Object.prototype hobject).trans (Object.prototype_withPlain rfl _))
      ((congrArg Object.isArray hobject).trans (Object.isArray_withPlain rfl _))
    have hsuper : (ofFuel (j + 1)).evaluateAs name scope (.call .super operands) m₁ =
        .ok (.object ⟨m₀.heap.size⟩) m₄ := by
      change (ofFuel j).callSuper scope ((ofFuel j).evaluateArguments scope operands) m₁ = _
      rw [callSuper_of_unbound hframe hargs hfirst hcall hparent hconstruct,
        hfills.initializeFields_bind]
    obtain ⟨hthis, hsame⟩ := hkeeps _ _ hsuper
    refine ⟨m₀, m', written ++ written', ?_, hsize.trans hsize', fun hall => ?_,
      .snoc hbuilds (.derived hnode hbody hpart hfills hsuper hsame), ?_⟩
    · rw [construct_of_class hclass, constructInstance_of_body hnode
        (constructorFrame_of_derived (by rw [hparent]; rfl)) hbody hresult hthis]
    · cases hnode.symm.trans (hall definition List.mem_concat_self)
    · rw [hsame, hobject', Object.withPlain_append]
      exact congrArg (Object.withPlain · written') hobject

/-- The classes of a chain construct. -/
theorem Cooperates.isConstructor (h : Cooperates newTarget prototype k id args m chain) :
    m.heap.isConstructor (.object id) = true := by
  have hconstructs {definition : ClassDefinition}
      (hclass : (m.heap.get id).callable? = some (.class definition)) :
      m.heap.isConstructor (.object id) = true := by
    obtain ⟨fuel, hfuel⟩ :=
      Nat.exists_eq_succ_of_ne_zero (Nat.ne_zero_of_lt (Heap.lt_of_callable hclass))
    rw [Heap.isConstructor, Heap.constructs, hfuel, Heap.constructsWithin, hclass]
  cases h with
  | base hclass => exact hconstructs hclass
  | baseBody hclass => exact hconstructs hclass
  | derived hclass => exact hconstructs hclass
  | derivedBody hclass => exact hconstructs hclass

/-! ## Plain fields -/

/-- A field that has no initializer, or that is null at first. -/
def FieldDefinition.isPlain (field : FieldDefinition) : Bool :=
  field.initializer matches none | some (.literal .null)

/-- Plain fields leave everything but the frames as it is. -/
theorem Engine.initializes_of_isPlain {definition : ClassDefinition} {instanceId : ObjectId}
    {fields : List FieldDefinition} (hplain : fields.all FieldDefinition.isPlain = true)
    (m : Machine) : (ofFuel (k + 1)).Initializes definition instanceId fields m := by
  induction fields generalizing m with
  | nil => trivial
  | cons field rest ih =>
    obtain ⟨hfield, hrest⟩ := Bool.and_eq_true_iff.mp hplain
    obtain ⟨key, initializer⟩ := field
    unfold FieldDefinition.isPlain at hfield
    dsimp only at hfield
    split at hfield
    · exact ⟨_, _, rfl, rfl, ih hrest _⟩
    · exact ⟨_, _, rfl, rfl, ih hrest _⟩
    · cases hfield

/-- A constructor that takes no parameters, and only calls that of the parent. -/
def FunctionNode.onlyCallsSuper : FunctionNode → Bool
  | ⟨_, [], .block [.expression (.call .super [])], _, false, _⟩ => true
  | _ => false

theorem FunctionNode.eq_of_onlyCallsSuper {node : FunctionNode} (h : node.onlyCallsSuper = true) :
    node.params = [] ∧ node.body = .block [.expression (.call .super [])] ∧
      node.isAsync = false := by
  unfold onlyCallsSuper at h
  split at h
  · exact ⟨rfl, rfl, rfl⟩
  · cases h

namespace Engine

/-- The statement of an expression asks for it. -/
theorem asks_expression (engine : Engine) (scope : FrameId) (e : Expression) (m : Machine) :
    engine.Asks (·.phrase (.execute scope (.expression e))) m (.evaluate "" scope e) m := by
  refine asks_of_halts fun h => ?_
  simp [phrase, executeStatement, Engine.evaluate, Engine.haltingAt, Action.haltingAt]

/-- A `new` expression without arguments asks for the construction. -/
theorem asks_new {name : String} {scope : FrameId} {callee : Expression} {m m' : Machine}
    {engine : Engine} (hcallee : engine.evaluate scope callee m = .ok (.object id) m')
    (hid : m'.heap.isConstructor (.object id) = true) :
    engine.Asks (·.phrase (.evaluate name scope (.new callee []))) m (.construct id [] id) m' := by
  refine asks_of_halts fun h => ?_
  unfold Engine.evaluate at hcallee
  simp [phrase, evaluateExpression, evaluateNew, Engine.evaluate, evaluateArguments, evaluateList,
    bind_apply, Engine.haltingAt, Action.haltingAt, hcallee, Action.readHeap, hid]

/-- The run of such a constructor fails where the call does, and else it ends there, if nothing is
asked for then. -/
theorem runFunction_of_onlyCallsSuper {engine : Engine} {node : FunctionNode} {frame : FrameId}
    {m m' : Machine} (h : node.onlyCallsSuper = true) :
    (∀ e, engine.execute frame (.expression (.call .super [])) m = .error e m' →
      engine.runFunction node frame [] m = .error e m') ∧
    ∀ v, engine.execute frame (.expression (.call .super [])) m = .ok v m' → m'.signal = none →
      engine.runFunction node frame [] m = .ok .undefined m' := by
  obtain ⟨hparams, hbody, hasync⟩ := FunctionNode.eq_of_onlyCallsSuper h
  have hpure {α : Type} (x : α) (m : Machine) : (pure x : Action α) m = .ok x m := rfl
  have hrun : engine.runFunction node frame [] m =
      engine.runBody node frame [] m := by rw [runFunction, hasync]; rfl
  rw [hrun]
  refine ⟨fun e hexecute => ?_, fun v hexecute hsignal => ?_⟩
  · simp [hpure, runBody, hparams, hbody, bindParameters, executeBody, Action.hoist,
      Action.hoistFunctions, variableNamesOfList, Statement.variableNames, executeList,
      executeFrom, bind_apply, hexecute]
  · have hsame : { m' with signal := none } = m' := by rw [← hsignal]
    simp [hpure, runBody, hparams, hbody, bindParameters, executeBody, Action.hoist,
      Action.hoistFunctions, variableNamesOfList, Statement.variableNames, executeList,
      executeFrom, bind_apply, hexecute, isSignaled, takeSignal, hsignal, hsame]

/-- It asks for the call. -/
theorem asks_onlyCallsSuper (engine : Engine) {node : FunctionNode} (frame : FrameId) (m : Machine)
    (h : node.onlyCallsSuper = true) :
    engine.Asks (·.runFunction node frame []) m
      (.execute frame (.expression (.call .super []))) m := by
  refine asks_of_halts fun halt => (runFunction_of_onlyCallsSuper h).1 _ ?_
  simp [Engine.haltingAt, Action.haltingAt]

/-- In the constructor of a derived class the frame of the receiver is its own. -/
theorem find?_entering {definition : ClassDefinition} :
    (m.entering (definition.derivedFrame newTarget) args).frames.find? ⟨m.frames.size⟩
      (·.superCall.isSome) = some ⟨m.frames.size⟩ := by
  have hsize : (m.entering (definition.derivedFrame newTarget) args).frames.size =
      m.frames.size + 1 := by simp [Machine.entering]
  rw [Frames.find?, hsize, Frames.findWithin, Machine.entering, Frames.get_add_self]
  rfl

end Engine

variable {parent instanceId : ObjectId} {definition base : ClassDefinition} {node : FunctionNode}
  {m₁ m' : Machine}

/-- A class with a constructor that only calls that of a class without one. -/
theorem Cooperates.of_onlyCallsSuper
    (hclass : (m.heap.get id).callable? = some (.class definition))
    (hparent : definition.parent = some parent) (hnode : definition.constructor? = some node)
    (hcalls : node.onlyCallsSuper = true)
    (hplain : definition.fields.all FieldDefinition.isPlain = true)
    (hbase : (m.heap.get parent).callable? = some (.class base)) (hroot : base.parent = none)
    (hnone : base.constructor? = none) (hplain' : base.fields.all FieldDefinition.isPlain = true)
    (hprototype : (ofFuel (k + 1)).getOf newTarget "prototype"
      (m.entering (definition.derivedFrame newTarget) []) = .ok (.object prototype) m₁)
    (hsuper : (ofFuel (k + 3)).evaluateAs "" ⟨m.frames.size⟩ (.call .super [])
      (m.entering (definition.derivedFrame newTarget) []) = .ok (.object instanceId) m')
    (hsignal : m'.signal = none)
    (hthis : (m'.frames.get ⟨m.frames.size⟩).this = some (.bound (.object instanceId))) :
    Cooperates newTarget prototype (k + 5) id [] m [base, definition] := by
  have hbase' : ((m.entering (definition.derivedFrame newTarget) []).heap.get parent).callable? =
      some (.class base) := by
    rw [← hbase, Machine.entering, Heap.get_allocate_of_lt _ _ (Heap.lt_of_callable hbase)]
  have hargs : (ofFuel (k + 2)).evaluateArguments ⟨m.frames.size⟩ []
      (m.entering (definition.derivedFrame newTarget) []) = .ok [] _ := rfl
  have hexecute : (ofFuel (k + 4)).execute ⟨m.frames.size⟩ (.expression (.call .super []))
      (m.entering (definition.derivedFrame newTarget) []) = .ok (.object instanceId) m' := hsuper
  refine .derivedBody hclass hparent hnode
    ((runFunction_of_onlyCallsSuper hcalls).2 _ hexecute hsignal) rfl
    (.nested (.direct (asks_onlyCallsSuper _ _ _ hcalls)) (fun h => h) (asks_expression _ _ _ _))
    find?_entering hargs (fun v hv => ?_)
    (.base hbase' hroot hnone hprototype (initializes_of_isPlain hplain' _))
    (fun _ _ _ => initializes_of_isPlain hplain _) fun instanceId' m₃ hevaluate => ?_
  · rw [Machine.entering, Frames.get_add_self] at hv
    cases hv
  · cases hsuper.symm.trans hevaluate
    exact ⟨hthis, rfl⟩

namespace Machine

/-- What the constructor of a derived class asks for comes to its end from a machine. -/
def callsSuperFrom (m : Machine) (k : Nat) (frame : FrameId) (newTarget : ObjectId) : Bool :=
  ((ofFuel (k + 1)).getOf newTarget "prototype" m matches .ok (.object _) _) &&
    match (ofFuel (k + 3)).evaluateAs "" frame (.call .super []) m with
    | .ok (.object instanceId) m' => m'.signal.isNone &&
      match (m'.frames.get frame).this with
      | some (.bound (.object id)) => decide (id = instanceId)
      | _ => false
    | _ => false

/-- The object is a class with a constructor that only calls that of a class without one, their
fields are plain and have the given keys, and what is asked for comes to its end. -/
def callsSuperPlainly (m : Machine) (k : Nat) (id : ObjectId) (keys : List String) : Bool :=
  match (m.heap.get id).callable? with
  | some (.class definition) =>
    match definition.parent, definition.constructor? with
    | some parent, some node =>
      match (m.heap.get parent).callable? with
      | some (.class base) =>
        node.onlyCallsSuper && definition.fields.all FieldDefinition.isPlain &&
          base.parent.isNone && base.constructor?.isNone &&
          base.fields.all FieldDefinition.isPlain &&
          decide ((base.fields ++ definition.fields).map FieldDefinition.key = keys) &&
          (m.entering (definition.derivedFrame id) []).callsSuperFrom k ⟨m.frames.size⟩ id
      | _ => false
    | _, _ => false
  | _ => false

theorem exists_of_callsSuperFrom {frame : FrameId} (h : m.callsSuperFrom k frame newTarget = true) :
    ∃ prototype m₁ instanceId m',
      (ofFuel (k + 1)).getOf newTarget "prototype" m = .ok (.object prototype) m₁ ∧
      (ofFuel (k + 3)).evaluateAs "" frame (.call .super []) m = .ok (.object instanceId) m' ∧
      m'.signal = none ∧ (m'.frames.get frame).this = some (.bound (.object instanceId)) := by
  obtain ⟨hprototype, hsuper⟩ := Bool.and_eq_true_iff.mp h
  split at hprototype
  · next prototype m₁ hget =>
    split at hsuper
    · next instanceId m' hevaluate =>
      obtain ⟨hsignal, hthis⟩ := Bool.and_eq_true_iff.mp hsuper
      split at hthis
      · next id hthis' =>
        refine ⟨prototype, m₁, instanceId, m', hget, hevaluate, by simpa using hsignal, ?_⟩
        rw [hthis', of_decide_eq_true hthis]
      · cases hthis
    · cases hsuper
  · cases hprototype

theorem exists_of_callsSuperPlainly {keys : List String}
    (h : m.callsSuperPlainly k id keys = true) : ∃ prototype base definition,
      Cooperates id prototype (k + 5) id [] m [base, definition] ∧
      [base, definition].flatMap (·.fields.map FieldDefinition.key) = keys := by
  unfold callsSuperPlainly at h
  split at h
  · next definition hclass =>
    split at h
    · next parent node hparent hnode =>
      split at h
      · next base hbase =>
        simp only [Bool.and_eq_true, decide_eq_true_eq, Option.isNone_iff_eq_none] at h
        obtain ⟨⟨⟨⟨⟨⟨hcalls, hplain⟩, hroot⟩, hnone⟩, hplain'⟩, hkeys⟩, hsuper⟩ := h
        obtain ⟨prototype, m₁, instanceId, m', hprototype, hevaluate, hsignal, hthis⟩ :=
          exists_of_callsSuperFrom hsuper
        exact ⟨prototype, base, definition, .of_onlyCallsSuper hclass hparent hnode hcalls hplain
          hbase hroot hnone hplain' hprototype hevaluate hsignal hthis, by simpa using hkeys⟩
      · cases h
    · cases h
  · cases h

/-- The expression `class extends class { x; y } { x = null; constructor() { super() } }`. -/
def derivedClass : Expression := .class {
  name := none
  heritage := some (.class {
    name := none
    heritage := none
    body := [.field false (.identifier "x") none, .field false (.identifier "y") none] })
  body := [
    .field false (.identifier "x") (some (.literal .null)),
    .method .constructor false (.identifier "constructor") {
      name := none
      params := []
      body := .block [.expression (.call .super [])]
      isArrow := false
      isAsync := false
      isGenerator := false }] }

/-- At the start of a run the class is evaluated, and then an instance of it can be constructed. -/
def derivedClassChecks : Bool :=
  match (ofFuel (standardFuel - 2)).evaluate initial.realm.programFrame derivedClass initial with
  | .ok (.object id) m => m.callsSuperPlainly (standardFuel - 7) id ["x", "y", "x"]
  | _ => false

theorem exists_of_derivedClassChecks (h : derivedClassChecks = true) :
    ∃ id m prototype base definition,
    (ofFuel (standardFuel - 2)).evaluate initial.realm.programFrame derivedClass initial =
      .ok (.object id) m ∧
    Cooperates id prototype (standardFuel - 2) id [] m [base, definition] ∧
    [base, definition].flatMap (·.fields.map FieldDefinition.key) = ["x", "y", "x"] := by
  unfold derivedClassChecks at h
  split at h
  · next id m hevaluate =>
    obtain ⟨prototype, base, definition, hchain, hkeys⟩ := exists_of_callsSuperPlainly h
    exact ⟨id, m, prototype, base, definition, hevaluate, hchain, hkeys⟩
  · cases h

end Machine

/-! ## The instance of a chain -/

namespace Machine

variable {accepted : Program → Prop}

/-- **A chain of classes builds one instance, the base class first.**  The construction by the last
class of a chain, which is what a `new` expression asks for, gives an object that was not there
before.  From the machine on which it is made, without properties, the classes run one after the
other and nothing else does: each evaluates the initializers of its fields once, in order, with the
instance as the receiver, and writes what they give.  So the keys of the instance stand in the order
in which each came first, and each has the value that came last.  The prototype is what the key
`prototype` of the last class reads as when the instance is made; if no class has a constructor,
nothing but that reading comes before. -/
theorem Asked.constructs_along_chain (h : m.Asked suites accepted k (.construct id args id))
    (hchain : Cooperates id prototype k id args m chain) :
    ∃ (m₀ m' : Machine) (written : List (String × Value)),
      (ofFuel k).construct id args id m = .ok (.object ⟨m₀.heap.size⟩) m' ∧
      (∀ name scope callee operands n n',
        (ofFuel k).evaluate scope callee n = .ok (.object id) n' →
        (ofFuel k).evaluateArguments scope operands n' = .ok args m →
        (ofFuel (k + 1)).evaluateAs name scope (.new callee operands) n =
          .ok (.object ⟨m₀.heap.size⟩) m') ∧
      m.heap.size ≤ m₀.heap.size ∧
      ((∀ definition ∈ chain, definition.constructor? = none) →
        ∃ j, (ofFuel j).getOf id "prototype" m = .ok (.object prototype) m₀) ∧
      Builds ⟨m₀.heap.size⟩ chain (m₀.withInstance prototype) written m' ∧
      written.map Prod.fst = chain.flatMap (·.fields.map FieldDefinition.key) ∧
      (m'.heap.get ⟨m₀.heap.size⟩).properties.names = (written.map Prod.fst).eraseDups ∧
      (∀ key, (m'.heap.get ⟨m₀.heap.size⟩).properties.get? key =
        (written.reverse.lookup key).map .plain) ∧
      (m'.heap.get ⟨m₀.heap.size⟩).prototype = some prototype := by
  obtain ⟨m₀, m', written, hconstruct, hsize, hstart, hbuilds, hobject⟩ := hchain.builds h.fits
  refine ⟨m₀, m', written, hconstruct, fun name scope callee operands n n' hcallee hargs => ?_,
    hsize, hstart, hbuilds, hbuilds.keys, ?_, fun key => ?_, ?_⟩
  · change (ofFuel k).evaluateNew scope callee operands n = _
    unfold evaluateNew
    rw [bind_apply, hcallee]
    dsimp only
    rw [bind_apply, hargs]
    dsimp only
    rw [readHeap_bind, hchain.isConstructor]
    exact hconstruct
  · rw [hobject, Object.names_withPlain rfl rfl]
  · rw [hobject, Object.get?_withPlain rfl rfl]
  · rw [hobject, Object.prototype_withPlain rfl]
    rfl

/-- A program constructs an instance of the class.  The key that both classes have comes first. -/
theorem Asked.constructs_along_chain_derived : ∃ k id m prototype base definition,
    m.Asked False (fun _ => True) k (.construct id [] id) ∧
    Cooperates id prototype k id [] m [base, definition] ∧
    [base, definition].flatMap (·.fields.map FieldDefinition.key) = ["x", "y", "x"] ∧
    ∃ instanceId m', (ofFuel k).construct id [] id m = .ok (.object instanceId) m' ∧
      (m'.heap.get instanceId).properties.names = ["x", "y"] ∧
      (m'.heap.get instanceId).prototype = some prototype := by
  obtain ⟨id, m, prototype, base, definition, hevaluate, hchain, hkeys⟩ :=
    exists_of_derivedClassChecks (by decide +kernel)
  let e : Expression := .new derivedClass []
  have hhoist : Action.hoist initial.realm.programFrame [.expression e] initial =
      .ok () initial := rfl
  have hasked : m.Asked False (fun _ => True) (standardFuel - 2) (.construct id [] id) :=
    .program Hosted.initial trivial (.nested (.nested
      (.direct ((ofFuel standardFuel).asks_executeProgram (p := ⟨[.expression e]⟩) rfl hhoist))
      (fun h => h) (asks_expression _ _ _ _))
      (fun h => h) (asks_new hevaluate hchain.isConstructor))
  obtain ⟨m₀, m', written, hconstruct, -, -, -, -, hwritten, hnames, -, hprototype⟩ :=
    hasked.constructs_along_chain hchain
  refine ⟨_, id, m, prototype, base, definition, hasked, hchain, hkeys, _, m', hconstruct, ?_,
    hprototype⟩
  rw [hnames, hwritten, hkeys]
  rfl

/-! ## Chains that do not cooperate -/

/-- What a host shows of a run that ends with a value. -/
def shownResult (r : RunResult) : String :=
  match r.outcome with
  | .ok v => r.machine.heap.inspect v
  | .error _ => ""

/-- An object that a constructor returns takes the place of the instance, and a constructor that
throws gives none.  An initializer may remove or write what was there before it, and change the
prototype of the instance or of the class. -/
theorem constructs_otherwise :
    shownResult (initial.evaluate "class A { x = 1 }
      class B extends A { constructor() { super(); return [] } }
      class C extends B { y = 2 }
      Object.keys(new C())") = "[ \"y\" ]" ∧
    shownResult (initial.evaluate "class A { x = 1; y = delete this.x } Object.keys(new A())") =
      "[ \"y\" ]" ∧
    shownResult (initial.evaluate "class A { x = 1; y = (this.x = null) } new A().x") = "null" ∧
    shownResult (initial.evaluate "class A { x = Object.setPrototypeOf(this, null) }
      Object.getPrototypeOf(new A())") = "null" ∧
    shownResult (initial.evaluate "let key = 'prototype'
      class A { x = Object.defineProperty(A, key, { value: null }) }
      Object.getPrototypeOf(new A()) === A.prototype") = "false" ∧
    shownResult (initial.evaluate "class A {}
      class B extends A { constructor() { super(); throw null } }
      let r = 1; try { r = new B() } catch (e) { r = e } r") = "null" := by
  refine ⟨?_, ?_, ?_, ?_, ?_, ?_⟩ <;> decide +kernel

end Machine

end EcmaEval
