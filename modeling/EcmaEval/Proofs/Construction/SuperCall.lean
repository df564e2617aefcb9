import EcmaEval.Proofs.Conduct.Names
import EcmaEval.Proofs.Construction.Chain

/-!
# Calls of the parent constructor in a session

A call of the parent constructor looks outward for the frame of a constructor, and takes the first
one of a class that has a parent.  Nothing in the search tells whose code the call stands in.  But
code comes into a frame only with what is true of its calls there, and a program that is read holds
no call outside of constructors: so each call sees the receiver of an invocation of the constructor
that it stands in, through frames that have no receiver of their own.

If the class of this constructor has a parent, the search ends at its frame.  The class may extend
`null`, and then the frame is not one that is looked for: the call is that of whatever constructor is
around the class, and only where there is none it is refused.

## Main definitions

* `Law.scoped`: the law of runs in which calls of the parent constructor belong to constructors

## Main results

* `Engine.callSuper_of_none`: a call that finds no constructor
* `Machine.Asked.callsFrom`: in a session each call belongs to a constructor
* `Machine.Asked.super_of_constructor`: what the call does with it
-/

namespace EcmaEval

open EcmaEval.Action Engine Discipline

/-! ## Calls -/

namespace Engine

variable {engine : Engine} {scope : FrameId} {args : Action (List Value)} {m : Machine}

/-- A call that finds no constructor of a derived class is refused before its arguments are
evaluated. -/
theorem callSuper_of_none (hnone : m.frames.find? scope (·.superCall.isSome) = none) :
    engine.callSuper scope args m =
      .error (.thrown (.object ⟨m.heap.size⟩)) (m.afterFault .superOutsideConstructor) := by
  unfold callSuper
  rw [readFrames_bind, hnone]
  rfl

/-- Frames from which the same frame is found are alike for a call. -/
theorem callSuper_congr {outer : FrameId}
    (h : m.frames.find? scope (·.superCall.isSome) = m.frames.find? outer (·.superCall.isSome)) :
    engine.callSuper scope args m = engine.callSuper outer args m := by
  unfold callSuper
  rw [readFrames_bind, readFrames_bind, h]

end Engine

namespace Frames

variable {fs : Frames} {scope frame : FrameId} {args : List Expression}
  {definition : ClassDefinition} {newTarget : ObjectId}

/-- A frame in which the parent constructor may be called sees its own receiver. -/
theorem Sees.eq_of_superCall (h : fs.Sees scope frame)
    (hcall : (fs.get scope).superCall.isSome = true) : frame = scope := by
  cases h with
  | self => rfl
  | outward hopen =>
    rw [hopen.superCall] at hcall
    cases hcall

/-- If the class of the constructor has a parent, the frame of the constructor is found. -/
theorem CallsIn.find?_of_parent (h : fs.CallsIn scope args frame definition newTarget)
    (hn : fs.Nested) (hparent : definition.parent.isSome = true) :
    fs.find? scope (·.superCall.isSome) = some frame := by
  rw [h.sees.find?_eq hn, find?_self h.lt]
  rw [h.runs.superCall, if_pos hparent, Option.isSome_some]

/-- If it has none, what is found is what is found around the class. -/
theorem CallsIn.find?_of_root (h : fs.CallsIn scope args frame definition newTarget)
    (hn : fs.Nested) (hparent : definition.parent = none) :
    fs.find? scope (·.superCall.isSome) = fs.find? definition.scope (·.superCall.isSome) := by
  rw [h.sees.find?_eq hn, hn.find?_outward h.lt _ h.runs.parent]
  rw [h.runs.superCall, hparent]
  rfl

end Frames

/-! ## Sessions -/

/-- The law of runs in which calls of the parent constructor belong to constructors. -/
def Law.scoped (suites : Prop) : Law := { Law.lax suites with lexical := True }

theorem Law.isLax_scoped (suites : Prop) : (Law.scoped suites).IsLax :=
  ⟨fun _ _ => trivial, fun _ _ _ _ => trivial, fun _ _ _ _ => trivial⟩

/-- A program that is read has no calls outside of constructors. -/
theorem Program.IsRead.admits_scoped {p : Program} (h : p.IsRead) (suites : Prop) :
    (Law.scoped suites).Admits p := by
  obtain ⟨options, source, hread⟩ := h
  exact fun _ => (Program.read_of_ofText hread).facts_code none

namespace Machine

variable {suites : Prop} {m m' : Machine} {q : Query} {k : Nat} {name : String} {scope : FrameId}
  {args : List Expression}

/-- What a session asks for fits under this law. -/
theorem Asked.fits_scoped (h : m.Asked suites Program.IsRead k q) : q.Fits (.scoped suites) m :=
  h.fits_of_isLax (Law.isLax_scoped suites) id fun _ hp => hp.admits_scoped suites

/-- In a session each call of the parent constructor belongs to a constructor. -/
theorem Asked.callsFrom
    (h : m.Asked suites Program.IsRead k (.evaluate name scope (.call .super args))) :
    m.frames.CallsFrom scope args := by
  obtain ⟨hidden, -, hq⟩ := h.fits_scoped
  -- The call is itself code in its frame, so what it mentions is that it belongs to a constructor.
  have hcalls : m.Grants (.scoped suites) hidden (.calls scope args) :=
    hq (.inr (.inr ⟨scope, args, rfl, fun _ hframe => (Option.some.inj hframe).symm,
      fun c => ⟨_, List.mem_singleton_self _, .here c⟩⟩))
  exact hcalls trivial

/-- The arguments of a call leave the frame that of the same construction. -/
theorem Asked.superCall_of_arguments
    (h : m.Asked suites Program.IsRead (k + 1) (.evaluate name scope (.call .super args)))
    {values : List Value} (hargs : (ofFuel k).evaluateArguments scope args m = .ok values m')
    {frame : FrameId} (hframe : frame.index < m.frames.size) :
    (m'.frames.get frame).superCall = (m.frames.get frame).superCall := by
  obtain ⟨hidden, hm, hq⟩ := h.fits_scoped
  have := behaves_ofFuel (Law.isLax_scoped suites).records k
  let K := m.knowledge (.scoped suites) hidden
  have hcall : Shown K (Query.evaluate name scope (.call .super args)) := ⟨hq⟩
  have : Shown K scope := .scope_of_evaluate name scope (.call .super args)
  have hcode : Shown K (Framed.mk (some scope) (Expression.call .super args)) :=
    .code_of_evaluate name scope (.call .super args)
  have : Shown K (Framed.mk (some scope) args) := hcode.part
  have hconducts : (Law.scoped suites).Conducts K ((ofFuel k).evaluateArguments scope args) :=
    inferInstance
  obtain ⟨hstep, -⟩ := hconducts.step_of_ok hm.meets hargs
  exact (hstep.grows.persists hframe).superCall

end Machine

/-! ## A program with a call -/

/-- What a program of one `new` expression without arguments constructs an instance of. -/
def Program.newOperand? : Program → Option Expression
  | ⟨[.expression (.new callee [])]⟩ => some callee
  | _ => none

theorem Program.eq_of_newOperand? {p : Program} {callee : Expression}
    (h : p.newOperand? = some callee) : p = ⟨[.expression (.new callee [])]⟩ := by
  unfold newOperand? at h
  split at h
  · cases h
    rfl
  · cases h

namespace Machine

variable {m : Machine} {id newTarget : ObjectId} {definition : ClassDefinition} {node : FunctionNode}
  {k : Nat}

theorem exists_constructor_of_callsSuperPlainly {keys : List String}
    (h : m.callsSuperPlainly k id keys = true) : ∃ definition node,
      (m.heap.get id).callable? = some (.class definition) ∧ definition.parent.isSome = true ∧
      definition.constructor? = some node ∧ node.onlyCallsSuper = true := by
  unfold callsSuperPlainly at h
  split at h
  · next definition hclass =>
    split at h
    · next parent node hparent hnode =>
      split at h
      · simp only [Bool.and_eq_true] at h
        exact ⟨definition, node, hclass, by rw [hparent, Option.isSome_some], hnode,
          h.1.1.1.1.1.1⟩
      · cases h
    · cases h
  · cases h

/-- A construction by a class whose constructor only calls that of the parent asks for this call. -/
theorem asks_construct_onlyCallsSuper (engine : Engine)
    (hclass : (m.heap.get id).callable? = some (.class definition))
    (hparent : definition.parent.isSome = true) (hnode : definition.constructor? = some node)
    (hcalls : node.onlyCallsSuper = true) :
    engine.Asks (·.phrase (.construct id [] newTarget)) m
      (.execute ⟨m.frames.size⟩ (.expression (.call .super [])))
      (m.entering (definition.derivedFrame newTarget) []) := by
  refine asks_of_halts fun halt => ?_
  let s : Statement := .expression (.call .super [])
  let start := m.entering (definition.derivedFrame newTarget) []
  have hhalts : (engine.haltingAt (.execute ⟨m.frames.size⟩ s) start halt).runFunction node
      ⟨m.frames.size⟩ [] start = .error (.broken halt.cause) halt.machine :=
    (runFunction_of_onlyCallsSuper hcalls).1 _
      (by simp [s, start, Engine.haltingAt, Action.haltingAt])
  simp [s, start, phrase, constructFunction, Action.readHeap, bind_apply, hclass,
    constructInstance, hnode, constructorFrame_of_derived hparent] at hhalts ⊢
  rw [hhalts]

/-- The program constructs an instance of a class whose constructor only calls that of the parent. -/
def callsSuperOnce (p : Program) : Bool :=
  match p.newOperand? with
  | some callee =>
    match (ofFuel (standardFuel - 2)).evaluate initial.realm.programFrame callee initial with
    | .ok (.object id) m => m.callsSuperPlainly (standardFuel - 7) id []
    | _ => false
  | none => false

theorem exists_of_callsSuperOnce {p : Program} (h : callsSuperOnce p = true) :
    ∃ callee id m, p = ⟨[.expression (.new callee [])]⟩ ∧
      (ofFuel (standardFuel - 2)).evaluate initial.realm.programFrame callee initial =
        .ok (.object id) m ∧
      m.callsSuperPlainly (standardFuel - 7) id [] = true := by
  unfold callsSuperOnce at h
  split at h
  · next callee hcallee =>
    split at h
    · next id m hevaluate => exact ⟨callee, id, m, p.eq_of_newOperand? hcallee, hevaluate, h⟩
    · cases h
  · cases h

/-! ## The constructor of a call -/

variable {suites : Prop} {name : String} {scope : FrameId} {args : List Expression}

/-- **A call of the parent constructor belongs to the constructor that it stands in.**  Whenever a
session evaluates `super(...)`, it does so in a frame that sees the receiver of an invocation of the
constructor of a class, through frames without a receiver of their own only, and the code of this very
constructor holds the call, through arrow functions only.  If this class has a parent, the frame of
the invocation is what the search finds.  Then, when the arguments are there, the parent of this class
constructs the receiver of this frame for the target of this invocation, and it gets the fields of
this class; and if the frame has its receiver by then, an error is thrown.

If the class extends `null`, it has no constructor to call, and its own frame is passed over: the call
does what it would do around the class.  So where no constructor of a derived class is around the
class, it throws a `TypeError` and leaves all frames as they are; else the call is that of the
constructor that is found there, and what it throws or binds is up to that. -/
theorem Asked.super_of_constructor
    (h : m.Asked suites Program.IsRead (k + 1) (.evaluate name scope (.call .super args))) :
    ∃ frame definition newTarget, m.frames.CallsIn scope args frame definition newTarget ∧
      (∀ parent, definition.parent = some parent →
        m.frames.find? scope (·.superCall.isSome) = some frame ∧
        (ofFuel (k + 1)).evaluateAs name scope (.call .super args) m =
          ((ofFuel k).evaluateArguments scope args >>=
            (ofFuel k).constructReceiver frame definition parent newTarget) m) ∧
      (definition.parent = none →
        (ofFuel (k + 1)).evaluateAs name scope (.call .super args) m =
          (ofFuel k).callSuper definition.scope ((ofFuel k).evaluateArguments scope args) m ∧
        (m.frames.find? definition.scope (·.superCall.isSome) = none →
          (ofFuel (k + 1)).evaluateAs name scope (.call .super args) m =
            .error (.thrown (.object ⟨m.heap.size⟩)) (m.afterFault .superOutsideConstructor) ∧
          (m.afterFault .superOutsideConstructor).frames = m.frames)) := by
  obtain ⟨frame, definition, newTarget, hin⟩ := h.callsFrom
  obtain ⟨hidden, hm, -⟩ := h.fits_scoped
  have hevaluate : (ofFuel (k + 1)).evaluateAs name scope (.call .super args) m =
      (ofFuel k).callSuper scope ((ofFuel k).evaluateArguments scope args) m := rfl
  refine ⟨frame, definition, newTarget, hin, fun parent hparent => ?_, fun hroot => ?_⟩
  · have hsome : definition.parent.isSome = true := by rw [hparent, Option.isSome_some]
    have hfound := hin.find?_of_parent hm.nested hsome
    refine ⟨hfound, hevaluate.trans (callSuper_of_frame hfound hparent ?_)⟩
    intro values m' hargs
    rw [h.superCall_of_arguments hargs hin.lt, hin.runs.superCall, if_pos hsome]
  · -- The search goes on outside of the class, as if the call stood there.
    have houter := hevaluate.trans (callSuper_congr (hin.find?_of_root hm.nested hroot))
    exact ⟨houter, fun hnone => ⟨houter.trans (callSuper_of_none hnone), rfl⟩⟩

/-- A program constructs an instance of a class that extends another one.  Its constructor calls that
of the parent, and finds the frame of this invocation. -/
theorem Asked.super_of_constructor_derived : ∃ (k : Nat) (m : Machine) (scope frame : FrameId)
    (definition : ClassDefinition) (newTarget parent : ObjectId),
    m.Asked False Program.IsRead (k + 1) (.evaluate "" scope (.call .super [])) ∧
      m.frames.CallsIn scope [] frame definition newTarget ∧
      definition.parent = some parent ∧
      m.frames.find? scope (·.superCall.isSome) = some frame := by
  obtain ⟨p, hread, hcalls⟩ := exists_of_any (show ((Program.ofText {}
    "new class extends class {} { constructor() { super() } }()").toOption.any callsSuperOnce) =
      true by decide +kernel)
  obtain ⟨callee, id, m, rfl, hevaluate, hplainly⟩ := exists_of_callsSuperOnce hcalls
  obtain ⟨definition, node, hclass, hparent, hnode, honly⟩ :=
    exists_constructor_of_callsSuperPlainly hplainly
  obtain ⟨_, _, _, hchain, -⟩ := exists_of_callsSuperPlainly hplainly
  have hown : ¬ m.RunsApart (.construct id [] id) := by
    rintro ⟨f, hnative, -⟩
    cases hclass.symm.trans hnative
  let start := m.entering (definition.derivedFrame id) []
  have hasked : start.Asked False Program.IsRead (standardFuel - 5 + 1)
      (.evaluate "" ⟨m.frames.size⟩ (.call .super [])) :=
    .program .initial ⟨{}, _, hread⟩ (.nested (.nested (.nested (.nested
      (.direct ((ofFuel standardFuel).asks_executeProgram rfl rfl))
      (fun h => h) (asks_expression _ _ _ _))
      (fun h => h) (asks_new hevaluate hchain.isConstructor))
      hown (asks_construct_onlyCallsSuper _ hclass hparent hnode honly))
      (fun h => h) (asks_expression _ _ _ _))
  obtain ⟨frame, definition', newTarget, hin, hderived, -⟩ := hasked.super_of_constructor
  have hstart : (start.frames.get ⟨m.frames.size⟩).superCall = some ⟨definition, id⟩ := by
    simp only [start, Machine.entering, Frames.get_add_self]
    rfl
  have hframe := hin.sees.eq_of_superCall (by rw [hstart, Option.isSome_some])
  obtain ⟨parent, hparent'⟩ : ∃ parent, definition'.parent = some parent := by
    have hcall := hin.runs.superCall
    rw [hframe, hstart] at hcall
    split at hcall
    · next hsome => exact Option.isSome_iff_exists.mp hsome
    · cases hcall
  exact ⟨_, start, _, frame, definition', newTarget, parent, hasked, hin, hparent',
    (hderived parent hparent').1⟩

/-- In a class that extends `null`, the call binds the receiver of the constructor around the class. -/
example : shownResult (initial.evaluate "let r
    class A extends class {} {
      constructor() {
        new class extends null { constructor() { super() } }
        r = this instanceof A
      }
    }
    new A()
    r") = "true" := by decide +kernel

end Machine

end EcmaEval
