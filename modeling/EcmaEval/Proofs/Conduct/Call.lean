import EcmaEval.Eval.Call
import EcmaEval.Proofs.Conduct.Realm
import EcmaEval.Proofs.Conduct.Statement
import EcmaEval.Proofs.Syntax.Statement

/-!
# Calls on sound machines

A call runs what the machine holds, and what that mentions is there.  With calls, constructions and
settlements the circle closes: an engine conducts itself well if the engine below it does, and the
engine that runs nothing does anyway.

## Main definitions

* `Law.Records`: the settlements of all engines are recorded

## Main results

* `Law.Conducts.callFunction`, `Law.Conducts.constructFunction`: what a function object runs
* `Engine.behaves_ofFuel`: the engine of any fuel conducts itself well
-/

namespace EcmaEval

variable {L : Law} {K : Knowledge}

/-- The functions of suites are known to be there. -/
class Suites (K : Knowledge) : Prop where
  known : .suites ∈ K.known

section Suites

variable {α : Type} [HasFacts α]

instance (priority := low) (x : α) [h : Suites K] : Suites (K.and x) := ⟨.inl h.known⟩

theorem Suites.of_shown (f : SuiteFunction) [h : Shown K f] : Suites K :=
  ⟨h.facts_subset (by cases f <;> first | exact .inl rfl | exact rfl)⟩

end Suites

namespace Law

open EcmaEval.Action EcmaEval.Engine

namespace Conducts

/-! ## Tests -/

section Tests

variable {α : Type} [HasFacts α] {a : Action α} [ha : L.Conducts K a]

/-- A run without a value may have stopped settlements, but only where there are suites. -/
instance [hsuites : Suites K] : L.Conducts K (value? a) := by
  refine ⟨fun m hm => ?_⟩
  have hend := ha.ends hm
  have hmay : L.suites := hm.known hsuites.known
  unfold value?
  generalize a m = result at hend
  cases hend with
  | ok hstep hx => exact .ok hstep hx
  | @error e m' hstep he =>
    have hnone : L.Ends K.hidden m facts (.ok (none : Option α) m') :=
      .ok (hstep.mono fun _ => hmay) (Set.empty_subset _)
    cases e with
    | thrown => exact hnone
    | broken cause =>
      cases cause with
      | outOfBounds => exact .error hstep he
      | unsupported | malformed => exact hnone
    | exhausted => exact .error hstep he

instance (leave : TestLog → TestLog) : L.Conducts K (leavingTests leave a) := by
  refine ⟨fun m hm => ?_⟩
  have hend := ha.ends hm
  unfold leavingTests
  generalize a m = result at hend
  have hleave {mayStop : Prop} {m' : Machine} (h : L.Step K.hidden mayStop m m') :
      L.Step K.hidden mayStop m { m' with tests := leave m'.tests } :=
    h.trans (.withRegisters h.sound rfl rfl rfl h.sound.signal h.sound.newTarget)
  cases hend with
  | ok hstep hx => exact .ok (hleave hstep) hx
  | error hstep he => exact .error (hleave hstep) he

instance (name : String) : L.Conducts K (insideGroup name a) := by
  unfold insideGroup
  infer_instance

instance : L.Conducts K (asTest a) := by
  unfold asTest
  infer_instance

end Tests

instance (name : String) (outcome : TestOutcome) : L.Conducts K (record name outcome) := by
  unfold record
  infer_instance

instance : L.Conducts K countAssertion := by
  unfold countAssertion
  refine .bind fun current => ?_
  split <;> infer_instance

instance (number : Nat) : L.Conducts K (failAssertion number) := by
  unfold failAssertion
  infer_instance

/-- The checks of a value are functions of a suite. -/
instance (matcher : Matcher) (negated : Bool) (actual : Value) (number : Nat) [hsuites : Suites K]
    [hactual : Shown K actual] : Shown K (SuiteFunction.check matcher negated actual number) :=
  ⟨Set.union_subset (Set.singleton_subset_iff.mpr hsuites.known) hactual.facts_subset⟩

instance (target : ObjectId) (matchers : List Matcher) (negated : Bool) (actual : Value)
    (number : Nat) [Suites K] [Shown K actual] :
    L.Conducts K (installChecks target matchers negated actual number) := by
  unfold installChecks
  infer_instance

instance (actual : Value) [Suites K] [Shown K actual] : L.Conducts K (newExpectation actual) := by
  unfold newExpectation
  refine .bind fun number => .bind fun positive => .bind fun negative => ?_
  infer_instance

/-! ## Checks -/

section Checks

variable {engine : Engine} [hengine : engine.Behaves L]

instance (op : BinaryOperator) (v w : Value) [Shown K v] [Shown K w] :
    L.Conducts K (engine.checkOrder op v w) := by
  unfold checkOrder
  refine .bind fun result => ?_
  cases result <;> infer_instance

instance (v key : Value) [Shown K v] [Shown K key] : L.Conducts K (engine.checkProperty v key) := by
  unfold checkProperty
  refine .bind fun key => ?_
  split <;> infer_instance

instance (f : Value) [Shown K f] : L.Conducts K (engine.thrownBy? f) := by
  unfold thrownBy?
  refine .bind fun callable => ?_
  split
  · refine .bind fun result => ?_
    cases result <;> infer_instance
  · infer_instance

instance (v constructor : Value) [Shown K constructor] :
    L.Conducts K (engine.isDirectInstance v constructor) := by
  unfold isDirectInstance
  refine .bind fun prototype => ?_
  split <;> infer_instance

instance (f constructor : Value) [Shown K f] [Shown K constructor] :
    L.Conducts K (engine.checkThrow f constructor) := by
  unfold checkThrow
  refine .bind fun thrown => ?_
  split <;> infer_instance

instance (f constructor text : Value) [Shown K f] [Shown K constructor] [Shown K text] :
    L.Conducts K (engine.checkThrowMessage f constructor text) := by
  unfold checkThrowMessage
  refine .bind fun thrown => ?_
  cases thrown <;> infer_instance

/-- The program of a realm of its own runs in a frame that takes any names. -/
instance (source : Value) [Suites K] : L.Conducts K (engine.evaluateApart source) := by
  unfold evaluateApart
  refine .bind fun text => ?_
  split
  · infer_instance
  · next program hread =>
    have : L.Conducts (K.and text) (inNewRealm do
        engine.executeProgram (← readRealm (·.programFrame)) program) := by
      refine ⟨fun m hm => ends_inNewRealm hm fun m' hm' => ?_⟩
      let K' := (K.and text).plus (realmFacts m'.realm)
      have : Shown K' m'.realm := ⟨fun _ hf => .inr (.inl hf)⟩
      have (name : String) : Free K' m'.realm.programFrame name := ⟨.inr (.inr ⟨name, .inr rfl⟩)⟩
      have : Shown K' (Framed.mk (some m'.realm.programFrame) program.body) :=
        .of_empty ((Program.read_of_ofText hread).facts_code _)
      exact Conducts.ends (K := K')
        (a := engine.executeProgram m'.realm.programFrame program) inferInstance hm'
    infer_instance

instance (matcher : Matcher) (actual : Value) (args : List Value) [Suites K] [Shown K actual]
    [Shown K args] : L.Conducts K (engine.check matcher actual args) := by
  unfold check
  cases matcher
  case toEvalTo =>
    refine .bind fun v => ?_
    split <;> infer_instance
  all_goals infer_instance

instance (name body : Value) [Shown K name] [Shown K body] :
    L.Conducts K (engine.runTest name body) := by
  unfold runTest
  refine .bind fun name => .bind fun ⟨result, running⟩ => ?_
  cases result <;> infer_instance

instance (name body : Value) [Shown K name] [Shown K body] :
    L.Conducts K (engine.runGroup name body) := by
  unfold runGroup
  refine .bind fun name => .bind fun result => ?_
  cases result <;> infer_instance

instance (f : SuiteFunction) (args : List Value) [Shown K f] [Shown K args] :
    L.Conducts K (engine.callSuite f args) := by
  have hsuites : Suites K := .of_shown f
  unfold callSuite
  cases f with
  | check matcher negated actual number =>
    have : Shown K actual := .covered (SuiteFunction.check matcher negated actual number)
    infer_instance
  | _ => infer_instance

end Checks

/-! ### Functions of the host -/

section Host

variable {engine : Engine} [hengine : engine.Behaves L]

/-- What a host names is known if the objects that it was given are. -/
theorem shown_of_given {v : Value} {given : List Value} [hgiven : Shown K given]
    (h : v.isObject = true → v ∈ given) : Shown K v := by
  cases v with
  | object id => exact Shown.list_iff.mp hgiven _ (h rfl)
  | _ => infer_instance

theorem conducts_answerHost {request : HostRequest} (h : ∀ v ∈ request.values, Shown K v) :
    L.Conducts K (engine.answerHost request) := by
  unfold answerHost
  cases request with
  | call callee receiver args =>
    have : Shown K callee := h _ (.head _)
    have : Shown K receiver := h _ (.tail _ (.head _))
    have : Shown K args := Shown.list_iff.mpr fun v hv => h v (.tail _ (.tail _ hv))
    infer_instance
  | get target key =>
    have : Shown K target := h _ (.head _)
    infer_instance
  | set target key value =>
    have : Shown K target := h _ (.head _)
    have : Shown K value := h _ (.tail _ (.head _))
    infer_instance
  | toNumber v =>
    have : Shown K v := h _ (.head _)
    infer_instance

/-- The steps of a host function reveal nothing but what it was given, and what it is given in their
course is known like all that the machine answers. -/
theorem conducts_runHost {steps : HostSteps} {given : List Value} [Shown K given]
    (h : steps.KnowsOnly given) : L.Conducts K (engine.runHost steps) := by
  induction steps generalizing K given with
  | give v =>
    have : Shown K v := shown_of_given h
    unfold runHost
    infer_instance
  | throw v =>
    have : Shown K v := shown_of_given h
    unfold runHost
    infer_instance
  | fail feature =>
    unfold runHost
    infer_instance
  | ask request next ih =>
    obtain ⟨hrequest, hok, herror⟩ := h
    have : L.Conducts K (engine.answerHost request) :=
      conducts_answerHost fun v hv => shown_of_given (hrequest v hv)
    unfold runHost
    refine .bind fun answer => ?_
    cases answer with
    | ok v => exact ih (.ok v) (hok v)
    | error v => exact ih (.error v) (herror v)

instance (f : HostFunction) (this : Value) (args : List Value) [Shown K this] [Shown K args] :
    L.Conducts K (engine.callHost f this args) :=
  conducts_runHost (f.knowsOnly this args)

end Host

end Conducts

/-! ## Calls and constructions -/

section Calls

variable {engine : Engine} [hengine : engine.Behaves L] {m : Machine} {this : Value}

theorem ends_callBuiltin (hm : m.Meets L K) (hthis : m.Receives this) (f : Builtin)
    (args : List Value) [Shown K this] [Shown K args] :
    L.Ends K.hidden m facts (engine.callBuiltin f this args m) := by
  unfold callBuiltin
  cases f with
  | error kind => exact ends_callError hm hthis kind args
  | promise f => exact ends_callPromise hm hthis f args
  | _ =>
    dsimp only
    exact Conducts.ends inferInstance hm

theorem ends_callNative (hm : m.Meets L K) (hthis : m.Receives this) (f : Native)
    (args : List Value) [Shown K f] [Shown K this] [Shown K args] :
    L.Ends K.hidden m facts (engine.callNative f this args m) := by
  unfold callNative
  cases f with
  | builtin f => exact ends_callBuiltin hm hthis f args
  | resolver promise fulfills =>
    have : Shown K promise := .covered (Native.resolver promise fulfills)
    exact Conducts.ends inferInstance hm
  | afterwards callback fulfills =>
    have : Shown K callback := .covered (Native.afterwards callback fulfills)
    exact Conducts.ends inferInstance hm
  | host f =>
    dsimp only
    exact Conducts.ends inferInstance hm
  | suite f =>
    have : Shown K f := .covered (Native.suite f)
    exact Conducts.ends inferInstance hm

namespace Conducts

/-- A call has no target of `new`. -/
instance (f : Native) (this : Value) (args : List Value) [Shown K f] [Shown K this] [Shown K args] :
    L.Conducts K (underTarget none (engine.callNative f this args)) := by
  refine ⟨fun m hm => ?_⟩
  have hm' : ({ m with newTarget := none } : Machine).Meets L K :=
    ⟨hm.sound.withRegisters rfl rfl hm.sound.realm hm.sound.signal (Set.empty_subset _), hm.known⟩
  exact .underTarget hm.sound (ends_callNative hm' (.inl rfl) f args)

instance callFunction (id : ObjectId) (this : Value) (args : List Value) [Shown K id] [Shown K this]
    [Shown K args] : L.Conducts K (engine.callFunction id this args) := by
  unfold Engine.callFunction
  refine .bind fun body => ?_
  cases body with
  | none => infer_instance
  | some body =>
    cases body with
    | closure node scope home =>
      have : Placed (K.and (some (Callable.closure node scope home))) home :=
        .covered node scope home
      infer_instance
    | _ => infer_instance

end Conducts

/-! ### Instances -/

/-- A new object is nothing yet. -/
theorem newObjectWith_new {prototype : Option ObjectId} {id : ObjectId} {m m' : Machine}
    (h : newObjectWith prototype m = .ok id m') : m'.heap.Unfilled id := by
  cases h
  have hself := m.heap.get_allocate_self (.new prototype .ordinary)
  exact ⟨congrArg Object.promiseState? hself, congrArg Object.isArray hself,
    congrArg Object.callable? hself⟩

/-- An instance is a new object. -/
theorem allocateInstance_new {newTarget id : ObjectId} {m m' : Machine}
    (h : engine.allocateInstance newTarget m = .ok id m') : m'.heap.Unfilled id := by
  unfold allocateInstance at h
  rw [Discipline.bind_apply] at h
  cases hprototype : engine.getOf newTarget "prototype" m with
  | error e m₁ =>
    rw [hprototype] at h
    cases h
  | ok prototype m₁ =>
    rw [hprototype] at h
    cases prototype with
    | object prototype => exact newObjectWith_new h
    | _ =>
      have hnew : newObjectWith (some m₁.realm.objectPrototype) m₁ = .ok id m' := h
      exact newObjectWith_new hnew

/-- A function that constructs is called on a new object. -/
theorem conducts_constructWith (newTarget : ObjectId) {f : Value → Action Value}
    [Shown K newTarget]
    (hf : ∀ id m, m.Meets L (K.and id) → m.heap.Unfilled id →
      L.Ends K.hidden m facts (f (.object id) m)) :
    L.Conducts K (engine.constructWith newTarget f) := by
  refine ⟨fun m hm => ?_⟩
  unfold constructWith
  rw [Discipline.bind_apply]
  have hinstance : L.Ends K.hidden m facts (engine.allocateInstance newTarget m) :=
    Conducts.ends inferInstance hm
  generalize hresult : engine.allocateInstance newTarget m = result at hinstance
  cases hinstance with
  | error hstep he => exact .error hstep he
  | @ok id m₁ hstep hid =>
    have hm₁ : m₁.Meets L (K.and id) := hm.plus hstep hid
    refine .of_step hstep ?_
    refine (hf id m₁ hm₁ (allocateInstance_new hresult)).bind hm₁ fun result m₂ hm₂ _ => ?_
    exact Conducts.ends (K := (K.and id).and result)
      (a := pure (if result.isObject then result else .object id)) inferInstance hm₂

namespace Conducts

instance constructFunction (id : ObjectId) (args : List Value) (newTarget : ObjectId) [Shown K id]
    [Shown K args] [Shown K newTarget] :
    L.Conducts K (engine.constructFunction id args newTarget) := by
  unfold Engine.constructFunction
  refine .bind fun body => ?_
  cases body with
  | none => infer_instance
  | some body =>
    cases body with
    | closure node scope home =>
      let K' := K.and (some (Callable.closure node scope home))
      have : Placed K' home := .covered node scope home
      refine conducts_constructWith (K := K') newTarget fun this m hm _ => ?_
      exact Conducts.ends (K := K'.and this)
        (a := engine.callClosure node scope home (.object this) args) inferInstance hm
    | «class» definition => infer_instance
    | native f =>
      let K' := K.and (some (Callable.native f))
      refine conducts_constructWith (K := K') newTarget fun this m hm hnew => ?_
      have hm' : ({ m with newTarget := some newTarget } : Machine).Meets L (K'.and this) :=
        ⟨hm.sound.withRegisters rfl rfl hm.sound.realm hm.sound.signal
          (hm.facts_subset (some newTarget)), hm.known⟩
      refine .underTarget hm.sound (ends_callNative hm' (.inr fun this' heq => ?_) f args)
      cases heq
      exact hnew
    | bound target receiver first => infer_instance

end Conducts

end Calls

/-! ## Engines -/

/-- All settlements are recorded. -/
structure Records (L : Law) : Prop where
  completes : ∀ {fuel : Nat} {id : ObjectId} {outcome : Settlement} {m m' : Machine},
    (ofFuel fuel).settlePromise id outcome m = .ok () m' → L.completes id outcome m m'
  stops : ∀ {fuel : Nat} {id : ObjectId} {outcome : Settlement} {e : Abrupt} {m m' : Machine},
    (ofFuel fuel).settlePromise id outcome m = .error e m' → L.stops id outcome m m'

end Law

namespace Engine

/-- The engine that runs a phrase itself, and its parts with `engine`. -/
def above (engine : Engine) : Engine where
  fuel := engine.fuel
  evaluateAs := engine.evaluateExpression
  execute := engine.executeStatement
  call := engine.callFunction
  construct := engine.constructFunction
  settle := engine.settlePromise

/-- An engine conducts itself well if the one for the parts does. -/
theorem behaves_above {engine : Engine} [engine.Behaves L] [engine.Quiet]
    (hcompletes : ∀ id outcome m m', engine.settlePromise id outcome m = .ok () m' →
      L.completes id outcome m m')
    (hstops : ∀ id outcome e m m', engine.settlePromise id outcome m = .error e m' →
      L.stops id outcome m m') : engine.above.Behaves L where
  evaluateAs {K} name scope e _ :=
    have : Shown K scope := .scope_of_evaluate name scope e
    have : Shown K (Framed.mk (some scope) e) := .code_of_evaluate name scope e
    Law.Conducts.evaluateExpression scope name e
  execute scope s _ := Law.Conducts.executeStatement scope s
  call id this args _ _ _ := Law.Conducts.callFunction id this args
  construct id args newTarget _ _ _ := Law.Conducts.constructFunction id args newTarget
  settle id outcome _ _ := Law.conducts_settlePromise id outcome (hcompletes id outcome)
    (hstops id outcome)

/-- An engine conducts itself well, however deep it runs. -/
theorem behaves_ofFuel (hL : L.Records) (fuel : Nat) : (ofFuel fuel).Behaves L := by
  induction fuel with
  | zero =>
    constructor
    all_goals
      intros
      exact inferInstanceAs (L.Conducts _ Action.exhausted)
  | succ fuel ih =>
    have hquiet : (ofFuel fuel).Quiet := quiet_ofFuel fuel
    obtain ⟨hevaluate, hexecute, hcall, hconstruct, hsettle⟩ : (ofFuel fuel).above.Behaves L :=
      behaves_above (fun _ _ _ _ => hL.completes) fun _ _ _ _ _ => hL.stops
    exact ⟨hevaluate, hexecute, hcall, hconstruct, hsettle⟩

end Engine

end EcmaEval
