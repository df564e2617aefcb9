import EcmaEval.Proofs.Run.Statement
import EcmaEval.Proofs.Syntax.Statement

/-!
# Suites keep to a discipline

What the functions of a suite do to its tests has a trace.  A test has its own record while it runs,
and an expectation makes its check functions in one go, all of them with its number.  What a check
finds is noted about the test that runs when it is over.

## Main definitions

* `Machine.Lent`, `Action.Lending`: what an expectation makes

## Main results

* `Discipline.steady_runTest`: a test
* `Discipline.steady_newExpectation`: an expectation
* `Discipline.ends_callCheck`: a call of a check function
-/

namespace EcmaEval

/-! ## Check functions -/

/-- A check function is made of the check that it holds. -/
theorem Heap.callable?_of_assertion? {h : Heap} {id : ObjectId} {a : Assertion}
    (ha : h.assertion? id = some a) :
    (h.get id).callable? =
      some (.native (.suite (.check a.matcher a.negated a.actual a.number))) := by
  obtain ⟨f, hf, ha⟩ := Option.bind_eq_some_iff.mp ha
  rw [hf]
  unfold Callable.assertion? at ha
  split at ha
  · cases ha
    rfl
  · cases ha

/-- What a check function finds is noted, whichever object it is. -/
theorem Engine.callSuite_check (engine : Engine) (matcher : Matcher) (negated : Bool)
    (actual : Value) (number : Nat) (args : List Value) (m : Machine) (id : ObjectId) :
    engine.callSuite (.check matcher negated actual number) args m =
      match engine.check matcher actual args m with
      | .ok verdict m' => .ok .undefined (m'.note (.check id number (verdict == negated)))
      | .error e m' => .error e m' := by
  unfold callSuite
  dsimp only
  rw [Discipline.bind_apply]
  cases engine.check matcher actual args m with
  | error e m' => rfl
  | ok verdict m' =>
    dsimp only
    cases verdict == negated with
    | false =>
      rw [Machine.note_of_holds]
      rfl
    | true => rfl

/-- What an expectation of a number leaves: new objects, and check functions of that number
alone. -/
structure Machine.Lent (number : Nat) (m m' : Machine) : Prop extends m.SameRegisters m' where
  signal : m'.signal = m.signal
  frames : m'.frames = m.frames
  tests : m'.tests = m.tests
  size_le : m.heap.size ≤ m'.heap.size
  made : ∀ {id a}, m'.heap.assertion? id = some a →
    m.heap.assertion? id = some a ∨ m.heap.size ≤ id.index ∧ a.number = number
  callable : ∀ {id f}, (m'.heap.get id).callable? = some f →
    (m.heap.get id).callable? = some f ∨ ∃ g, f = .native (.suite g)
  orderly : m.heap.Orderly → m'.heap.Orderly

theorem Machine.Lent.trans {number : Nat} {m m' m'' : Machine} (h : m.Lent number m')
    (h' : m'.Lent number m'') : m.Lent number m'' where
  toSameRegisters := h.toSameRegisters.trans h'.toSameRegisters
  signal := h'.signal.trans h.signal
  frames := h'.frames.trans h.frames
  tests := h'.tests.trans h.tests
  size_le := h.size_le.trans h'.size_le
  made ha := by
    rcases h'.made ha with ha | ⟨hle, hnumber⟩
    · exact h.made ha
    · exact .inr ⟨h.size_le.trans hle, hnumber⟩
  callable hf := by
    rcases h'.callable hf with hf | hsuite
    · exact h.callable hf
    · exact .inr hsuite
  orderly := h'.orderly ∘ h.orderly

namespace Action

variable {α β : Type} {number : Nat}

/-- The action has a value, and leaves what an expectation of the number may leave. -/
def Lending (number : Nat) (a : Action α) : Prop :=
  ∀ m, ∃ x m', a m = .ok x m' ∧ m.Lent number m'

namespace Lending

theorem of_read (x : Machine → α) : Lending number fun m => .ok (x m) m :=
  fun m => ⟨x m, m, rfl, .refl m, rfl, rfl, rfl, Nat.le_refl _, .inl, .inl, id⟩

theorem bind {a : Action α} {f : α → Action β} (ha : Lending number a)
    (hf : ∀ x, Lending number (f x)) : Lending number (a >>= f) := by
  intro m
  obtain ⟨x, m', hx, hlent⟩ := ha m
  obtain ⟨y, m'', hy, hlent'⟩ := hf x m'
  refine ⟨y, m'', ?_, hlent.trans hlent'⟩
  rw [Discipline.bind_apply, hx]
  exact hy

theorem forM {γ : Type} {f : γ → Action PUnit} (hf : ∀ x, Lending number (f x)) (xs : List γ) :
    Lending number (xs.forM f) := by
  induction xs with
  | nil => exact of_read fun _ => ()
  | cons x xs ih => exact (hf x).bind fun _ => ih

/-- An object that is no function of its own is made, or a check function of the number. -/
theorem allocate {o : Object} (horderly : o.Orderly)
    (ho : ∀ f, o.callable? = some f → ∃ g, f = .native (.suite g) ∧
      ∀ a, f.assertion? = some a → a.number = number) : Lending number (allocate o) := by
  refine fun m => ⟨_, _, rfl, ⟨rfl, rfl⟩, rfl, rfl, rfl, ?_, fun {id a} ha => ?_,
    fun {id f} hf => ?_, (·.allocate horderly)⟩
  · change m.heap.size ≤ (m.heap.allocate o).2.size
    rw [Heap.size_allocate]
    exact Nat.le_succ _
  · change (m.heap.allocate o).2.assertion? id = some a at ha
    rw [Heap.assertion?, Heap.get_allocate] at ha
    split at ha
    · next hnew =>
      obtain ⟨f, hf, ha⟩ := Option.bind_eq_some_iff.mp ha
      obtain ⟨g, -, hnumber⟩ := ho f hf
      exact .inr ⟨hnew.ge, hnumber a ha⟩
    · exact .inl ha
  · change ((m.heap.allocate o).2.get id).callable? = some f at hf
    rw [Heap.get_allocate] at hf
    split at hf
    · obtain ⟨g, hg, -⟩ := ho f hf
      exact .inr ⟨g, hg⟩
    · exact .inl hf

theorem modifyObject (id : ObjectId) {change : Object → Object}
    (hchange : ∀ o : Object, (change o).callable? = o.callable?)
    (horderly : ∀ o : Object, o.Orderly → (change o).Orderly) :
    Lending number (modifyObject id change) := by
  have hcallable (m : Machine) (id' : ObjectId) :
      ((m.heap.modify id change).get id').callable? = (m.heap.get id').callable? := by
    rcases m.heap.get_modify id change id' with heq | heq
    · rw [heq]
    · rw [heq, hchange]
  refine fun m => ⟨_, _, rfl, ⟨rfl, rfl⟩, rfl, rfl, rfl, (m.heap.size_modify id change).ge,
    fun {id' a} ha => .inl ?_, fun {id' f} hf => .inl (hcallable m id' ▸ hf),
    (·.modify horderly)⟩
  rw [Heap.assertion?] at ha ⊢
  rwa [← hcallable m id']

theorem newObject : Lending number newObject :=
  (of_read _).bind fun _ => allocate (.of_not_array rfl) nofun

theorem newCheck (matcher : Matcher) (negated : Bool) (actual : Value) :
    Lending number (newNative (.suite (.check matcher negated actual number))) := by
  have hfunction (prototype : ObjectId) (name : String) (length : Nat) :
      Lending number (Action.allocate <| (Object.new prototype
        (.function (.native (.suite (.check matcher negated actual number))))).define "length"
          (.fixed (.ofNat length)) |>.define "name" (.fixed (.ofText name))) := by
    refine allocate ?_ fun f hf => ?_
    · have hblank : (Object.new prototype
          (.function (.native (.suite (.check matcher negated actual number))))).Orderly :=
        .of_not_array rfl
      exact (hblank.rearrange (.property (.define _ _))).rearrange (.property (.define _ _))
    · rw [Object.callable?_define, Object.callable?_define] at hf
      cases hf
      refine ⟨_, rfl, fun a ha => ?_⟩
      cases ha
      rfl
  unfold newNative newFunction
  exact bind (bind (of_read _) fun prototype => bind (hfunction prototype _ _) fun _ => of_read _)
    fun _ => of_read _

theorem insertHidden (id : ObjectId) (key : String) (value : Value) :
    Lending number (Action.modifyObject id (·.insertHidden key value)) :=
  modifyObject id (fun o => o.callable?_insertHidden key value) fun _ h =>
    h.rearrange (.property (.insertHidden key value))

theorem installChecks (target : ObjectId) (matchers : List Matcher) (negated : Bool)
    (actual : Value) : Lending number (installChecks target matchers negated actual number) :=
  forM (fun matcher => (newCheck matcher negated actual).bind fun _ => insertHidden target _ _)
    matchers

end Lending

end Action

namespace Discipline

open EcmaEval.Action Engine

variable {D : Discipline}

/-! ## Tests -/

/-- An action in a realm of its own, with whatever way it ends. -/
instance {α : Type} {a : Action α} [D.Steady a] : D.Steady (value? (inNewRealm a)) := by
  refine ⟨fun m hm hsignal => ?_⟩
  obtain ⟨hend, hresumes⟩ := ends_inNewRealm (a := a) hm hsignal
  unfold value?
  generalize inNewRealm a m = result at hend hresumes
  cases hend with
  | ok hm' hfollows hx => exact .ok hm' hfollows hx
  | @error e m' hm' hfollows hnone he =>
    cases e with
    | thrown v => exact .ok hm' hfollows ⟨hnone, trivial⟩
    | broken cause =>
      cases cause with
      | outOfBounds => exact .error hm' hfollows hnone he
      | unsupported | malformed => exact .ok hm' (hresumes _ _ rfl) ⟨hnone, trivial⟩
    | exhausted => exact .error hm' hfollows hnone he

theorem insideGroup_apply {α : Type} (name : String) (a : Action α) (m : Machine) :
    insideGroup name a m =
      match a (m.enterGroup name) with
      | .ok x m' => .ok x m'.leaveGroup
      | .error e m' => .error e m'.leaveGroup := by
  unfold insideGroup
  rw [bind_apply]
  rfl

/-- A group is left whatever way the action ends. -/
instance {α : Type} (name : String) {a : Action α} [ha : D.Steady a] :
    D.Steady (insideGroup name a) := by
  refine ⟨fun m hm hsignal => ?_⟩
  have hruns := ha.keeps (m.enterGroup name) ⟨hm.callable, hm.superCall⟩ hsignal
  rw [insideGroup_apply]
  generalize a (m.enterGroup name) = result at hruns
  cases hruns with
  | ok hm' hfollows hx =>
    exact .ok ⟨hm'.callable, hm'.superCall⟩ ⟨⟨hfollows.newTarget, hfollows.joining⟩,
      hfollows.tests.imp' _ fun _ hes => .inside hes, hfollows.orderly⟩ hx
  | error hm' hfollows hnone he =>
    exact .error ⟨hm'.callable, hm'.superCall⟩ ⟨⟨hfollows.newTarget, hfollows.joining⟩,
      hfollows.tests.imp' _ fun _ hes => .inside hes, hfollows.orderly⟩ hnone he

/-- A group that throws is recorded. -/
instance (name shown : String) : D.Steady (record name (.threw shown)) :=
  ⟨fun _ hm hsignal => .ok ⟨hm.callable, hm.superCall⟩
    ⟨⟨rfl, rfl⟩, ⟨[.group _], .group rfl rfl⟩, id⟩ ⟨hsignal, trivial⟩⟩

theorem asTest_apply {α : Type} (a : Action α) (m : Machine) :
    asTest a m =
      match a m.startTest with
      | .ok x m' => .ok (x, m'.tests.current.getD {}) (m'.endTest m)
      | .error e m' => .error e (m'.endTest m) := by
  have hbody : asTest a m = leavingTests ({ · with current := m.tests.current })
      (a >>= fun x => readTests (·.current) >>= fun running => pure (x, running.getD {}))
      m.startTest := rfl
  rw [hbody]
  unfold leavingTests
  rw [bind_apply]
  cases a m.startTest <;> rfl

theorem fatal_of_attempt {α : Type} {a : Action α} {m m' : Machine} {e : Abrupt}
    (h : attempt a m = .error e m') : e.Fatal := by
  unfold attempt at h
  split at h
  · cases h
  · cases h
  · next e' m'' hnot _ =>
    cases h
    cases e with
    | thrown v => exact absurd rfl (hnot v)
    | broken | exhausted => trivial

/-- A test runs with a record of its own, from which its outcome comes unless it throws. -/
theorem steady_test {α : Type} {a : Action α} [ha : D.Steady a]
    {finish : Except Value α × RunningTest → Action Unit}
    (hfinish : ∀ result running m, ∃ r : TestResult,
      finish (result, running) m = .ok () (m.withResult r) ∧ r.groups = m.tests.groups ∧
        (r.outcome = running.outcome ∨ ∃ shown, r.outcome = .threw shown)) :
    D.Steady (asTest (attempt a) >>= finish) := by
  refine ⟨fun m hm hsignal => ?_⟩
  have hbody : D.Steady (attempt a) := inferInstance
  have hruns := hbody.keeps m.startTest ⟨hm.callable, hm.superCall⟩ hsignal
  rw [bind_apply, asTest_apply]
  generalize hresult : attempt a m.startTest = result at hruns
  cases hruns with
  | @ok result m' hm' hfollows hx =>
    obtain ⟨r, hr, hgroups, houtcome⟩ := hfinish result (m'.tests.current.getD {}) (m'.endTest m)
    obtain ⟨es, hes⟩ := hfollows.tests
    -- The record of the test is what was noted since it started.
    rw [hes.running_eq rfl, Option.getD_some] at hr houtcome
    dsimp only
    rw [hes.running_eq rfl, Option.getD_some, hr]
    exact .ok ⟨hm'.callable, hm'.superCall⟩
      ⟨⟨hfollows.newTarget, hfollows.joining⟩, ⟨_, .test hes houtcome (hgroups.trans hes.groups_eq)⟩,
        hfollows.orderly⟩ hx
  | error hm' hfollows hnone he =>
    -- Only what nothing handles leaves a test before its end.
    obtain ⟨es, hes⟩ := hfollows.tests
    exact .error ⟨hm'.callable, hm'.superCall⟩ ⟨⟨hfollows.newTarget, hfollows.joining⟩,
      ⟨_, .stop (fatal_of_attempt hresult) hes⟩, hfollows.orderly⟩ hnone he

/-! ## Expectations -/

theorem newExpectation_of_none {m : Machine} (hnone : m.tests.current = none) (actual : Value) :
    newExpectation actual m = (throwFault .expectOutsideTest : Action Value) m := by
  simp only [newExpectation, countAssertion, bind_apply, readTests, hnone]
  rfl

/-- An expectation is counted, and makes its objects behind that. -/
theorem exists_newExpectation {m : Machine} {t : RunningTest} (ht : m.tests.current = some t)
    (actual : Value) : ∃ v m', newExpectation actual m = .ok v m' ∧
      Machine.Lent (t.assertions + 1)
        { m with tests.current := some { t with assertions := t.assertions + 1 } } m' := by
  have hcount : countAssertion m = .ok (t.assertions + 1)
      { m with tests.current := some { t with assertions := t.assertions + 1 } } := by
    unfold countAssertion
    rw [bind_apply]
    simp only [readTests, ht]
    rfl
  have hrest (number : Nat) : Lending number (do
      let positive ← newObject
      let negative ← newObject
      installChecks positive Matcher.all false actual number
      installChecks negative (Matcher.all.filter Matcher.isNegatable) true actual number
      Action.modifyObject positive (·.setOwn "not" (.object negative))
      return Value.object positive) :=
    .bind .newObject fun positive => .bind .newObject fun negative =>
      .bind (Lending.installChecks _ _ _ _) fun _ => .bind (Lending.installChecks _ _ _ _) fun _ =>
        .bind (Lending.modifyObject _ (fun o => o.callable?_setOwn _ _) fun _ h =>
          h.rearrange (.property (.setOwn _ _))) fun _ => .of_read _
  obtain ⟨v, m', hv, hlent⟩ := hrest (t.assertions + 1)
    { m with tests.current := some { t with assertions := t.assertions + 1 } }
  refine ⟨v, m', ?_, hlent⟩
  unfold newExpectation
  rw [bind_apply, hcount]
  exact hv

theorem steady_newExpectation (hsuites : D.suites) (actual : Value) :
    D.Steady (newExpectation actual) := by
  refine ⟨fun m hm hsignal => ?_⟩
  cases ht : m.tests.current with
  | none =>
    have hfault : D.Steady (throwFault .expectOutsideTest : Action Value) := inferInstance
    rw [newExpectation_of_none ht]
    exact hfault.keeps m hm hsignal
  | some t =>
    obtain ⟨v, m', hv, hlent⟩ := exists_newExpectation ht actual
    rw [hv]
    refine .ok ⟨fun {id f} hf => ?_, fun {id call} hcall => ?_⟩
      ⟨⟨hlent.newTarget, hlent.joining⟩, ⟨_, .expect ht hlent.tests hlent.size_le
        (fun hlt ha => ?_) fun hle ha => ?_⟩, hlent.orderly⟩ ⟨hlent.signal.trans hsignal, trivial⟩
    · rcases hlent.callable hf with hold | ⟨g, rfl⟩
      · exact hm.callable hold
      · exact hsuites
    · rw [hlent.frames] at hcall
      exact hm.superCall hcall
    · exact (hlent.made ha).resolve_right fun hnew => absurd hnew.1 (Nat.not_le_of_lt hlt)
    · rcases hlent.made ha with hold | hnew
      · exact absurd (Heap.index_lt_of_assertion? hold) (Nat.not_lt_of_le hle)
      · exact hnew.2

/-! ## Checks -/

section Checks

variable {engine : Engine} [hengine : engine.Obeys D]

instance (op : BinaryOperator) (v w : Value) : D.Steady (engine.checkOrder op v w) := by
  unfold checkOrder
  refine .bind fun result => ?_
  split <;> infer_instance

instance (v key : Value) : D.Steady (engine.checkProperty v key) := by
  unfold checkProperty
  refine .bind fun key => ?_
  split <;> infer_instance

instance (f : Value) : D.Steady (engine.thrownBy? f) := by
  unfold thrownBy?
  refine .bind fun callable => ?_
  split
  · refine .bind fun result => ?_
    split <;> infer_instance
  · infer_instance

instance (v constructor : Value) : D.Steady (engine.isDirectInstance v constructor) := by
  unfold isDirectInstance
  refine .bind fun prototype => ?_
  split <;> infer_instance

instance (f constructor : Value) : D.Steady (engine.checkThrow f constructor) := by
  unfold checkThrow
  refine .bind fun thrown => ?_
  split <;> infer_instance

instance (f constructor text : Value) :
    D.Steady (engine.checkThrowMessage f constructor text) := by
  unfold checkThrowMessage
  refine .bind fun thrown => ?_
  split <;> infer_instance

/-- What is read from a text may be run. -/
theorem steady_evaluateApart (hsuites : D.suites) (source : Value) :
    D.Steady (engine.evaluateApart source) := by
  unfold evaluateApart
  refine .bind fun text => ?_
  split
  case h_1 => infer_instance
  case h_2 program hprogram =>
    -- What can be read obeys the rule, if the machine may hold suites at all.
    have hcode : program.Every {} D.rule := fun s hs =>
      (Program.read_of_ofText hprogram s hs).mono fun _ => D.readable hsuites
    have hrun (scope : FrameId) := steady_executeProgram engine hcode scope
    infer_instance

theorem steady_check (hsuites : D.suites) (matcher : Matcher) (actual : Value)
    (args : List Value) : D.Steady (engine.check matcher actual args) := by
  have hapart (source : Value) : D.Steady (engine.evaluateApart source) :=
    steady_evaluateApart hsuites source
  unfold check
  cases matcher
  case toEvalTo =>
    refine .bind fun v => ?_
    split <;> infer_instance
  all_goals infer_instance

/-- A check function of the machine `m` is called on the machine `m₁`, which follows.  Its check
turns out as a check may, and what it finds is noted. -/
theorem ends_callCheck (hsuites : D.suites) {m m₁ : Machine} {id : ObjectId} {a : Assertion}
    (ha : m.heap.assertion? id = some a) (hbefore : m.Follows D.judges False m₁) (hm₁ : D.Holds m₁)
    (hsignal : m₁.signal = none) (args : List Value) :
    D.Ends m (fun _ after => after = none ∧ True)
      (engine.callSuite (.check a.matcher a.negated a.actual a.number) args m₁) := by
  have hsteady : D.Steady (engine.check a.matcher a.actual args) :=
    steady_check hsuites a.matcher a.actual args
  have hcheck := hsteady.keeps m₁ hm₁ hsignal
  obtain ⟨es, hes⟩ := hbefore.tests
  rw [engine.callSuite_check _ _ _ _ _ _ id]
  cases hresult : engine.check a.matcher a.actual args m₁ with
  | error e m₂ =>
    rw [hresult] at hcheck
    cases hcheck with
    | error hm₂ hfollows hnone he => exact .error hm₂ (hbefore.trans hfollows) hnone he
  | ok verdict m₂ =>
    rw [hresult] at hcheck
    cases hcheck with
    | ok hm₂ hfollows hx =>
      obtain ⟨es', hes'⟩ := hfollows.tests
      have hfollows' := hbefore.trans hfollows
      exact .ok ⟨hm₂.callable, hm₂.superCall⟩
        ⟨⟨hfollows'.newTarget, hfollows'.joining⟩,
          ⟨_, .check ha hes hes' (hengine.judges hresult)⟩, hfollows'.orderly⟩ hx

/-! ## Functions of a suite -/

instance (name body : Value) : D.Steady (engine.runTest name body) := by
  unfold runTest
  refine .bind fun name => steady_test fun result running m => ?_
  cases result with
  | ok v => exact ⟨⟨m.tests.groups, name, running.outcome⟩, rfl, rfl, .inl rfl⟩
  | error thrown =>
    exact ⟨⟨m.tests.groups, name, .threw (m.heap.show thrown)⟩, rfl, rfl, .inr ⟨_, rfl⟩⟩

instance (name body : Value) : D.Steady (engine.runGroup name body) := by
  unfold runGroup
  refine .bind fun name => .bind fun result => ?_
  split <;> infer_instance

/-- The functions of a suite other than checks. -/
theorem steady_callSuite (hsuites : D.suites) {f : SuiteFunction}
    (hcheck : Callable.assertion? (.native (.suite f)) = none) (args : List Value) :
    D.Steady (engine.callSuite f args) := by
  have hexpectation (actual : Value) := steady_newExpectation hsuites actual
  unfold callSuite
  cases f with
  | check => cases hcheck
  | test | describe | expect => infer_instance

end Checks

end Discipline

end EcmaEval
