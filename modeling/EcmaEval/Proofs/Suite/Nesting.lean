import EcmaEval.Proofs.Suite.Outcome

/-!
# Tests and groups inside each other

A test or a group calls back, and what it calls may declare tests and groups in turn.  However the
callback ends, with a value, with an error or with the whole run, the groups are those from before,
and so is the test that is running.  A test whose callback does not end the run is recorded once,
behind the tests inside it and under the groups around it, and it counts the expectations stated in
itself alone.  A group is recorded only if its callback throws, and the suite goes on behind it.

## Main definitions

* `Machine.Resumes`: what a run leaves of the tests, behind some events
* `Action.Traces`: an action ends in some way, behind some events
* `Engine.TestEnds`, `Engine.GroupEnds`: how calls of `test` and `describe` end

## Main results

* `Engine.testEnds_callNative`, `Engine.groupEnds_callNative`: they end in one of these ways
* `Suite.runSource_nesting`: the tests and the groups of a file
-/

namespace EcmaEval

open SuiteEvent

/-! ## Runs with events -/

/-- The run from `m` to `m'` resumes what it found of the tests: the groups are the same, and so is
the test that is running, which has counted what happened outside of the tests inside it.  What was
recorded stands behind what was there, under the groups that were entered and not left. -/
structure Machine.Resumes (mayStop : Prop) (m : Machine) (es : List SuiteEvent) (m' : Machine) :
    Prop where
  trace : m.Tests Engine.verdicts mayStop es m'
  groups : m'.tests.groups = m.tests.groups
  current : m'.tests.current = m.tests.current.map (·.afterAll es)
  results : m'.tests.results = m.tests.results ++ resultsAll es
  placed : PlacedAll m.tests.groups es

theorem Machine.Tests.resumes {mayStop : Prop} {m m' : Machine} {es : List SuiteEvent}
    (h : m.Tests Engine.verdicts mayStop es m') : m.Resumes mayStop es m' :=
  ⟨h, h.groups_eq, h.current_eq, h.results_eq, h.placed⟩

namespace Action

variable {α : Type} {a : Action α} {m : Machine}

/-- From the machine `m` the action ends so, and behind these events.  Only an end that nothing
handles may come inside a test. -/
inductive Traces (a : Action α) (m : Machine) (es : List SuiteEvent) :
    EStateM.Result Abrupt Machine α → Prop where
  | ok {x : α} {m' : Machine} (hrun : a m = .ok x m') (h : m.Resumes False es m') :
    Traces a m es (.ok x m')
  | error {e : Abrupt} {m' : Machine} (hrun : a m = .error e m') (h : m.Resumes e.Fatal es m') :
    Traces a m es (.error e m')

/-- Every steady action ends behind some events, and asks for nothing if it has a value. -/
theorem exists_traces [ha : Discipline.judging.Steady a] (hsignal : m.signal = none) :
    ∃ es, a.Traces m es (a m) ∧ ∀ x m', a m = .ok x m' → m'.signal = none := by
  have hend := ha.keeps m (Discipline.holds m) hsignal
  cases hrun : a m with
  | ok x m' =>
    rw [hrun] at hend
    cases hend with
    | ok _ hfollows hx =>
      obtain ⟨es, hes⟩ := hfollows.tests
      refine ⟨es, .ok hrun hes.resumes, fun y m'' heq => ?_⟩
      cases heq
      exact hx.1
  | error e m' =>
    rw [hrun] at hend
    cases hend with
    | error _ hfollows =>
      obtain ⟨es, hes⟩ := hfollows.tests
      refine ⟨es, .error hrun hes.resumes, ?_⟩
      rintro x m'' ⟨⟩

end Action

namespace Engine

open EcmaEval.Action Discipline

variable {engine : Engine} {m m₁ : Machine} {name body : Value} {text : String}

/-! ## Tests and groups -/

theorem callNative_test (receiver : Value) (args : List Value) :
    engine.callNative (.suite .test) receiver args m =
      match engine.toText (.argument args 0) m with
      | .error e m₁ => .error e m₁
      | .ok text m₁ =>
        match engine.callValue (.argument args 1) .undefined [] m₁.startTest with
        | .ok _ m₂ => .ok .undefined ((m₂.endTest m₁).withResult
            ⟨m₂.tests.groups, text, (m₂.tests.current.getD {}).outcome⟩)
        | .error (.thrown v) m₂ => .ok .undefined ((m₂.endTest m₁).withResult
            ⟨m₂.tests.groups, text, .threw (m₂.heap.show v)⟩)
        | .error e m₂ => .error e (m₂.endTest m₁) := by
  have hcall : engine.callNative (.suite .test) receiver args =
      engine.runTest (.argument args 0) (.argument args 1) >>= fun _ => pure .undefined := rfl
  rw [hcall, bind_apply]
  unfold runTest
  rw [bind_apply]
  cases engine.toText (.argument args 0) m with
  | error e m₁ => rfl
  | ok text m₁ =>
    dsimp only
    rw [bind_apply, asTest_apply]
    unfold attempt
    cases engine.callValue (.argument args 1) .undefined [] m₁.startTest with
    | ok v m₂ => rfl
    | error e m₂ => cases e <;> rfl

theorem callNative_describe (receiver : Value) (args : List Value) :
    engine.callNative (.suite .describe) receiver args m =
      match engine.toText (.argument args 0) m with
      | .error e m₁ => .error e m₁
      | .ok text m₁ =>
        match engine.callValue (.argument args 1) .undefined [] (m₁.enterGroup text) with
        | .ok _ m₂ => .ok .undefined m₂.leaveGroup
        | .error (.thrown v) m₂ => .ok .undefined (m₂.leaveGroup.withResult
            ⟨m₂.leaveGroup.tests.groups, text, .threw (m₂.heap.show v)⟩)
        | .error e m₂ => .error e m₂.leaveGroup := by
  have hcall : engine.callNative (.suite .describe) receiver args =
      engine.runGroup (.argument args 0) (.argument args 1) >>= fun _ => pure .undefined := rfl
  rw [hcall, bind_apply]
  unfold runGroup
  rw [bind_apply]
  cases engine.toText (.argument args 0) m with
  | error e m₁ => rfl
  | ok text m₁ =>
    dsimp only
    rw [bind_apply, insideGroup_apply]
    unfold attempt
    cases engine.callValue (.argument args 1) .undefined [] (m₁.enterGroup text) with
    | ok v m₂ => rfl
    | error e m₂ => cases e <;> rfl

/-- How a call of `test` on the machine `m` ends. -/
inductive TestEnds (engine : Engine) (m : Machine) (name body : Value) :
    EStateM.Result Abrupt Machine Value → Prop where
  /-- The name has no text, and the callback is not called. -/
  | unnamed {es : List SuiteEvent} {e : Abrupt} {m' : Machine}
    (hname : (engine.toText name).Traces m es (.error e m')) :
    TestEnds engine m name body (.error e m')
  /-- The callback has a value.  The outcome comes from what happened in the test itself. -/
  | finished {before inner : List SuiteEvent} {text : String} {v : Value} {m₁ m₂ m' : Machine}
    (hname : (engine.toText name).Traces m before (.ok text m₁))
    (hbody : (engine.callValue body .undefined []).Traces m₁.startTest inner (.ok v m₂))
    (h : m.Resumes False
      (before ++ [.test inner (some ⟨m.tests.groups, text, outcomeOf inner⟩)]) m')
    (hcurrent : m'.tests.current = m₁.tests.current) :
    TestEnds engine m name body (.ok .undefined m')
  | threw {before inner : List SuiteEvent} {text : String} {v : Value} {m₁ m₂ m' : Machine}
    (hname : (engine.toText name).Traces m before (.ok text m₁))
    (hbody : (engine.callValue body .undefined []).Traces m₁.startTest inner
      (.error (.thrown v) m₂))
    (h : m.Resumes False
      (before ++ [.test inner (some ⟨m.tests.groups, text, .threw (m₂.heap.show v)⟩)]) m')
    (hcurrent : m'.tests.current = m₁.tests.current) :
    TestEnds engine m name body (.ok .undefined m')
  /-- The callback ends the run, and so does the test.  Nothing is recorded about it. -/
  | stopped {before inner : List SuiteEvent} {text : String} {e : Abrupt} {m₁ m₂ m' : Machine}
    (hname : (engine.toText name).Traces m before (.ok text m₁))
    (hbody : (engine.callValue body .undefined []).Traces m₁.startTest inner (.error e m₂))
    (hfatal : e.Fatal) (h : m.Resumes True (before ++ [.test inner none]) m')
    (hcurrent : m'.tests.current = m₁.tests.current) :
    TestEnds engine m name body (.error e m')

/-- How a call of `describe` on the machine `m` ends. -/
inductive GroupEnds (engine : Engine) (m : Machine) (name body : Value) :
    EStateM.Result Abrupt Machine Value → Prop where
  /-- The name has no text, and the callback is not called. -/
  | unnamed {es : List SuiteEvent} {e : Abrupt} {m' : Machine}
    (hname : (engine.toText name).Traces m es (.error e m')) :
    GroupEnds engine m name body (.error e m')
  /-- The callback has a value.  Nothing is recorded about the group itself. -/
  | finished {before inner : List SuiteEvent} {text : String} {v : Value} {m₁ m₂ m' : Machine}
    (hname : (engine.toText name).Traces m before (.ok text m₁))
    (hbody : (engine.callValue body .undefined []).Traces (m₁.enterGroup text) inner (.ok v m₂))
    (h : m.Resumes False (before ++ ([.enter text] ++ inner ++ [.leave])) m') :
    GroupEnds engine m name body (.ok .undefined m')
  /-- The callback throws, and the call has a value nevertheless. -/
  | threw {before inner : List SuiteEvent} {text : String} {v : Value} {m₁ m₂ m' : Machine}
    (hname : (engine.toText name).Traces m before (.ok text m₁))
    (hbody : (engine.callValue body .undefined []).Traces (m₁.enterGroup text) inner
      (.error (.thrown v) m₂))
    (h : m.Resumes False (before ++ ([.enter text] ++ inner ++ [.leave]) ++
      [.group ⟨m.tests.groups, text, .threw (m₂.heap.show v)⟩]) m') :
    GroupEnds engine m name body (.ok .undefined m')
  /-- The callback ends the run. -/
  | stopped {before inner : List SuiteEvent} {text : String} {e : Abrupt} {m₁ m₂ m' : Machine}
    (hname : (engine.toText name).Traces m before (.ok text m₁))
    (hbody : (engine.callValue body .undefined []).Traces (m₁.enterGroup text) inner
      (.error e m₂))
    (hfatal : e.Fatal) (h : m.Resumes True (before ++ ([.enter text] ++ inner ++ [.leave])) m') :
    GroupEnds engine m name body (.error e m')

section Calls

variable [engine.Obeys judging]

/-- What is recorded behind the callback of a test, under the groups of the call. -/
theorem resumes_test {before inner : List SuiteEvent} {m₂ : Machine} {outcome : TestOutcome}
    (hbefore : m.Resumes False before m₁) (hinner : m₁.startTest.Resumes False inner m₂)
    (houtcome : outcome = outcomeOf inner ∨ ∃ shown, outcome = .threw shown) :
    m.Resumes False (before ++ [.test inner (some ⟨m.tests.groups, text, outcome⟩)])
      ((m₂.endTest m₁).withResult ⟨m₂.tests.groups, text, outcome⟩) := by
  have hgroups : m₂.tests.groups = m.tests.groups := hinner.groups.trans hbefore.groups
  rw [hgroups, ← outcome_afterAll] at *
  exact (hbefore.trace.trans (.test hinner.trace houtcome hbefore.groups.symm)).resumes

/-- A call of `test` ends in one of these ways. -/
theorem testEnds_callNative (hsignal : m.signal = none) (receiver : Value) (args : List Value) :
    engine.TestEnds m (.argument args 0) (.argument args 1)
      (engine.callNative (.suite .test) receiver args m) := by
  rw [callNative_test]
  -- The conversion of the name may run tests too, which come before this one.
  obtain ⟨before, hname, hnone⟩ := exists_traces (a := engine.toText (.argument args 0)) hsignal
  generalize engine.toText (.argument args 0) m = named at hname hnone ⊢
  cases hname with
  | error hrun hbefore => exact .unnamed (.error hrun hbefore)
  | @ok text m₁ hrun hbefore =>
    dsimp only
    obtain ⟨inner, hbody, -⟩ := exists_traces (a := engine.callValue (.argument args 1) .undefined [])
      (m := m₁.startTest) (hnone text m₁ rfl)
    generalize engine.callValue (.argument args 1) .undefined [] m₁.startTest = result at hbody ⊢
    cases hbody with
    | @ok v m₂ hend hinner =>
      -- The test began with nothing noted, so what is noted comes from the callback.
      have hrunning : (m₂.tests.current.getD {}).outcome = outcomeOf inner := by
        rw [hinner.trace.running_eq rfl, Option.getD_some, outcome_afterAll]
      refine .finished (.ok hrun hbefore) (.ok hend hinner) ?_ rfl
      rw [hrunning]
      exact resumes_test hbefore hinner (.inl rfl)
    | @error e m₂ hend hinner =>
      cases e with
      | thrown v =>
        exact .threw (.ok hrun hbefore) (.error hend hinner)
          (resumes_test hbefore hinner (.inr ⟨_, rfl⟩)) rfl
      | broken | exhausted =>
        exact .stopped (.ok hrun hbefore) (.error hend hinner) trivial
          (hbefore.trace.trans (.stop trivial hinner.trace)).resumes rfl

/-- A call of `describe` ends in one of these ways. -/
theorem groupEnds_callNative (hsignal : m.signal = none) (receiver : Value) (args : List Value) :
    engine.GroupEnds m (.argument args 0) (.argument args 1)
      (engine.callNative (.suite .describe) receiver args m) := by
  rw [callNative_describe]
  obtain ⟨before, hname, hnone⟩ := exists_traces (a := engine.toText (.argument args 0)) hsignal
  generalize engine.toText (.argument args 0) m = named at hname hnone ⊢
  cases hname with
  | error hrun hbefore => exact .unnamed (.error hrun hbefore)
  | @ok text m₁ hrun hbefore =>
    dsimp only
    obtain ⟨inner, hbody, -⟩ := exists_traces (a := engine.callValue (.argument args 1) .undefined [])
      (m := m₁.enterGroup text) (hnone text m₁ rfl)
    generalize engine.callValue (.argument args 1) .undefined [] (m₁.enterGroup text) = result
      at hbody ⊢
    cases hbody with
    | ok hend hinner =>
      exact .finished (.ok hrun hbefore) (.ok hend hinner)
        (hbefore.trace.trans (.inside hinner.trace)).resumes
    | @error e m₂ hend hinner =>
      have hleft := (hbefore.trace.trans (.inside hinner.trace)).resumes
      cases e with
      | thrown v =>
        refine .threw (.ok hrun hbefore) (.error hend hinner) ?_
        -- The result is recorded when the group has been left.
        rw [hleft.groups]
        exact (hleft.trace.trans (.group rfl hleft.groups.symm)).resumes
      | broken | exhausted =>
        exact .stopped (.ok hrun hbefore) (.error hend hinner) trivial hleft

end Calls

/-! ## Expectations -/

/-- An expectation counts in the test that is running then, and in no other. -/
theorem callNative_expect {t : RunningTest} (ht : m.tests.current = some t) (receiver : Value)
    (args : List Value) :
    ∃ v m', engine.callNative (.suite .expect) receiver args m = .ok v m' ∧
      m'.tests = { m.tests with current := some { t with assertions := t.assertions + 1 } } := by
  obtain ⟨v, m', hv, hlent⟩ := exists_newExpectation ht (.argument args 0)
  exact ⟨v, m', hv, hlent.tests⟩

/-- Outside of a test there is nothing in which it could count. -/
theorem callNative_expect_of_none (hnone : m.tests.current = none) (receiver : Value)
    (args : List Value) :
    engine.callNative (.suite .expect) receiver args m =
      (throwFault .expectOutsideTest : Action Value) m :=
  newExpectation_of_none hnone _

end Engine

/-! ## Files of tests -/

namespace Suite

open Engine

theorem groups_start : start.tests.groups = [] := by
  have h : start.tests.groups.isEmpty = true := by decide +kernel
  exact List.isEmpty_iff.mp h

/-- A test inside a test inside a group that throws, and a test behind it. -/
def nestedTests : String :=
  "describe('a',()=>\x7btest('b',()=>\x7btest('c',()=>expect(1))\x7d);throw 'd'\x7d);" ++
  "test('e',()=>0)"

theorem tests_nestedTests : (runSource "" nestedTests).found.tests =
    [⟨["a"], "c", .passed⟩, ⟨["a"], "b", .noAssertions⟩, ⟨[], "a", .threw "d"⟩,
      ⟨[], "e", .noAssertions⟩] := by
  decide +kernel

/-- A callback with a test in it that throws behind the test. -/
def throwingCallback : RunResult :=
  start.evaluate "() => \x7btest('c', () => expect(1)); throw 'd'\x7d"

/-- What a call of `test` records that has a value. -/
def recorded (m : Machine) (name body : Value) : Option (List TestResult) :=
  match standard.callNative (.suite .test) .undefined [name, body] m with
  | .ok _ m' => some m'.tests.results
  | .error _ _ => none

theorem exists_throwingCallback :
    throwingCallback.machine.signal = none ∧
    ∃ f, throwingCallback.outcome = .ok f ∧
      recorded throwingCallback.machine (.ofText "b") f =
        some [⟨[], "c", .passed⟩, ⟨[], "b", .threw "d"⟩] := by
  have hsignal : throwingCallback.machine.signal.isNone = true := by decide +kernel
  have hrecorded : throwingCallback.outcome.toOption.bind
      (recorded throwingCallback.machine (.ofText "b")) =
      some [⟨[], "c", .passed⟩, ⟨[], "b", .threw "d"⟩] := by
    decide +kernel
  refine ⟨Option.isNone_iff_eq_none.mp hsignal, ?_⟩
  generalize throwingCallback.outcome = outcome at hrecorded
  cases outcome with
  | ok f => exact ⟨f, rfl, hrecorded⟩
  | error => cases hrecorded

/-- A test whose name cannot be converted, and a test of what is thrown for it. -/
def unnamedTest : String :=
  "try \x7btest(\x7btoString() \x7bthrow 1\x7d\x7d, () => 0)\x7d " ++
  "catch (e) \x7btest('t', () => expect(e).toBe(1))\x7d"

/-- An object whose conversion throws. -/
def unconvertible : RunResult := start.evaluate "(\x7btoString() \x7bthrow 1\x7d\x7d)"

/-- A call of `test` with this name throws, and records nothing. -/
def isUnrecorded (m : Machine) (name : Value) : Bool :=
  match standard.callNative (.suite .test) .undefined [name] m with
  | .error (.thrown _) m' => m'.tests.results == m.tests.results
  | _ => false

theorem exists_of_isUnrecorded {m : Machine} {name : Value} (h : isUnrecorded m name = true) :
    ∃ v m', standard.callNative (.suite .test) .undefined [name] m = .error (.thrown v) m' ∧
      m'.tests.results = m.tests.results := by
  unfold isUnrecorded at h
  generalize standard.callNative (.suite .test) .undefined [name] m = result at h ⊢
  cases result with
  | ok => cases h
  | error e m' =>
    cases e with
    | thrown v => exact ⟨v, m', rfl, eq_of_beq h⟩
    | broken | exhausted => cases h

end Suite

end EcmaEval
