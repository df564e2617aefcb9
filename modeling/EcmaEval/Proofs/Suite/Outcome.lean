import EcmaEval.Proofs.Run.Registers
import EcmaEval.Suite.Run
import Mathlib.Data.List.Pairwise

/-!
# Outcomes of tests

What a report says about a test is what was noted while the test ran: the numbers of the checks that
failed meanwhile, whichever test stated their expectations.  That is what happened to the
expectations of the test itself as long as their checks are called in the test, and only there, and
each of them fails once at most.

## Main definitions

* `Engine.verdicts`: how checks turn out
* `SuiteEvent.FailsOn`: a check fails on an expectation
* `SuiteEvent.outcomeOf`: the outcome of a test, from what happened in it
* `SuiteEvent.Settles`: what fails on the expectations of a test fails in it
* `SuiteEvent.Tells`: the outcome of a test tells what failed on its expectations

## Main results

* `Suite.runSource_tests`: what a report says about the tests of a file
-/

namespace EcmaEval

/-! ## Runs with checks -/

/-- How checks turn out: as an engine of some fuel runs them. -/
def Engine.verdicts : Verdicts := fun matcher actual args m verdict m' =>
  ∃ fuel, (ofFuel fuel).check matcher actual args m = .ok verdict m'

namespace Discipline

/-- The discipline of all code, which tells how the checks of a run turn out. -/
def judging : Discipline :=
  { all with
    judges := Engine.verdicts
    judged := fun fuel _ _ _ _ _ _ h => ⟨fuel, h⟩ }

instance : judging.Permissive := ⟨fun _ => trivial, trivial⟩

theorem follows_evaluate {D : Discipline} [D.Permissive] {m : Machine} (h : m.signal = none)
    (source : String) : m.Follows D.judges True (m.evaluate source).machine := by
  have hrests : D.Rests m := ⟨holds m, h⟩
  unfold Machine.evaluate
  split
  · next p _ =>
    have : Engine.standard.Obeys D := Engine.obeys_ofFuel D _
    have hp : p.Every m.options D.rule := fun s _ => every_rule s
    have := steady_executeProgram Engine.standard hp m.realm.programFrame
    exact follows_perform hrests
  · exact .refl m

end Discipline

/-! ## What an outcome tells -/

namespace SuiteEvent

/-- The check fails, on one of the objects of an expectation of its number. -/
def FailsOn (c e : SuiteEvent) : Prop :=
  ∃ id number, c = .check id number true ∧ e.stated? = some number ∧ e.Makes id

/-- The outcome of a test that ran to its end, from what happened in it. -/
def outcomeOf (inner : List SuiteEvent) : TestOutcome :=
  if inner.filterMap stated? = [] then .noAssertions
  else if inner.filterMap failure? = [] then .passed
  else .failed (inner.filterMap failure?)

theorem outcome_afterAll (inner : List SuiteEvent) :
    (RunningTest.afterAll {} inner).outcome = outcomeOf inner := by
  have hassertions : (RunningTest.afterAll {} inner).assertions = _ :=
    RunningTest.assertions_afterAll {} inner
  have hfailures : (RunningTest.afterAll {} inner).failures = _ :=
    RunningTest.failures_afterAll {} inner
  unfold RunningTest.outcome outcomeOf
  rw [hassertions, hfailures]
  simp

/-- Among the events of a run, what fails on the expectations of a test fails in that test, once for
each of them, and nothing else fails there. -/
structure Settles (es inner : List SuiteEvent) : Prop where
  own : ∀ c ∈ inner, c.failure? ≠ none → ∃ e ∈ inner, c.FailsOn e
  inside : ∀ e ∈ inner, ∀ c ∈ leavesAll es, c.FailsOn e → c ∈ inner
  once : inner.Pairwise fun c c' => ∀ e ∈ inner, c.FailsOn e → ¬ c'.FailsOn e

/-- The outcome of a test tells what failed on its expectations in a run: if some failed, it lists
their numbers, each of them once, and in any case the test has not passed if one did. -/
structure Tells (es inner : List SuiteEvent) (outcome : TestOutcome) : Prop where
  nodup : ∀ {numbers}, outcome = .failed numbers → numbers.Nodup
  listed : ∀ {numbers}, outcome = .failed numbers → ∀ number, number ∈ numbers ↔
    ∃ e ∈ inner, e.stated? = some number ∧ ∃ c ∈ leavesAll es, c.FailsOn e
  failed : ∀ e ∈ inner, ∀ c ∈ leavesAll es, c.FailsOn e → outcome ≠ .passed

theorem failure?_eq_some_iff {c : SuiteEvent} {number : Nat} :
    c.failure? = some number ↔ ∃ id, c = .check id number true := by
  constructor
  · intro h
    unfold failure? at h
    split at h
    · cases h
      exact ⟨_, rfl⟩
    · cases h
  · rintro ⟨id, rfl⟩
    rfl

theorem FailsOn.failure?_eq {c e : SuiteEvent} (h : c.FailsOn e) : c.failure? = e.stated? := by
  obtain ⟨id, number, rfl, he, -⟩ := h
  exact he.symm

theorem mem_leavesAll_of_failure? {c : SuiteEvent} {inner : List SuiteEvent} (hc : c ∈ inner)
    (hfails : c.failure? ≠ none) : c ∈ leavesAll inner := by
  obtain ⟨number, hnumber⟩ := Option.ne_none_iff_exists'.mp hfails
  obtain ⟨id, rfl⟩ := failure?_eq_some_iff.mp hnumber
  exact leaves_subset hc (List.mem_singleton_self _)

section Outcome

variable {es inner : List SuiteEvent}

/-- A check that fails while a test runs keeps the test from passing. -/
theorem outcomeOf_ne_passed {c : SuiteEvent} (hc : c ∈ inner) (hfails : c.failure? ≠ none) :
    outcomeOf inner ≠ .passed := by
  have hsome : inner.filterMap failure? ≠ [] := fun hnil =>
    hfails (List.filterMap_eq_nil_iff.mp hnil c hc)
  unfold outcomeOf
  rw [if_neg hsome]
  split <;> nofun

theorem eq_filterMap_of_outcomeOf {numbers : List Nat} (h : outcomeOf inner = .failed numbers) :
    numbers = inner.filterMap failure? := by
  unfold outcomeOf at h
  split at h
  · cases h
  · split at h
    · cases h
    · cases h
      rfl

/-- No two expectations of a test have the same number. -/
theorem NumberedFrom.eq_of_stated? {count : Nat} (h : NumberedFrom count inner)
    {e e' : SuiteEvent} (he : e ∈ inner) (he' : e' ∈ inner) {number : Nat}
    (hnumber : e.stated? = some number) (hnumber' : e'.stated? = some number) : e = e' := by
  have hnodup : (inner.filterMap stated?).Nodup := by
    rw [h]
    exact List.nodup_range'
  have hpairwise := List.pairwise_filterMap.mp hnodup
  by_contra hne
  have : Std.Symm fun e e' : SuiteEvent =>
      ∀ n, e.stated? = some n → ∀ n', e'.stated? = some n' → n ≠ n' :=
    ⟨fun _ _ h n hn n' hn' => (h n' hn' n hn).symm⟩
  exact hpairwise.forall he he' hne number hnumber number hnumber' rfl

/-- Where everything that fails on the expectations of a test fails in it, and just that, the
outcome tells it. -/
theorem Settles.tells (h : Settles es inner) (hnumbered : NumberedFrom 0 inner)
    (hleaves : leavesAll inner ⊆ leavesAll es) : Tells es inner (outcomeOf inner) where
  nodup hfailed := by
    rw [eq_filterMap_of_outcomeOf hfailed]
    refine List.pairwise_filterMap.mpr (h.once.imp_of_mem fun {c c'} hc hc' honce n hn n' hn' => ?_)
    rintro rfl
    obtain ⟨e, he, hfails⟩ := h.own c hc (by simp [hn])
    obtain ⟨e', he', hfails'⟩ := h.own c' hc' (by simp [hn'])
    -- Both checks fail on the one expectation of the number.
    cases hnumbered.eq_of_stated? he he' (hfails.failure?_eq ▸ hn) (hfails'.failure?_eq ▸ hn')
    exact honce e he hfails hfails'
  listed hfailed number := by
    rw [eq_filterMap_of_outcomeOf hfailed, List.mem_filterMap]
    constructor
    · rintro ⟨c, hc, hnumber⟩
      have hfails : c.failure? ≠ none := by simp [hnumber]
      obtain ⟨e, he, hon⟩ := h.own c hc hfails
      have hleaf := hleaves (mem_leavesAll_of_failure? hc hfails)
      exact ⟨e, he, hon.failure?_eq ▸ hnumber, c, hleaf, hon⟩
    · rintro ⟨e, he, hnumber, c, hc, hon⟩
      exact ⟨c, h.inside e he c hc hon, hon.failure?_eq.trans hnumber⟩
  failed e he c hc hon := by
    refine outcomeOf_ne_passed (h.inside e he c hc hon) ?_
    obtain ⟨id, number, rfl, -⟩ := hon
    nofun

end Outcome

end SuiteEvent

/-! ## Files of tests -/

namespace Suite

open SuiteEvent

/-- The machine that a file of tests starts on. -/
def start : Machine := Machine.initial.after Action.installSuite

/-- No check function is there before a test runs. -/
theorem assertion?_start (id : ObjectId) : start.heap.assertion? id = none := by
  have hnone : (start.heap.objects.all fun o =>
      (o.callable?.bind Callable.assertion?).isNone) = true := by decide +kernel
  rw [Array.all_eq_true] at hnone
  unfold Heap.assertion? Heap.get
  rw [Array.getD_eq_getD_getElem?]
  rcases Nat.lt_or_ge id.index start.heap.objects.size with hlt | hle
  · rw [Array.getElem?_eq_getElem hlt]
    exact Option.isNone_iff_eq_none.mp (hnone _ hlt)
  · rw [Array.getElem?_eq_none hle]
    rfl

theorem tests_start : start.tests.current = none ∧ start.tests.results = [] := by
  have h : (start.tests.current.isNone && start.tests.results.isEmpty) = true := by decide +kernel
  rw [Bool.and_eq_true] at h
  exact ⟨Option.isNone_iff_eq_none.mp h.1, List.isEmpty_iff.mp h.2⟩

theorem signal_start : start.signal = none :=
  (Discipline.rests_installSuite (D := .all) trivial Discipline.rests_initial).signal

/-- The tests of a report are those of the machine that the file leaves. -/
theorem tests_runSource (path source : String) :
    (runSource path source).found.tests = (start.evaluate source).machine.tests.results := rfl

/-- **What a report says about tests.**  A check that is called notes what it found about the test
that is running.  What happens to the tests of a file has a trace, in which no object belongs to two
expectations and each check that is called comes from an expectation of its number, and the report
has the tests that ran to their end.  A test that did not throw has run inside the trace: its
expectations are numbered in order, and its outcome comes from what happened in it alone, so it has
not passed if something failed in it.  The outcome tells what failed on its expectations in the
whole run if all of that failed in it, and nothing else did, once for each of them. -/
theorem runSource_tests (path source : String) :
    (∀ fuel matcher negated actual number this args m id,
      (Engine.ofFuel fuel).callNative (.suite (.check matcher negated actual number)) this args m =
        match (Engine.ofFuel fuel).check matcher actual args m with
        | .ok verdict m' => .ok .undefined (m'.note (.check id number (verdict == negated)))
        | .error e m' => .error e m') ∧
    ∃ es, start.Tests Engine.verdicts True es (start.evaluate source).machine ∧
      (runSource path source).found.tests = resultsAll es ∧
      ((leavesAll es).Pairwise fun e e' => ∀ id, e.Makes id → ¬ e'.Makes id) ∧
      (∀ {id number failed}, .check id number failed ∈ leavesAll es →
        ∃ e ∈ leavesAll es, e.stated? = some number ∧ e.Makes id) ∧
      ∀ r ∈ (runSource path source).found.tests, (∃ shown, r.outcome = .threw shown) ∨
        ∃ inner, Among (.test inner (some r)) es ∧ NumberedFrom 0 inner ∧
          r.outcome = outcomeOf inner ∧
          (∀ c ∈ inner, c.failure? ≠ none → r.outcome ≠ .passed) ∧
          (Settles es inner → Tells es inner r.outcome) := by
  refine ⟨fun fuel matcher negated actual number this args m id =>
    (Engine.ofFuel fuel).callSuite_check matcher negated actual number args m id, ?_⟩
  obtain ⟨es, hes⟩ :=
    (Discipline.follows_evaluate (D := .judging) signal_start source).tests
  have htests : (runSource path source).found.tests = resultsAll es := by
    rw [tests_runSource, hes.results_eq, tests_start.2, List.nil_append]
  refine ⟨es, hes, htests, hes.makes_once, fun hcheck => ?_, fun r hr => ?_⟩
  · rcases hes.checks_lent hcheck with ⟨a, ha, -⟩ | hmade
    · exact nomatch ha.symm.trans (assertion?_start _)
    · exact hmade
  · rw [htests] at hr
    refine (hes.exists_test hr).imp_right fun ⟨inner, hamong, hnumbered, houtcome⟩ => ?_
    rw [outcome_afterAll] at houtcome
    exact ⟨inner, hamong, hnumbered, houtcome,
      fun c hc hfails => houtcome ▸ outcomeOf_ne_passed hc hfails,
      fun hsettles => houtcome ▸ hsettles.tells hnumbered hamong.leaves_subset⟩

/-- Three tests: the second one calls a check of the first, and an expectation of the third fails
twice. -/
def strayChecks : String :=
  "let e;" ++
  "test('a', () => \x7b e = expect(true); e.toBeTrue() \x7d);" ++
  "test('b', () => \x7b expect(true).toBeTrue(); e.toBeFalse() \x7d);" ++
  "test('c', () => \x7b e = expect(true); e.toBeFalse(); e.toBeFalse() \x7d)"

/-- What fails on the expectation of the first test is held against the second, and the number of
the third is listed twice. -/
theorem runSource_tests_stray :
    (runSource "" strayChecks).found.tests =
        [⟨[], "a", .passed⟩, ⟨[], "b", .failed [1]⟩, ⟨[], "c", .failed [1, 1]⟩] ∧
      ∃ es inner, start.Tests Engine.verdicts True es (start.evaluate strayChecks).machine ∧
        Among (.test inner (some ⟨[], "c", .failed [1, 1]⟩)) es ∧
        inner.filterMap failure? = [1, 1] ∧ ¬ Settles es inner := by
  have htests : (runSource "" strayChecks).found.tests =
      [⟨[], "a", .passed⟩, ⟨[], "b", .failed [1]⟩, ⟨[], "c", .failed [1, 1]⟩] := by decide +kernel
  refine ⟨htests, ?_⟩
  obtain ⟨-, es, hes, -, -, -, houtcomes⟩ := runSource_tests "" strayChecks
  rcases houtcomes ⟨[], "c", .failed [1, 1]⟩ (by simp [htests]) with
    ⟨shown, hthrew⟩ | ⟨inner, hamong, -, houtcome, -, htells⟩
  · cases hthrew
  · refine ⟨es, inner, hes, hamong, (eq_filterMap_of_outcomeOf houtcome.symm).symm,
      fun hsettles => ?_⟩
    have hnodup := (htells hsettles).nodup rfl
    simp at hnodup

end Suite

end EcmaEval
