import EcmaEval.Suite.Declare

/-!
# Traces of tests

What happens to the tests of a suite while a program runs, as a tree: what happens inside a test
stands below it.  An expectation has a number in the test that states it, and its check functions
keep that number wherever they are called; what fails is noted in the test that is running then.

A run that nothing handles the end of may stop inside a test.  Then nothing is recorded about that
test.  Tests and groups put back what they change on the way out, so that the record of the test
around them and the groups around it are the ones from before, whatever way they end.

## Main definitions

* `Heap.assertion?`: what a check function checks
* `SuiteEvent`: what happens to the tests of a suite
* `RunningTest.afterAll`: what is noted about a test
* `Machine.Tests`: what happens to the tests between two machines

## Main results

* `Machine.Tests.current_eq`: what is noted about the test that is running
* `Machine.Tests.groups_eq`: the groups are the same again
* `Machine.Tests.results_eq`, `Machine.Tests.placed`: what is recorded, and under which groups
* `Machine.Tests.numberedFrom`: expectations are numbered in order
* `Machine.Tests.checks_lent`: each check function that is called comes from an expectation of its
  number
* `Machine.Tests.exists_test`: each outcome comes from what happened in a test
-/

namespace EcmaEval

/-! ## Check functions -/

/-- A check of a value, as a function object holds it. -/
structure Assertion where
  matcher : Matcher
  negated : Bool
  actual : Value
  /-- The number of the expectation in the test that states it. -/
  number : Nat

/-- The check that a callable makes. -/
def Callable.assertion? : Callable → Option Assertion
  | .native (.suite (.check matcher negated actual number)) =>
    some { matcher, negated, actual, number }
  | _ => none

namespace Heap

theorem get_of_size_le (h : Heap) {id : ObjectId} (hid : h.size ≤ id.index) :
    h.get id = default := by
  rw [get, Array.getD_eq_getD_getElem?, Array.getElem?_eq_none hid, Option.getD_none]

/-- The check that a function object makes. -/
def assertion? (h : Heap) (id : ObjectId) : Option Assertion :=
  (h.get id).callable?.bind Callable.assertion?

/-- No check functions were made. -/
structure KeepsChecks (h h' : Heap) : Prop where
  size_le : h.size ≤ h'.size
  kept : ∀ {id a}, h'.assertion? id = some a → h.assertion? id = some a

theorem KeepsChecks.refl (h : Heap) : h.KeepsChecks h := ⟨Nat.le_refl _, id⟩

theorem KeepsChecks.of_eq {h h' : Heap} (heq : h' = h) : h.KeepsChecks h' := heq ▸ .refl h

theorem index_lt_of_assertion? {h : Heap} {id : ObjectId} {a : Assertion}
    (ha : h.assertion? id = some a) : id.index < h.size := by
  refine Nat.lt_of_not_le fun hle => ?_
  rw [assertion?, h.get_of_size_le hle] at ha
  cases ha

end Heap

/-! ## Events -/

/-- What happens to the tests of a suite. -/
inductive SuiteEvent where
  /-- The test that is running states an expectation.  Its objects stand at the places from `first`
  until before `next`. -/
  | expect (number first next : Nat)
  /-- A check function was called, and its check came to an end. -/
  | check (id : ObjectId) (number : Nat) (failed : Bool)
  /-- A test ran, and this was recorded about it, if the run did not stop inside it. -/
  | test (inner : List SuiteEvent) (result : Option TestResult)
  /-- A group of the name is entered. -/
  | enter (name : String)
  /-- The group that was entered last is left. -/
  | leave
  /-- A group threw, and this was recorded about it. -/
  | group (result : TestResult)
  /-- A program ran in a realm of its own. -/
  | apart (inner : List SuiteEvent)

namespace SuiteEvent

/-- The number of the expectation that is stated. -/
def stated? : SuiteEvent → Option Nat
  | expect number .. => some number
  | _ => none

/-- The number of the assertion that fails. -/
def failure? : SuiteEvent → Option Nat
  | check _ number true => some number
  | _ => none

/-- The object is one of an expectation. -/
def Makes (id : ObjectId) : SuiteEvent → Prop
  | expect _ first next => first ≤ id.index ∧ id.index < next
  | _ => False

mutual

/-- What is recorded in the course of an event. -/
def results : SuiteEvent → List TestResult
  | test inner result => resultsAll inner ++ result.toList
  | group result => [result]
  | expect .. | check .. | enter _ | leave | apart _ => []

/-- What is recorded in the course of some events. -/
def resultsAll : List SuiteEvent → List TestResult
  | [] => []
  | e :: es => e.results ++ resultsAll es

end

mutual

/-- The expectations and the checks in the course of an event, in all tests. -/
def leaves : SuiteEvent → List SuiteEvent
  | test inner _ | apart inner => leavesAll inner
  | enter _ | leave | group _ => []
  | expect number first next => [expect number first next]
  | check id number failed => [check id number failed]

/-- The expectations and the checks in the course of some events, in all tests. -/
def leavesAll : List SuiteEvent → List SuiteEvent
  | [] => []
  | e :: es => e.leaves ++ leavesAll es

end

@[simp] theorem resultsAll_singleton (e : SuiteEvent) : resultsAll [e] = e.results :=
  List.append_nil _

@[simp] theorem leavesAll_singleton (e : SuiteEvent) : leavesAll [e] = e.leaves :=
  List.append_nil _

@[simp] theorem resultsAll_append (es es' : List SuiteEvent) :
    resultsAll (es ++ es') = resultsAll es ++ resultsAll es' := by
  induction es with
  | nil => simp [resultsAll]
  | cons e es ih => simp [resultsAll, ih]

@[simp] theorem leavesAll_append (es es' : List SuiteEvent) :
    leavesAll (es ++ es') = leavesAll es ++ leavesAll es' := by
  induction es with
  | nil => simp [leavesAll]
  | cons e es ih => simp [leavesAll, ih]

/-- A group states and checks nothing itself. -/
theorem leavesAll_inside (name : String) (es : List SuiteEvent) :
    leavesAll ([.enter name] ++ es ++ [.leave]) = leavesAll es := by
  rw [leavesAll_append, leavesAll_append]
  exact List.append_nil _

/-- What is read off the events in a group, if nothing is off the group itself. -/
theorem filterMap_inside {α : Type} {f : SuiteEvent → Option α} {name : String}
    (henter : f (.enter name) = none) (hleave : f .leave = none) (es : List SuiteEvent) :
    ([enter name] ++ es ++ [leave]).filterMap f = es.filterMap f := by
  simp [henter, hleave]

/-- A group records nothing itself. -/
theorem resultsAll_inside (name : String) (es : List SuiteEvent) :
    resultsAll ([.enter name] ++ es ++ [.leave]) = resultsAll es := by
  rw [resultsAll_append, resultsAll_append]
  exact List.append_nil _

/-- The groups behind an event. -/
def groupsAfter (groups : List String) : SuiteEvent → List String
  | enter name => groups ++ [name]
  | leave => groups.dropLast
  | _ => groups

/-- The groups behind some events. -/
def groupsAfterAll (groups : List String) (es : List SuiteEvent) : List String :=
  es.foldl groupsAfter groups

mutual

/-- What is recorded in the course of an event is recorded under the groups at hand. -/
def Placed (groups : List String) : SuiteEvent → Prop
  | test inner result => PlacedAll groups inner ∧ ∀ r ∈ result, r.groups = groups
  | group result => result.groups = groups
  | expect .. | check .. | enter _ | leave | apart _ => True

/-- What is recorded in the course of some events is recorded under the groups that were there
before and those that were entered since and not left, outermost first. -/
def PlacedAll (groups : List String) : List SuiteEvent → Prop
  | [] => True
  | e :: es => e.Placed groups ∧ PlacedAll (e.groupsAfter groups) es

end

theorem groupsAfterAll_append (groups : List String) (es es' : List SuiteEvent) :
    groupsAfterAll groups (es ++ es') = groupsAfterAll (groupsAfterAll groups es) es' :=
  List.foldl_append ..

theorem placedAll_append {groups : List String} {es es' : List SuiteEvent} :
    PlacedAll groups (es ++ es') ↔
      PlacedAll groups es ∧ PlacedAll (groupsAfterAll groups es) es' := by
  induction es generalizing groups with
  | nil => exact (and_iff_right trivial).symm
  | cons e es ih => exact (and_congr_right' ih).trans and_assoc.symm

/-- The event is one of some events, or stands below one of them. -/
inductive Among (e : SuiteEvent) : List SuiteEvent → Prop where
  | here {es : List SuiteEvent} (h : e ∈ es) : Among e es
  | test {es inner : List SuiteEvent} {result : Option TestResult} (h : .test inner result ∈ es)
    (hinner : Among e inner) : Among e es
  | apart {es inner : List SuiteEvent} (h : .apart inner ∈ es) (hinner : Among e inner) : Among e es

theorem Among.of_subset {e : SuiteEvent} {es es' : List SuiteEvent} (h : e.Among es)
    (hes : es ⊆ es') : e.Among es' := by
  cases h with
  | here h => exact .here (hes h)
  | test h hinner => exact .test (hes h) hinner
  | apart h hinner => exact .apart (hes h) hinner

theorem leaves_subset {e : SuiteEvent} {es : List SuiteEvent} (h : e ∈ es) :
    e.leaves ⊆ leavesAll es := by
  induction h with
  | head => exact List.subset_append_left ..
  | tail _ _ ih => exact List.Subset.trans ih (List.subset_append_right ..)

/-- What stands below an event happens in the course of it. -/
theorem Among.leaves_subset {e : SuiteEvent} {es : List SuiteEvent} (h : e.Among es) :
    e.leaves ⊆ leavesAll es := by
  induction h with
  | here h => exact SuiteEvent.leaves_subset h
  | test h _ ih => exact List.Subset.trans ih (SuiteEvent.leaves_subset h)
  | apart h _ ih => exact List.Subset.trans ih (SuiteEvent.leaves_subset h)

end SuiteEvent

namespace RunningTest

/-- What is noted about the test that is running.  What happens inside other tests is not. -/
def after (t : RunningTest) : SuiteEvent → RunningTest
  | .expect .. => { t with assertions := t.assertions + 1 }
  | .check _ number true => { t with failures := t.failures ++ [number] }
  | _ => t

def afterAll (t : RunningTest) (es : List SuiteEvent) : RunningTest := es.foldl after t

theorem afterAll_append (t : RunningTest) (es es' : List SuiteEvent) :
    t.afterAll (es ++ es') = (t.afterAll es).afterAll es' :=
  List.foldl_append ..

/-- A group does not note anything itself. -/
theorem afterAll_inside (t : RunningTest) (name : String) (es : List SuiteEvent) :
    t.afterAll ([.enter name] ++ es ++ [.leave]) = t.afterAll es := by
  rw [afterAll_append, afterAll_append]
  rfl

theorem assertions_afterAll (t : RunningTest) (es : List SuiteEvent) :
    (t.afterAll es).assertions = t.assertions + (es.filterMap SuiteEvent.stated?).length := by
  induction es generalizing t with
  | nil => rfl
  | cons e es ih =>
    refine (ih (t.after e)).trans ?_
    cases e with
    | expect => exact Nat.add_right_comm ..
    | check id number failed => cases failed <;> rfl
    | _ => rfl

theorem failures_afterAll (t : RunningTest) (es : List SuiteEvent) :
    (t.afterAll es).failures = t.failures ++ es.filterMap SuiteEvent.failure? := by
  induction es generalizing t with
  | nil => exact (List.append_nil _).symm
  | cons e es ih =>
    refine (ih (t.after e)).trans ?_
    cases e with
    | check id number failed =>
      cases failed with
      | false => rfl
      | true => exact List.append_assoc ..
    | _ => rfl

end RunningTest

/-! ## Traces -/

/-- How a check of a value may turn out between two machines. -/
abbrev Verdicts := Matcher → Value → List Value → Machine → Bool → Machine → Prop

namespace Machine

/-- The machine with an event noted about the test that is running. -/
def note (m : Machine) (e : SuiteEvent) : Machine :=
  { m with tests.current := m.tests.current.map (·.after e) }

/-- The machine with a new test running. -/
def startTest (m : Machine) : Machine := { m with tests.current := some {} }

/-- The machine with the test running that was running before. -/
def endTest (m before : Machine) : Machine :=
  { m with tests.current := before.tests.current }

/-- The machine inside another group. -/
def enterGroup (m : Machine) (name : String) : Machine :=
  { m with tests.groups := m.tests.groups ++ [name] }

/-- The machine outside of the innermost group. -/
def leaveGroup (m : Machine) : Machine := { m with tests.groups := m.tests.groups.dropLast }

/-- The machine with something recorded. -/
def withResult (m : Machine) (r : TestResult) : Machine :=
  { m with tests.results := m.tests.results ++ [r] }

/-- There is nothing to note about an assertion that holds. -/
theorem note_of_holds (m : Machine) (id : ObjectId) (number : Nat) :
    m.note (.check id number false) = m := by
  have hid : (fun t : RunningTest => t.after (.check id number false)) = fun t => t := rfl
  unfold note
  rw [hid, Option.map_id']

/-- What happens to the tests between two machines.  The run may stop at the second one only if
`mayStop` holds. -/
inductive Tests (judges : Verdicts) :
    (mayStop : Prop) → Machine → List SuiteEvent → Machine → Prop where
  | quiet {mayStop : Prop} {m m' : Machine} (htests : m'.tests = m.tests)
    (hheap : m.heap.KeepsChecks m'.heap) : Tests judges mayStop m [] m'
  | trans {mayStop : Prop} {m m' m'' : Machine} {es es' : List SuiteEvent}
    (h : Tests judges False m es m') (h' : Tests judges mayStop m' es' m'') :
    Tests judges mayStop m (es ++ es') m''
  /-- What else the machine holds is of no account. -/
  | rest {mayStop : Prop} {m m' m'' : Machine} {es : List SuiteEvent}
    (h : Tests judges mayStop m es m') (hheap : m''.heap = m'.heap)
    (htests : m''.tests = m'.tests) : Tests judges mayStop m es m''
  /-- All check functions that are made have the number of the expectation. -/
  | expect {mayStop : Prop} {m m' : Machine} {t : RunningTest} (hrunning : m.tests.current = some t)
    (htests : m'.tests = { m.tests with
      current := some { t with assertions := t.assertions + 1 } })
    (hsize : m.heap.size ≤ m'.heap.size)
    (hold : ∀ {id a}, id.index < m.heap.size → m'.heap.assertion? id = some a →
      m.heap.assertion? id = some a)
    (hnew : ∀ {id a}, m.heap.size ≤ id.index → m'.heap.assertion? id = some a →
      a.number = t.assertions + 1) :
    Tests judges mayStop m [.expect (t.assertions + 1) m.heap.size m'.heap.size] m'
  /-- What a check function finds is noted about the test that runs when the check is over, whether
  or not that test states the expectation.  Before the check starts, and while it runs, anything may
  happen. -/
  | check {mayStop : Prop} {m m₁ m₂ : Machine} {id : ObjectId} {a : Assertion}
    {es es' : List SuiteEvent} {args : List Value} {verdict : Bool}
    (hid : m.heap.assertion? id = some a) (hbefore : Tests judges False m es m₁)
    (hchecks : Tests judges False m₁ es' m₂)
    (hverdict : judges a.matcher a.actual args m₁ verdict m₂) :
    Tests judges mayStop m (es ++ es' ++ [.check id a.number (verdict == a.negated)])
      (m₂.note (.check id a.number (verdict == a.negated)))
  /-- A test runs.  What happens in it is noted about it alone, and the test around it goes on. -/
  | test {mayStop : Prop} {m m' : Machine} {es : List SuiteEvent} {r : TestResult}
    (h : Tests judges False m.startTest es m')
    (hr : r.outcome = (RunningTest.afterAll {} es).outcome ∨ ∃ shown, r.outcome = .threw shown)
    (hgroups : r.groups = m.tests.groups) :
    Tests judges mayStop m [.test es (some r)] ((m'.endTest m).withResult r)
  /-- Something happens inside a group. -/
  | inside {mayStop : Prop} {m m' : Machine} {es : List SuiteEvent} {name : String}
    (h : Tests judges mayStop (m.enterGroup name) es m') :
    Tests judges mayStop m ([.enter name] ++ es ++ [.leave]) m'.leaveGroup
  | group {mayStop : Prop} {m : Machine} {r : TestResult} {shown : String}
    (hr : r.outcome = .threw shown) (hgroups : r.groups = m.tests.groups) :
    Tests judges mayStop m [.group r] (m.withResult r)
  /-- The run stops inside a test. -/
  | stop {mayStop : Prop} {m m' : Machine} {es : List SuiteEvent} (hstop : mayStop)
    (h : Tests judges mayStop m.startTest es m') :
    Tests judges mayStop m [.test es none] (m'.endTest m)
  /-- A program runs in a realm of its own, which has no tests. -/
  | apart {mayStop mayStop' : Prop} {m m₁ m₂ m' : Machine} {es : List SuiteEvent}
    (hstart : m₁.heap = m.heap) (h : Tests judges mayStop' m₁ es m₂)
    (hend : m'.heap = m₂.heap) (htests : m'.tests = m.tests) :
    Tests judges mayStop m [.apart es] m'

namespace Tests

variable {judges : Verdicts} {mayStop mayStop' : Prop} {m m' : Machine} {es : List SuiteEvent}

theorem of_eq (hheap : m'.heap = m.heap) (htests : m'.tests = m.tests) :
    Tests judges mayStop m [] m' :=
  .quiet htests (.of_eq hheap)

theorem mono (h : Tests judges mayStop m es m') (himp : mayStop → mayStop') :
    Tests judges mayStop' m es m' := by
  induction h with
  | quiet htests hheap => exact .quiet htests hheap
  | trans h _ _ ih' => exact .trans h (ih' himp)
  | rest _ hheap htests ih => exact .rest (ih himp) hheap htests
  | expect hrunning htests hsize hold hnew => exact .expect hrunning htests hsize hold hnew
  | check hid hbefore hchecks hverdict => exact .check hid hbefore hchecks hverdict
  | test h hr hgroups => exact .test h hr hgroups
  | inside _ ih => exact .inside (ih himp)
  | group hr hgroups => exact .group hr hgroups
  | stop hstop _ ih => exact .stop (himp hstop) (ih himp)
  | apart hstart h hend htests => exact .apart hstart h hend htests

/-- Nothing happens around what is put in between. -/
theorem enclosed {m₁ m₂ : Machine} (h : Tests judges mayStop m₁ es m₂) (hheap : m₁.heap = m.heap)
    (htests : m₁.tests = m.tests) (hheap' : m'.heap = m₂.heap) (htests' : m'.tests = m₂.tests) :
    Tests judges mayStop m es m' :=
  .rest (.trans (.of_eq hheap htests) h) hheap' htests'

/-- What is noted about the test that is running. -/
theorem current_eq (h : Tests judges mayStop m es m') :
    m'.tests.current = m.tests.current.map (·.afterAll es) := by
  have hsame (current : Option RunningTest) : current = current.map (·.afterAll []) := by
    cases current <;> rfl
  -- What happens inside another test, or apart, is not noted about this one.
  have hbelow (current : Option RunningTest) (e : SuiteEvent)
      (he : ∀ t : RunningTest, t.after e = t) : current = current.map (·.afterAll [e]) := by
    cases current with
    | none => rfl
    | some t => exact congrArg some (he t).symm
  induction h with
  | quiet htests => rw [htests, ← hsame]
  | trans _ _ ih ih' =>
    rw [ih', ih, Option.map_map]
    simp only [Function.comp_def, RunningTest.afterAll_append]
  | rest _ _ htests ih => rw [htests, ih]
  | expect hrunning htests =>
    rw [htests, hrunning]
    rfl
  | check _ _ _ _ ih ih' =>
    change Option.map _ _ = _
    rw [ih', ih, Option.map_map, Option.map_map]
    simp only [Function.comp_def, RunningTest.afterAll_append]
    rfl
  | inside _ ih =>
    simp only [RunningTest.afterAll_inside]
    exact ih
  | test | stop | group => exact hbelow _ _ fun _ => rfl
  | apart _ _ _ htests =>
    rw [htests]
    exact hbelow _ _ fun _ => rfl

/-- The groups are the same again. -/
theorem groups_eq (h : Tests judges mayStop m es m') : m'.tests.groups = m.tests.groups := by
  induction h with
  | quiet htests => rw [htests]
  | trans _ _ ih ih' => rw [ih', ih]
  | rest _ _ htests ih => rw [htests, ih]
  | expect _ htests => rw [htests]
  | check _ _ _ _ ih ih' => exact ih'.trans ih
  | test _ _ _ ih | stop _ _ ih => exact ih
  | inside _ ih =>
    rw [leaveGroup, ih]
    exact List.dropLast_concat ..
  | group => rfl
  | apart _ _ _ htests => rw [htests]

/-- What was recorded. -/
theorem results_eq (h : Tests judges mayStop m es m') :
    m'.tests.results = m.tests.results ++ SuiteEvent.resultsAll es := by
  induction h with
  | quiet htests => rw [htests, SuiteEvent.resultsAll, List.append_nil]
  | trans _ _ ih ih' => rw [ih', ih, SuiteEvent.resultsAll_append, List.append_assoc]
  | rest _ _ htests ih => rw [htests, ih]
  | expect _ htests => simp [htests, SuiteEvent.results]
  | check _ _ _ _ ih ih' => simp [note, ih', ih, SuiteEvent.results]
  | test _ _ _ ih => simp [withResult, endTest, ih, startTest, SuiteEvent.results]
  | inside _ ih =>
    rw [SuiteEvent.resultsAll_inside]
    exact ih
  | group => simp [withResult, SuiteEvent.results]
  | stop _ _ ih => simp [endTest, ih, startTest, SuiteEvent.results]
  | apart _ _ _ htests => simp [htests, SuiteEvent.results]

/-- Groups are left in the reverse order of that in which they were entered. -/
theorem groupsAfterAll_eq (h : Tests judges mayStop m es m') (groups : List String) :
    SuiteEvent.groupsAfterAll groups es = groups := by
  induction h generalizing groups with
  | quiet | expect | test | group | stop | apart => rfl
  | trans _ _ ih ih' => rw [SuiteEvent.groupsAfterAll_append, ih, ih']
  | rest _ _ _ ih => exact ih groups
  | check _ _ _ _ ih ih' =>
    rw [SuiteEvent.groupsAfterAll_append, SuiteEvent.groupsAfterAll_append, ih, ih']
    rfl
  | inside _ ih =>
    rw [SuiteEvent.groupsAfterAll_append, SuiteEvent.groupsAfterAll_append, ih]
    exact List.dropLast_concat ..

/-- Each result is recorded under the groups that were there before and those that were entered
since and not left. -/
theorem placed (h : Tests judges mayStop m es m') : SuiteEvent.PlacedAll m.tests.groups es := by
  have happend {m m' : Machine} {es es' : List SuiteEvent} (h : Tests judges False m es m')
      (hes : SuiteEvent.PlacedAll m.tests.groups es)
      (hes' : SuiteEvent.PlacedAll m'.tests.groups es') :
      SuiteEvent.PlacedAll m.tests.groups (es ++ es') := by
    -- What comes later starts under the same groups, as those entered since have been left.
    rw [h.groups_eq] at hes'
    exact SuiteEvent.placedAll_append.mpr ⟨hes, (h.groupsAfterAll_eq _).symm ▸ hes'⟩
  induction h with
  | quiet => trivial
  | trans h _ ih ih' => exact happend h ih ih'
  | rest _ _ _ ih => exact ih
  | check _ hbefore _ _ ih ih' =>
    exact SuiteEvent.placedAll_append.mpr ⟨happend hbefore ih ih', trivial, trivial⟩
  | test _ _ hgroups ih => exact ⟨⟨ih, fun _ hr => Option.some.inj hr ▸ hgroups⟩, trivial⟩
  | stop _ _ ih => exact ⟨⟨ih, fun _ hr => nomatch hr⟩, trivial⟩
  | inside _ ih =>
    exact SuiteEvent.placedAll_append.mpr
      ⟨SuiteEvent.placedAll_append.mpr ⟨⟨trivial, trivial⟩, ih⟩, trivial, trivial⟩
  | group _ hgroups => exact ⟨hgroups, trivial⟩
  | expect | apart => exact ⟨trivial, trivial⟩

end Tests

end Machine

/-- The expectations among the events are numbered in order, behind the first `count`. -/
def SuiteEvent.NumberedFrom (count : Nat) (es : List SuiteEvent) : Prop :=
  es.filterMap stated? = List.range' (count + 1) (es.filterMap stated?).length

theorem SuiteEvent.NumberedFrom.append {t : RunningTest} {es es' : List SuiteEvent}
    (h : NumberedFrom t.assertions es) (h' : NumberedFrom (t.afterAll es).assertions es') :
    NumberedFrom t.assertions (es ++ es') := by
  unfold NumberedFrom at *
  rw [RunningTest.assertions_afterAll, Nat.add_right_comm] at h'
  rw [List.filterMap_append, List.length_append, ← List.range'_append_1, ← h, ← h']

namespace Machine

namespace Tests

variable {judges : Verdicts} {mayStop : Prop} {m m' : Machine} {es : List SuiteEvent}

theorem running_eq (h : Tests judges mayStop m es m') {t : RunningTest}
    (ht : m.tests.current = some t) : m'.tests.current = some (t.afterAll es) := by
  rw [h.current_eq, ht, Option.map_some]

/-- Expectations are numbered in order, behind those that the test that is running has stated. -/
theorem numberedFrom (h : Tests judges mayStop m es m') {t : RunningTest}
    (ht : m.tests.current = some t) : SuiteEvent.NumberedFrom t.assertions es := by
  induction h generalizing t with
  | trans h _ ih ih' => exact (ih ht).append (ih' (h.running_eq ht))
  | rest _ _ _ ih => exact ih ht
  | expect hrunning =>
    cases ht.symm.trans hrunning
    rfl
  | check _ hbefore _ _ ih ih' =>
    have hruns := (ih ht).append (ih' (hbefore.running_eq ht))
    exact hruns.append rfl
  | inside _ ih =>
    unfold SuiteEvent.NumberedFrom
    rw [SuiteEvent.filterMap_inside (f := SuiteEvent.stated?) rfl rfl]
    exact ih ht
  | quiet | test | group | stop | apart => rfl

/-! ### Where check functions come from -/

theorem size_le (h : Tests judges mayStop m es m') : m.heap.size ≤ m'.heap.size := by
  induction h with
  | quiet _ hheap => exact hheap.size_le
  | trans _ _ ih ih' => exact Nat.le_trans ih ih'
  | rest _ hheap _ ih => exact hheap ▸ ih
  | expect _ _ hsize => exact hsize
  | check _ _ _ _ ih ih' => exact Nat.le_trans ih ih'
  | test _ _ _ ih | stop _ _ ih | inside _ ih => exact ih
  | group => exact Nat.le_refl _
  | apart hstart _ hend _ ih => exact hend ▸ hstart ▸ ih

/-- The objects of an expectation are new. -/
theorem makes_bounds (h : Tests judges mayStop m es m') {e : SuiteEvent}
    (he : e ∈ SuiteEvent.leavesAll es) {id : ObjectId} (hmakes : e.Makes id) :
    m.heap.size ≤ id.index ∧ id.index < m'.heap.size := by
  induction h with
  | quiet | group => cases he
  | trans h h' ih ih' =>
    rw [SuiteEvent.leavesAll_append, List.mem_append] at he
    rcases he with he | he
    · exact ⟨(ih he).1, Nat.lt_of_lt_of_le (ih he).2 h'.size_le⟩
    · exact ⟨Nat.le_trans h.size_le (ih' he).1, (ih' he).2⟩
  | rest _ hheap _ ih => exact hheap ▸ ih he
  | expect =>
    cases List.mem_singleton.mp he
    exact hmakes
  | check _ h h' _ ih ih' =>
    rw [SuiteEvent.leavesAll_append, SuiteEvent.leavesAll_append, List.mem_append,
      List.mem_append] at he
    rcases he with (he | he) | he
    · exact ⟨(ih he).1, Nat.lt_of_lt_of_le (ih he).2 h'.size_le⟩
    · exact ⟨Nat.le_trans h.size_le (ih' he).1, (ih' he).2⟩
    · cases List.mem_singleton.mp he
      exact hmakes.elim
  | test _ _ _ ih | stop _ _ ih => exact ih (by rwa [SuiteEvent.leavesAll_singleton] at he)
  | inside _ ih => exact ih (by rwa [SuiteEvent.leavesAll_inside] at he)
  | apart hstart _ hend _ ih =>
    rw [← hstart, hend]
    exact ih (by rwa [SuiteEvent.leavesAll_singleton] at he)

/-- No object is one of two expectations. -/
theorem makes_once (h : Tests judges mayStop m es m') :
    (SuiteEvent.leavesAll es).Pairwise fun e e' => ∀ id, e.Makes id → ¬ e'.Makes id := by
  have happend {mayStop : Prop} {m m' m'' : Machine} {es es' : List SuiteEvent}
      (h : Tests judges False m es m') (h' : Tests judges mayStop m' es' m'') :
      ∀ e ∈ SuiteEvent.leavesAll es, ∀ e' ∈ SuiteEvent.leavesAll es',
        ∀ id, e.Makes id → ¬ e'.Makes id := by
    intro e he e' he' id hmakes hmakes'
    -- The objects of what comes later stand behind all those that were there then.
    have hlt := (h.makes_bounds he hmakes).2
    have hle := (h'.makes_bounds he' hmakes').1
    omega
  induction h with
  | quiet | group => exact .nil
  | trans h h' ih ih' =>
    rw [SuiteEvent.leavesAll_append]
    exact List.pairwise_append.mpr ⟨ih, ih', happend h h'⟩
  | rest _ _ _ ih => exact ih
  | expect => exact List.pairwise_singleton ..
  | check _ h h' _ ih ih' =>
    rw [SuiteEvent.leavesAll_append, SuiteEvent.leavesAll_append]
    refine List.pairwise_append.mpr ⟨List.pairwise_append.mpr ⟨ih, ih', happend h h'⟩,
      List.pairwise_singleton .., fun e _ e' he' id _ hmakes' => ?_⟩
    cases List.mem_singleton.mp he'
    exact hmakes'
  | test _ _ _ ih | stop _ _ ih | apart _ _ _ _ ih => rwa [SuiteEvent.leavesAll_singleton]
  | inside _ ih => rwa [SuiteEvent.leavesAll_inside]

end Tests

/-- A check function of the number was there already, or is made for an expectation of that
number. -/
def Lends (m : Machine) (es : List SuiteEvent) (id : ObjectId) (number : Nat) : Prop :=
  (∃ a, m.heap.assertion? id = some a ∧ a.number = number) ∨
    ∃ e ∈ SuiteEvent.leavesAll es, e.stated? = some number ∧ e.Makes id

section Lends

variable {judges : Verdicts} {mayStop : Prop} {m m' : Machine} {es es' : List SuiteEvent}
  {id : ObjectId} {number : Nat}

theorem Lends.mono (h : m.Lends es id number)
    (hes : SuiteEvent.leavesAll es ⊆ SuiteEvent.leavesAll es') : m.Lends es' id number :=
  h.imp_right fun ⟨e, he, hmade⟩ => ⟨e, hes he, hmade⟩

theorem Lends.append (h : m'.Lends es' id number)
    (hold : ∀ {a}, m'.heap.assertion? id = some a → m.Lends es id a.number) :
    m.Lends (es ++ es') id number := by
  rcases h with ⟨a, ha, rfl⟩ | ⟨e, he, hmade⟩
  · exact (hold ha).mono (by simp)
  · exact .inr ⟨e, by simp [he], hmade⟩

/-- Where the check functions come from that are there in the end. -/
theorem Tests.lends (h : Tests judges mayStop m es m') {a : Assertion}
    (ha : m'.heap.assertion? id = some a) : m.Lends es id a.number := by
  induction h generalizing a with
  | quiet _ hheap => exact .inl ⟨a, hheap.kept ha, rfl⟩
  | trans _ _ ih ih' => exact (ih' ha).append ih
  | rest _ hheap _ ih => exact ih (hheap ▸ ha)
  | @expect _ m m' t _ _ hsize hold hnew =>
    -- A check function was there before the expectation, or is made for it.
    rcases Nat.lt_or_ge id.index m.heap.size with hlt | hle
    · exact .inl ⟨a, hold hlt ha, rfl⟩
    · refine .inr ⟨_, List.mem_singleton_self _, ?_, hle, Heap.index_lt_of_assertion? ha⟩
      rw [hnew hle ha]
      rfl
  | check _ _ _ _ ih ih' => exact ((ih' ha).append ih).mono (by simp)
  | test _ _ _ ih | stop _ _ ih => exact (ih ha).mono (by simp [SuiteEvent.leaves])
  | inside _ ih => exact (ih ha).mono (by rw [SuiteEvent.leavesAll_inside]; exact List.Subset.refl _)
  | group => exact .inl ⟨a, ha, rfl⟩
  | apart hstart _ hend _ ih =>
    have hlends := ih (hend ▸ ha)
    unfold Lends at hlends ⊢
    rw [hstart] at hlends
    simpa [SuiteEvent.leaves] using hlends

/-- Each check function that is called comes from an expectation of its number. -/
theorem Tests.checks_lent (h : Tests judges mayStop m es m') {failed : Bool}
    (he : .check id number failed ∈ SuiteEvent.leavesAll es) : m.Lends es id number := by
  induction h with
  | quiet | group => cases he
  | trans h _ ih ih' =>
    rw [SuiteEvent.leavesAll_append, List.mem_append] at he
    rcases he with he | he
    · exact (ih he).mono (by simp)
    · exact (ih' he).append h.lends
  | rest _ _ _ ih => exact ih he
  | expect => cases List.mem_singleton.mp he
  | check hid h _ _ ih ih' =>
    rw [SuiteEvent.leavesAll_append, SuiteEvent.leavesAll_append, List.mem_append,
      List.mem_append] at he
    rcases he with (he | he) | he
    · exact (ih he).mono fun _ hmem => by simp [hmem]
    · exact ((ih' he).append h.lends).mono (by simp)
    · cases List.mem_singleton.mp he
      exact .inl ⟨_, hid, rfl⟩
  | test _ _ _ ih | stop _ _ ih =>
    exact (ih (by rwa [SuiteEvent.leavesAll_singleton] at he)).mono (by simp [SuiteEvent.leaves])
  | inside _ ih =>
    rw [SuiteEvent.leavesAll_inside] at he
    exact (ih he).mono (by rw [SuiteEvent.leavesAll_inside]; exact List.Subset.refl _)
  | apart hstart _ hend _ ih =>
    have hlends := ih (by rwa [SuiteEvent.leavesAll_singleton] at he)
    unfold Lends at hlends ⊢
    rw [hstart] at hlends
    simpa [SuiteEvent.leaves] using hlends

end Lends

/-- What is recorded is that a test or a group threw, or else what was noted about a test. -/
theorem Tests.exists_test {judges : Verdicts} {mayStop : Prop} {m m' : Machine}
    {es : List SuiteEvent} (h : Tests judges mayStop m es m') {r : TestResult}
    (hr : r ∈ SuiteEvent.resultsAll es) :
    (∃ shown, r.outcome = .threw shown) ∨
      ∃ inner, SuiteEvent.Among (.test inner (some r)) es ∧ SuiteEvent.NumberedFrom 0 inner ∧
        r.outcome = (RunningTest.afterAll {} inner).outcome := by
  induction h with
  | quiet => cases hr
  | trans _ _ ih ih' =>
    rw [SuiteEvent.resultsAll_append, List.mem_append] at hr
    rcases hr with hr | hr
    · exact (ih hr).imp_right fun ⟨inner, h, hinner⟩ =>
        ⟨inner, h.of_subset (List.subset_append_left ..), hinner⟩
    · exact (ih' hr).imp_right fun ⟨inner, h, hinner⟩ =>
        ⟨inner, h.of_subset (List.subset_append_right ..), hinner⟩
  | rest _ _ _ ih => exact ih hr
  | expect => cases hr
  | check _ _ _ _ ih ih' =>
    simp only [SuiteEvent.resultsAll_append, SuiteEvent.resultsAll_singleton, List.mem_append] at hr
    rcases hr with (hr | hr) | hr
    · exact (ih hr).imp_right fun ⟨inner, h, hinner⟩ =>
        ⟨inner, h.of_subset (by simp), hinner⟩
    · exact (ih' hr).imp_right fun ⟨inner, h, hinner⟩ =>
        ⟨inner, h.of_subset (by simp), hinner⟩
    · cases hr
  | inside _ ih =>
    rw [SuiteEvent.resultsAll_inside] at hr
    exact (ih hr).imp_right fun ⟨inner, h, hinner⟩ => ⟨inner, h.of_subset (by simp), hinner⟩
  | test h houtcome _ ih =>
    simp only [SuiteEvent.resultsAll_singleton, SuiteEvent.results, List.mem_append,
      Option.toList_some, List.mem_singleton] at hr
    rcases hr with hr | rfl
    · exact (ih hr).imp_right fun ⟨inner, h, hinner⟩ =>
        ⟨inner, .test (List.mem_singleton_self _) h, hinner⟩
    · rcases houtcome with houtcome | hthrew
      · exact .inr ⟨_, .here (List.mem_singleton_self _), h.numberedFrom rfl, houtcome⟩
      · exact .inl hthrew
  | group hthrew =>
    rw [SuiteEvent.resultsAll_singleton] at hr
    cases List.mem_singleton.mp hr
    exact .inl ⟨_, hthrew⟩
  | stop _ _ ih =>
    simp only [SuiteEvent.resultsAll_singleton, SuiteEvent.results, Option.toList_none,
      List.append_nil] at hr
    exact (ih hr).imp_right fun ⟨inner, h, hinner⟩ =>
      ⟨inner, .test (List.mem_singleton_self _) h, hinner⟩
  | apart => cases hr

end Machine

end EcmaEval
