import EcmaEval.Proofs.Run.Session

/-!
# Registers

Whatever code the machine holds, each evaluation, call and construction puts the registers back,
also when it ends in an error.  No rule is needed for that, so the discipline of all code shows it.

## Main definitions

* `Discipline.Permissive`: each machine keeps to the discipline
* `Machine.Restored`: the registers are those of a machine in which nothing was asked for
* `Action.Restores`, `Action.RestoresOnFailure`: an action puts the registers back

## Main results

* `Engine.restores_registers`: evaluations, calls and constructions put the registers back, and
  only a construction starts a native function under a target
-/

namespace EcmaEval

/-- The discipline of all code. -/
def Discipline.all : Discipline where
  rule _ := True
  breakdown _ := True
  aimed := False
  suites := True
  shapeless _ := trivial
  breaks _ _ := trivial
  permitted h := h.elim
  readable _ _ _ := trivial

namespace Discipline

/-- All code obeys the rule, and the machine may hold suites. -/
class Permissive (D : Discipline) : Prop where
  rule : ∀ s, D.rule s
  suites : D.suites

instance : all.Permissive := ⟨fun _ => trivial, trivial⟩

section Permissive

variable {D : Discipline} [hD : D.Permissive]

theorem every_rule (s : Site) : s.Every D.rule := fun t _ => hD.rule t

theorem allowsFunction (f : FunctionNode) : D.AllowsFunction f :=
  ⟨{}, {}, ⟨rfl, rfl, rfl⟩, fun s _ => every_rule s⟩

theorem allowsClass (d : ClassDefinition) : D.AllowsClass d :=
  ⟨fun f _ => allowsFunction f, fun _ _ _ _ => ⟨{}, every_rule _⟩⟩

theorem allowsCallable (f : Callable) : D.AllowsCallable f := by
  cases f with
  | closure node scope home => exact allowsFunction node
  | «class» d => exact allowsClass d
  | native f =>
    cases f with
    | suite => exact hD.suites
    | _ => trivial
  | bound => trivial

/-- Each machine keeps to the discipline. -/
theorem holds (m : Machine) : D.Holds m :=
  ⟨fun _ => allowsCallable _, fun _ => allowsClass _⟩

end Permissive

end Discipline

/-- Nothing is asked for, and the other registers are those of the machine `m`. -/
structure Machine.Restored (m m' : Machine) : Prop where
  signal : m'.signal = none
  newTarget : m'.newTarget = m.newTarget
  joining : m'.joining = m.joining

namespace Action

variable {α : Type}

/-- From each machine in which nothing is asked for, the action ends with the registers put back. -/
def Restores (a : Action α) : Prop :=
  ∀ m, m.signal = none →
    match a m with
    | .ok _ m' => m.Restored m'
    | .error _ m' => m.Restored m'

/-- From each machine in which nothing is asked for, the action puts the registers back if it ends
in an error. -/
def RestoresOnFailure (a : Action α) : Prop :=
  ∀ m, m.signal = none →
    match a m with
    | .ok _ _ => True
    | .error _ m' => m.Restored m'

theorem restores_of_steady {a : Action α} [ha : Discipline.all.Steady a] : a.Restores := by
  intro m hm
  have hend := ha.keeps m (Discipline.holds m) hm
  generalize a m = result at hend ⊢
  cases hend with
  | ok hm' hsame hx => exact ⟨hx.1, hsame.newTarget, hsame.joining⟩
  | error hm' hsame hnone he => exact ⟨hnone, hsame.newTarget, hsame.joining⟩

theorem restoresOnFailure_of_runs {a : Action α} {P : α → Option Signal → Prop}
    (ha : Discipline.all.Runs none a P) : a.RestoresOnFailure := by
  intro m hm
  have hend := ha m (Discipline.holds m) hm
  generalize a m = result at hend ⊢
  cases hend with
  | ok hm' hsame hx => trivial
  | error hm' hsame hnone he => exact ⟨hnone, hsame.newTarget, hsame.joining⟩

end Action

namespace Engine

open Discipline

/-- A call starts a native function under no target. -/
theorem callFunction_native (engine : Engine) {id : ObjectId} {f : Native} {m : Machine}
    (h : (m.heap.get id).callable? = some (.native f)) (this : Value) (args : List Value) :
    engine.callFunction id this args m =
      match engine.callNative f this args { m with newTarget := none } with
      | .ok v m' => .ok v { m' with newTarget := m.newTarget }
      | .error e m' => .error e { m' with newTarget := m.newTarget } := by
  have hread : Action.readHeap (fun h => (h.get id).callable?) m = .ok (some (.native f)) m :=
    h ▸ rfl
  unfold callFunction
  rw [bind_apply, hread]
  dsimp only
  unfold Action.underTarget
  dsimp only
  cases engine.callNative f this args { m with newTarget := none } <;> rfl

/-- A construction starts a native function under its target, on the object that it allocates. -/
theorem constructFunction_native (engine : Engine) {id : ObjectId} {f : Native} {m : Machine}
    (h : (m.heap.get id).callable? = some (.native f)) (args : List Value) (target : ObjectId) :
    engine.constructFunction id args target m =
      match engine.allocateInstance target m with
      | .error e m' => .error e m'
      | .ok o m' =>
        match engine.callNative f (.object o) args { m' with newTarget := some target } with
        | .ok v m'' =>
          .ok (if v.isObject then v else .object o) { m'' with newTarget := m'.newTarget }
        | .error e m'' => .error e { m'' with newTarget := m'.newTarget } := by
  have hread : Action.readHeap (fun h => (h.get id).callable?) m = .ok (some (.native f)) m :=
    h ▸ rfl
  unfold constructFunction
  rw [bind_apply, hread]
  dsimp only
  unfold constructWith
  rw [bind_apply]
  cases engine.allocateInstance target m with
  | error e m' => rfl
  | ok o m' =>
    dsimp only
    rw [bind_apply]
    unfold Action.underTarget
    dsimp only
    cases engine.callNative f (.object o) args { m' with newTarget := some target } <;> rfl

theorem restores_callNative (fuel : Nat) (f : Native) (this : Value) (args : List Value) :
    ((ofFuel fuel).callNative f this args).Restores := by
  cases hcheck : Callable.assertion? (.native f) with
  | none =>
    have hsteady : all.Steady ((ofFuel fuel).callNative f this args) :=
      steady_callNative (ofFuel fuel) (all.allowsCallable (.native f)) hcheck this args
    exact Action.restores_of_steady
  | some a =>
    unfold Callable.assertion? at hcheck
    split at hcheck
    · next matcher negated actual number heq =>
      cases heq
      have hsteady : all.Steady ((ofFuel fuel).check matcher actual args) :=
        steady_check trivial matcher actual args
      intro m hm
      have hrestores :=
        Action.restores_of_steady m hm (a := (ofFuel fuel).check matcher actual args)
      unfold callNative
      dsimp only
      rw [(ofFuel fuel).callSuite_check _ _ _ _ _ _ default]
      generalize (ofFuel fuel).check matcher actual args m = result at hrestores
      cases result with
      | error e m' => exact hrestores
      -- Behind the check only the record of the tests changes.
      | ok verdict m' => exact ⟨hrestores.signal, hrestores.newTarget, hrestores.joining⟩
    · cases hcheck

/-- **Registers are put back.**  From every machine in which nothing is asked for, each evaluation,
call and construction ends with nothing asked for and with the target of `new` and the arrays being
joined as they were, whatever its outcome; a statement does so when it ends in an error.  The body
of a native function starts under a target just when it was entered through a construction. -/
theorem restores_registers (fuel : Nat) :
    (∀ name scope e, ((ofFuel fuel).evaluateExpression name scope e).Restores) ∧
    (∀ id this args, ((ofFuel fuel).callFunction id this args).Restores) ∧
    (∀ f this args, ((ofFuel fuel).callNative f this args).Restores) ∧
    (∀ id args target, ((ofFuel fuel).constructFunction id args target).Restores) ∧
    (∀ scope s, ((ofFuel fuel).executeStatement scope s).RestoresOnFailure) ∧
    (∀ id f this args m, (m.heap.get id).callable? = some (.native f) →
      (ofFuel fuel).callFunction id this args m =
        match (ofFuel fuel).callNative f this args { m with newTarget := none } with
        | .ok v m' => .ok v { m' with newTarget := m.newTarget }
        | .error e m' => .error e { m' with newTarget := m.newTarget }) ∧
    (∀ id f args target m, (m.heap.get id).callable? = some (.native f) →
      (ofFuel fuel).constructFunction id args target m =
        match (ofFuel fuel).allocateInstance target m with
        | .error e m' => .error e m'
        | .ok o m' =>
          match (ofFuel fuel).callNative f (.object o) args
              { m' with newTarget := some target } with
          | .ok v m'' =>
            .ok (if v.isObject then v else .object o) { m'' with newTarget := m'.newTarget }
          | .error e m'' => .error e { m'' with newTarget := m'.newTarget }) := by
  -- All code obeys the rule, so any surroundings will do.
  have hexpression (e : Expression) : (Surroundings.expression {} e).Every all.rule :=
    every_rule _
  have hstatement (s : Statement) : (Surroundings.statement {} s).Every all.rule :=
    every_rule _
  refine ⟨fun name scope e => ?_, fun id this args => ?_, fun f this args => ?_,
    fun id args target => ?_, fun scope s => ?_, fun id f this args m h => ?_,
    fun id f args target m h => ?_⟩
  · have := steady_evaluateExpression (ofFuel fuel) (hexpression e) name scope
    exact Action.restores_of_steady
  · have := steady_callFunction (D := all) (ofFuel fuel) id this args
    exact Action.restores_of_steady
  · exact restores_callNative fuel f this args
  · have := steady_constructFunction (D := all) (ofFuel fuel) id args target
    exact Action.restores_of_steady
  · exact Action.restoresOnFailure_of_runs
      (runs_executeStatement (ofFuel fuel) (hstatement s) scope)
  · exact callFunction_native (ofFuel fuel) h this args
  · exact constructFunction_native (ofFuel fuel) h args target

/-- A machine with the library, in the middle of a construction and of a join. -/
def interrupted : Machine :=
  { Machine.initial with newTarget := some ⟨1⟩, joining := [⟨2⟩] }

theorem signal_interrupted : interrupted.signal = none := by
  dsimp only [interrupted]
  exact (Discipline.rests_initial (D := .all)).signal

/-- A join inside a join, which calls a method that throws what it constructs. -/
def throwingJoin : Expression :=
  match Program.ofText {} "[[0, \x7btoString() \x7bthrow new Error('a')\x7d\x7d]].join()" with
  | .ok ⟨[.expression e]⟩ => e
  | _ => .this

/-- The error that a run throws, as it is shown. -/
def thrownText {α : Type} : EStateM.Result Abrupt Machine α → Option String
  | .error (.thrown v) m => some (m.heap.show v)
  | _ => none

theorem thrownText_throwingJoin :
    thrownText ((ofFuel standardFuel).evaluateExpression "" interrupted.realm.programFrame
      throwingJoin interrupted) = some "Error: a" := by
  decide +kernel

/-- A function that is not written in the program. -/
def isNative : Callable → Bool
  | .native _ => true
  | _ => false

theorem exists_native_interrupted :
    ∃ id f, (interrupted.heap.get id).callable? = some (.native f) := by
  have hnative : (interrupted.heap.get ⟨30⟩).callable?.any isNative = true := by decide +kernel
  obtain ⟨callable, hcallable, hnative⟩ := (Option.any_eq_true isNative _).mp hnative
  cases callable with
  | native f => exact ⟨⟨30⟩, f, hcallable⟩
  | _ => cases hnative

/-- The error leaves two joins and a construction, and the registers are those from before.  A native
function starts under no target when it is called, and under its target when it constructs. -/
theorem restores_registers_throwingJoin :
    interrupted.signal = none ∧
    (∃ v m', (ofFuel standardFuel).evaluateExpression "" interrupted.realm.programFrame
        throwingJoin interrupted = .error (.thrown v) m' ∧
      m'.heap.show v = "Error: a" ∧ interrupted.Restored m') ∧
    ∃ id f, (interrupted.heap.get id).callable? = some (.native f) ∧
      (ofFuel standardFuel).callFunction id .undefined [] interrupted =
        (match (ofFuel standardFuel).callNative f .undefined []
            { interrupted with newTarget := none } with
        | .ok v m' => .ok v { m' with newTarget := interrupted.newTarget }
        | .error e m' => .error e { m' with newTarget := interrupted.newTarget }) ∧
      (ofFuel standardFuel).constructFunction id [] id interrupted =
        match (ofFuel standardFuel).allocateInstance id interrupted with
        | .error e m' => .error e m'
        | .ok o m' =>
          match (ofFuel standardFuel).callNative f (.object o) []
              { m' with newTarget := some id } with
          | .ok v m'' =>
            .ok (if v.isObject then v else .object o) { m'' with newTarget := m'.newTarget }
          | .error e m'' => .error e { m'' with newTarget := m'.newTarget } := by
  obtain ⟨hexpression, -, -, -, -, hcall, hconstruct⟩ := restores_registers standardFuel
  -- That an error is thrown is computed, and what it leaves of the registers is not.
  refine ⟨signal_interrupted, ?_, ?_⟩
  · have hrestored := hexpression "" interrupted.realm.programFrame throwingJoin interrupted
      signal_interrupted
    have hthrown := thrownText_throwingJoin
    generalize (ofFuel standardFuel).evaluateExpression "" interrupted.realm.programFrame
      throwingJoin interrupted = result at hrestored hthrown
    cases result with
    | ok v m' => cases hthrown
    | error e m' =>
      cases e with
      | thrown v => exact ⟨v, m', rfl, Option.some.inj hthrown, hrestored⟩
      | broken | exhausted => cases hthrown
  · obtain ⟨id, f, hnative⟩ := exists_native_interrupted
    exact ⟨id, f, hnative, hcall id f .undefined [] interrupted hnative,
      hconstruct id f [] id interrupted hnative⟩

end Engine

end EcmaEval
