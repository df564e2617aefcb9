import EcmaEval.Proofs.Run.Suite
import EcmaEval.Session

/-!
# Calls and sessions

A call runs what the machine holds.  With calls, constructions and settlements the circle closes: an
engine keeps to a discipline if the engine below it does, and the engine that runs nothing keeps to
each.

A host starts with the library alone, and reads, runs and calls from there.  Each of these steps
keeps to a discipline that the code it brings in obeys.

## Main definitions

* `Discipline.Rests`: a machine between two steps of the host
* `Machine.Reached`: the machines that the steps of a host lead to
* `Site.Stray`: a node that can be written, but breaks down for its shape
* `Discipline.read`: the discipline that everything that is read keeps to

## Main results

* `Discipline.steady_callFunction`, `Discipline.steady_constructFunction`: what a function object
  runs
* `Engine.obeys_ofFuel`: the engine of any fuel keeps to each discipline
* `Discipline.rests_perform`, `Discipline.rests_run`: what the host runs
* `Machine.Reached.rests`: a host comes to no machine that breaks a discipline
* `Site.Readable.breaks_iff`: of the nodes that are read, only two kinds break down for their shape
-/

namespace EcmaEval

namespace Discipline

open EcmaEval.Action Engine

variable {D : Discipline}

/-! ## Calls and constructions -/

section Calls

variable (engine : Engine) [hengine : engine.Obeys D]

/-- The functions that are not written in the program, other than checks. -/
theorem steady_callNative {f : Native} (h : D.AllowsCallable (.native f))
    (hcheck : Callable.assertion? (.native f) = none) (this : Value) (args : List Value) :
    D.Steady (engine.callNative f this args) := by
  unfold callNative
  cases f with
  | suite f => exact steady_callSuite h hcheck args
  | _ => infer_instance

section Callables

variable {m : Machine} {id : ObjectId} (hm : D.Holds m)

include hm

/-- What a function object runs may be held by the machine. -/
theorem ends_readCallable (hsignal : m.signal = none) (hcheck : m.heap.assertion? id = none)
    {k : Option Callable → Action Value}
    (hk : ∀ found, (∀ f ∈ found, D.AllowsCallable f ∧ f.assertion? = none) → D.Steady (k found)) :
    D.Ends m (fun _ after => after = none ∧ True)
      ((readHeap (fun h => (h.get id).callable?) >>= k) m) := by
  rw [bind_apply]
  refine (hk _ fun f hf => ⟨hm.callable hf, ?_⟩).keeps m hm hsignal
  rw [Heap.assertion?, hf, Option.bind_some] at hcheck
  exact hcheck

/-- A check function runs its check, on a machine that follows the one in which it is called. -/
theorem ends_underTarget_check {a : Assertion} (ha : m.heap.assertion? id = some a) {m₁ : Machine}
    (hbefore : m.Follows D.judges False m₁) (hm₁ : D.Holds m₁) (hsignal₁ : m₁.signal = none)
    (target : Option ObjectId) (this : Value) (args : List Value) :
    D.Ends m (fun _ after => after = none ∧ True)
      (underTarget target (engine.callNative
        (.suite (.check a.matcher a.negated a.actual a.number)) this args) m₁) := by
  have hsuites : D.suites := hm.callable (Heap.callable?_of_assertion? ha)
  have hfollows : Machine.Follows D.judges False { m with newTarget := target }
      { m₁ with newTarget := target } :=
    hbefore.enclosed rfl rfl rfl rfl ⟨rfl, hbefore.joining⟩
  have ha' : ({ m with newTarget := target } : Machine).heap.assertion? id = some a := ha
  exact .underTarget hbefore.newTarget
    (ends_callCheck hsuites ha' hfollows ⟨hm₁.callable, hm₁.superCall⟩ hsignal₁ args)

end Callables

theorem steady_callFunction (id : ObjectId) (this : Value) (args : List Value) :
    D.Steady (engine.callFunction id this args) := by
  refine ⟨fun m hm hsignal => ?_⟩
  unfold callFunction
  -- A check function needs to be there when its check is noted.
  cases ha : m.heap.assertion? id with
  | some a =>
    rw [bind_apply]
    simp only [readHeap, Heap.callable?_of_assertion? ha]
    exact ends_underTarget_check engine hm ha (.refl m) hm hsignal none this args
  | none =>
    -- What is called is something that the machine holds, so its code obeys the rule.
    refine ends_readCallable hm hsignal ha fun found hfound => ?_
    split
    case h_1 node scope home =>
      exact steady_callClosure engine (hfound _ rfl).1 scope home this args
    case h_3 f =>
      have := steady_callNative engine (hfound _ rfl).1 (hfound _ rfl).2 this args
      infer_instance
    all_goals infer_instance

instance (newTarget : ObjectId) (f : Value → Action Value) [∀ this, D.Steady (f this)] :
    D.Steady (engine.constructWith newTarget f) := by
  unfold constructWith
  infer_instance

theorem steady_constructFunction (id : ObjectId) (args : List Value) (newTarget : ObjectId) :
    D.Steady (engine.constructFunction id args newTarget) := by
  refine ⟨fun m hm hsignal => ?_⟩
  unfold constructFunction
  cases ha : m.heap.assertion? id with
  | some a =>
    rw [bind_apply]
    simp only [readHeap, Heap.callable?_of_assertion? ha, constructWith]
    have hallocates : D.Steady (engine.allocateInstance newTarget) := inferInstance
    have hend := hallocates.keeps m hm hsignal
    rw [bind_apply]
    generalize engine.allocateInstance newTarget m = result at hend
    -- The object is allocated first, which may call functions of the program.
    cases hend with
    | error hm₁ hfollows hnone he => exact .error hm₁ hfollows hnone he
    | @ok o m₁ hm₁ hfollows hx =>
      have hcall := ends_underTarget_check engine hm ha hfollows hm₁ hx.1 (some newTarget)
        (.object o) args
      dsimp only
      rw [bind_apply]
      generalize underTarget _ _ m₁ = result at hcall
      cases hcall with
      | error hm₂ hfollows' hnone he => exact .error hm₂ hfollows' hnone he
      | ok hm₂ hfollows' hx' => exact .ok hm₂ hfollows' hx'
  | none =>
    refine ends_readCallable hm hsignal ha fun found hfound => ?_
    split
    case h_1 node scope home =>
      have hcall (this : Value) := steady_callClosure engine (hfound _ rfl).1 scope home this args
      infer_instance
    case h_2 definition => exact steady_constructInstance engine (hfound _ rfl).1 args newTarget
    case h_3 f =>
      have hcall (this : Value) :=
        steady_callNative engine (hfound _ rfl).1 (hfound _ rfl).2 this args
      infer_instance
    all_goals infer_instance

end Calls

end Discipline

/-! ## Engines that run -/

namespace Engine

open Discipline

variable (D : Discipline)

theorem obeys_idle : idle.Obeys D where
  evaluateAs _ _ _ := ⟨keeps_exhausted⟩
  evaluateSuper _ _ _ := ⟨keeps_exhausted⟩
  execute _ _ := Runs.mono (keeps_exhausted (P := fun _ => True)) fun _ _ h =>
    h.1 ▸ allowsExit_none
  call _ _ _ := ⟨keeps_exhausted⟩
  construct _ _ _ := ⟨keeps_exhausted⟩
  settle _ _ := ⟨keeps_exhausted⟩
  judges h := D.judged 0 h

/-- The engine of any fuel keeps to each discipline. -/
instance obeys_ofFuel (fuel : Nat) : (ofFuel fuel).Obeys D := by
  -- Induction on the fuel: each part of an engine runs its own parts on the engine below.
  induction fuel with
  | zero => exact obeys_idle D
  | succ fuel ih =>
    exact {
      evaluateAs := fun h name scope => steady_evaluateExpression _ h name scope
      evaluateSuper := fun h name scope => ⟨keeps_breakDown h⟩
      execute := fun h scope => runs_executeStatement _ h scope
      call := fun id this args => steady_callFunction _ id this args
      construct := fun id args newTarget => steady_constructFunction _ id args newTarget
      settle := fun id outcome =>
        inferInstanceAs (D.Steady ((ofFuel fuel).settlePromise id outcome))
      judges := fun h => D.judged (fuel + 1) h }

end Engine

/-! ## Sessions -/

namespace Discipline

open EcmaEval.Action

variable (D : Discipline)

/-- The machine keeps to the discipline, and nothing is asked for. -/
structure Rests (m : Machine) : Prop where
  holds : D.Holds m
  signal : m.signal = none

variable {D}

theorem rests_empty : D.Rests Machine.empty where
  holds := {
    -- There is no object yet, so nothing is held, and no frame that could hold anything.
    callable := fun {id f} h => by
      have hnone : (Machine.empty.heap.get id).callable? = none := rfl
      exact nomatch hnone.symm.trans h
    superCall := fun {id call} h => by
      have hnone : (Machine.empty.frames.get id).superCall = none := rfl
      exact nomatch hnone.symm.trans h }
  signal := rfl

theorem rests_after {a : Action Unit} [ha : D.Steady a] {m : Machine} (h : D.Rests m) :
    D.Rests (m.after a) := by
  have hend := ha.keeps m h.holds h.signal
  unfold Machine.after
  generalize a m = result at hend
  cases hend with
  | ok hm' hsame hx => exact ⟨hm', hx.1⟩
  | error hm' hsame hnone he => exact ⟨hm', hnone⟩

/-- What the host does follows, whatever way it ends. -/
theorem follows_after {a : Action Unit} [ha : D.Steady a] {m : Machine} (h : D.Rests m) :
    m.Follows D.judges True (m.after a) := by
  have hend := ha.keeps m h.holds h.signal
  unfold Machine.after
  generalize a m = result at hend
  cases hend with
  | ok hm' hfollows hx => exact hfollows.mono fun _ => trivial
  | error hm' hfollows hnone he => exact hfollows.mono fun _ => trivial

/-- The library is written in no program. -/
theorem rests_initial : D.Rests Machine.initial := rests_after rests_empty

/-- What the host runs leaves a machine for the next step, and breaks down only as it may. -/
theorem rests_perform {a : Action Value} [ha : D.Steady a] {m : Machine} (h : D.Rests m) :
    D.Rests (m.perform a).machine ∧
      ∀ cause, (m.perform a).outcome = .error (.broken cause) → D.breakdown cause := by
  have hend := ha.keeps m h.holds h.signal
  unfold Machine.perform
  generalize a m = result at hend
  cases hend with
  | ok hm' hsame hx => exact ⟨⟨⟨hm'.callable, hm'.superCall⟩, rfl⟩, nofun⟩
  | @error e m' hm' hsame hnone he =>
    -- The host drops what is asked for behind an error, too.
    have hrests : D.Rests m'.clearSignal := ⟨⟨hm'.callable, hm'.superCall⟩, rfl⟩
    cases e with
    | thrown v => exact ⟨hrests, nofun⟩
    | broken cause =>
      refine ⟨hrests, fun cause' h => ?_⟩
      cases h
      exact he
    | exhausted => exact ⟨hrests, nofun⟩

/-- What the host runs follows, whatever way it ends. -/
theorem follows_perform {a : Action Value} [ha : D.Steady a] {m : Machine} (h : D.Rests m) :
    m.Follows D.judges True (m.perform a).machine := by
  have hend := ha.keeps m h.holds h.signal
  unfold Machine.perform
  generalize a m = result at hend
  have hcleared {mayStop : Prop} {m' : Machine} (hfollows : m.Follows D.judges mayStop m') :
      m.Follows D.judges True m'.clearSignal :=
    (hfollows.mono fun _ => trivial).enclosed rfl rfl rfl rfl
      ⟨hfollows.newTarget, hfollows.joining⟩
  cases hend with
  | ok hm' hfollows hx => exact hcleared hfollows
  | @error e m' hm' hfollows hnone he => cases e <;> exact hcleared hfollows

theorem rests_run {m : Machine} (h : D.Rests m) {options : ParseOptions} {p : Program}
    (hp : p.Every options D.rule) :
    D.Rests (m.run p).machine ∧
      ∀ cause, (m.run p).outcome = .error (.broken cause) → D.breakdown cause := by
  have : Engine.standard.Obeys D := Engine.obeys_ofFuel D _
  have := steady_executeProgram Engine.standard hp m.realm.programFrame
  exact rests_perform h

theorem rests_call {m : Machine} (h : D.Rests m) (callee this : Value) (args : List Value) :
    D.Rests (m.call callee this args).machine ∧
      ∀ cause, (m.call callee this args).outcome = .error (.broken cause) → D.breakdown cause := by
  have : Engine.standard.Obeys D := Engine.obeys_ofFuel D _
  exact rests_perform h

theorem rests_hostFunction {m : Machine} (h : D.Rests m) (f : HostFunction) :
    D.Rests (m.hostFunction f).machine := by
  have : D.Steady (newNative (.host f)) := steady_newNative trivial rfl
  exact (rests_perform h).1

theorem rests_define {m : Machine} (h : D.Rests m) (name : String) (value : Value) :
    D.Rests (m.define name value) :=
  rests_after (a := modifyFrame m.realm.programFrame (·.declareVariable name value)) h

theorem rests_withOptions {m : Machine} (h : D.Rests m) (options : ParseOptions) :
    D.Rests (m.withOptions options) :=
  ⟨⟨h.holds.callable, h.holds.superCall⟩, h.signal⟩

theorem rests_clearOutput {m : Machine} (h : D.Rests m) : D.Rests m.clearOutput :=
  ⟨⟨h.holds.callable, h.holds.superCall⟩, h.signal⟩

theorem steady_installSuite (hsuites : D.suites) : D.Steady installSuite := by
  unfold installSuite
  refine .bind fun scope => ?_
  have hloop : ∀ f ∈ [SuiteFunction.test, .describe, .expect],
      D.Steady (newNative (.suite f)) := by
    simp only [List.forall_mem_cons]
    exact ⟨steady_newNative hsuites rfl, steady_newNative hsuites rfl,
      steady_newNative hsuites rfl, nofun⟩
  refine .andThen (Steady.forIn_mem (fun f hf _ => ?_) _) fun _ => inferInstance
  have := hloop f hf
  infer_instance

/-- The functions of a suite are lent to programs only where a machine may hold them. -/
theorem rests_installSuite (hsuites : D.suites) {m : Machine} (h : D.Rests m) :
    D.Rests (m.after installSuite) :=
  have := steady_installSuite hsuites
  rests_after h

end Discipline

/-- The machines that the steps of a host lead to.  All sites of the programs that it runs obey
`rule`, and it lends the functions of a suite to them only if `suites` holds. -/
inductive Machine.Reached (rule : Site → Prop) (suites : Prop) : Machine → Prop where
  | initial : Reached rule suites Machine.initial
  | installSuite {m : Machine} (h : Reached rule suites m) (hsuites : suites) :
    Reached rule suites (m.after Action.installSuite)
  | run {m : Machine} (h : Reached rule suites m) {options : ParseOptions} {source : String}
    {p : Program} (hread : Program.ofText options source = .ok p) (hp : p.Every options rule) :
    Reached rule suites (m.run p).machine
  | call {m : Machine} (h : Reached rule suites m) (callee this : Value) (args : List Value) :
    Reached rule suites (m.call callee this args).machine
  | define {m : Machine} (h : Reached rule suites m) (name : String) (value : Value) :
    Reached rule suites (m.define name value)
  | hostFunction {m : Machine} (h : Reached rule suites m) (f : HostFunction) :
    Reached rule suites (m.hostFunction f).machine
  | withOptions {m : Machine} (h : Reached rule suites m) (options : ParseOptions) :
    Reached rule suites (m.withOptions options)
  | clearOutput {m : Machine} (h : Reached rule suites m) : Reached rule suites m.clearOutput

section Reached

variable {rule : Site → Prop} {suites : Prop}

/-- What is read obeys both the rule of trees that are read and that of the host. -/
theorem Program.every_of_ofText {D : Discipline} (hrule : ∀ s, s.Read → rule s → D.rule s)
    {options : ParseOptions} {source : String} {p : Program}
    (hread : Program.ofText options source = .ok p) (hp : p.Every options rule) :
    p.Every options D.rule :=
  fun s hs => ((Program.read_of_ofText hread s hs).and (hp s hs)).mono
    fun t ht => hrule t ht.1 ht.2

/-- A host comes to no machine that breaks a discipline which the rule of the host is part of. -/
theorem Machine.Reached.rests {D : Discipline} (hrule : ∀ s, s.Read → rule s → D.rule s)
    (hsuites : suites → D.suites) {m : Machine} (h : m.Reached rule suites) : D.Rests m := by
  -- Induction on the steps of the host.
  induction h with
  | initial => exact Discipline.rests_initial
  | installSuite _ hinstall ih => exact Discipline.rests_installSuite (hsuites hinstall) ih
  | run _ hread hp ih => exact (Discipline.rests_run ih (Program.every_of_ofText hrule hread hp)).1
  | call _ callee this args ih => exact (Discipline.rests_call ih callee this args).1
  | define _ name value ih => exact Discipline.rests_define ih name value
  | hostFunction _ f ih => exact Discipline.rests_hostFunction ih f
  | withOptions _ options ih => exact Discipline.rests_withOptions ih options
  | clearOutput _ ih => exact Discipline.rests_clearOutput ih

end Reached

/-! ## What is read -/

/-- A node that can be written, but breaks down for its shape. -/
inductive Site.Stray : Site → Breakdown → Prop where
  | bigint {c : Surroundings} {digits : String} (h : Numeral.Fractional digits) :
    Stray (c.expression (.literal (.bigint digits))) (.malformed "BigInt literal" digits)
  | newSuper {c : Surroundings} {args : List Expression} :
    Stray (c.expression (.new .super args)) .straySuper

/-- Every other shape that breaks down cannot be written. -/
theorem Site.Readable.breaks_iff {s : Site} (h : s.Readable) {b : Breakdown} :
    s.Breaks b ↔ s.Stray b := by
  obtain ⟨hpermitted, hshape⟩ := h
  constructor
  · intro hb
    cases hb with
    | bigint hdigits => exact .bigint (hshape.mp hdigits)
    | member hm hvalue hspread hfunction =>
      obtain hkind | hkind | ⟨f, hf⟩ := hshape _ hm
      · exact absurd hkind hvalue
      · exact absurd hkind hspread
      · exact absurd hf (hfunction f)
    | template hnone => exact absurd hnone hpermitted.2
    | super => exact hpermitted.elim
    | newSuper => exact .newSuper
    | spread => exact hshape.elim
    | assign htarget => exact absurd (htarget.symm.trans hshape) Bool.false_ne_true
    -- Targets that are read are even simple ones, which are no patterns.
    | update htarget | forIn htarget | forOf htarget =>
      exact absurd (htarget.symm.trans (Grammar.isTarget_of_simple hshape)) Bool.false_ne_true
  · intro hb
    cases hb with
    | bigint hdigits => exact .bigint (hshape.mpr hdigits)
    | newSuper => exact .newSuper

/-- The discipline that everything that is read keeps to. -/
def Discipline.read : Discipline where
  rule := Site.Readable
  breakdown b := b.IsShapeless ∨ ∃ s : Site, s.Stray b
  aimed := True
  suites := True
  shapeless := .inl
  breaks h hb := .inr ⟨_, h.breaks_iff.mp hb⟩
  permitted _ _ h := h.1
  readable _ _ h := h.1

/-- A host that runs whatever can be read keeps to the discipline. -/
theorem Machine.Reached.rests_read {rule : Site → Prop} {suites : Prop} {m : Machine}
    (h : m.Reached rule suites) : Discipline.read.Rests m :=
  h.rests (fun _ hs _ => hs.1) fun _ => trivial

end EcmaEval
