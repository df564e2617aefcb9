import EcmaEval.Eval.Call
import EcmaEval.Proofs.Run.Discipline

/-!
# Parts of a run

A phrase is run by an engine, which it asks for its parts.  No run keeps a record of what it asked
for, but its outcome tells: a part belongs to a run just when the outcome shows how that part breaks
down.  So the parts of a run are found by comparing engines that break down at one point, each in a
way of its own.

Two such engines are compared phrase by phrase: either the outcomes are the same, because the point
was not met, or each of them is the breakdown of its engine.  Nothing between the point and the
phrase turns a breakdown into anything else, or runs anything behind it.

## Main definitions

* `Query`: what an engine can be asked to run
* `Halt`: a breakdown and the machine that it leaves
* `Engine.haltingAt`: the engine that breaks down at one point
* `Engine.Asks`: a run asks its engine for a part
* `PartOf`: the parts of a run, their parts and so on
* `Alike`: two actions differ at most in how they break down
-/

namespace EcmaEval

/-! ## Queries -/

/-- What an engine can be asked to run. -/
inductive Query where
  | evaluate (name : String) (scope : FrameId) (e : Expression)
  | execute (scope : FrameId) (s : Statement)
  | call (id : ObjectId) (this : Value) (args : List Value)
  | construct (id : ObjectId) (args : List Value) (newTarget : ObjectId)
  | settle (id : ObjectId) (outcome : Settlement)

/-- What the run of a query gives. -/
abbrev Query.Answer : Query → Type
  | .settle .. => Unit
  | _ => Value

namespace Engine

/-- The run of a query by an engine. -/
def answer (engine : Engine) : (q : Query) → Action q.Answer
  | .evaluate name scope e => engine.evaluateAs name scope e
  | .execute scope s => engine.execute scope s
  | .call id this args => engine.call id this args
  | .construct id args newTarget => engine.construct id args newTarget
  | .settle id outcome => engine.settle id outcome

/-- The run of a query with an engine for its parts. -/
def phrase (engine : Engine) : (q : Query) → Action q.Answer
  | .evaluate name scope e => engine.evaluateExpression name scope e
  | .execute scope s => engine.executeStatement scope s
  | .call id this args => engine.callFunction id this args
  | .construct id args newTarget => engine.constructFunction id args newTarget
  | .settle id outcome => engine.settlePromise id outcome

theorem answer_ofFuel_succ (fuel : Nat) (q : Query) :
    (ofFuel (fuel + 1)).answer q = (ofFuel fuel).phrase q := by
  cases q <;> rfl

end Engine

/-! ## Breakdowns -/

/-- A breakdown and the machine that it leaves. -/
structure Halt where
  cause : Breakdown
  machine : Machine

/-- The machines are the same, except for the registers that an action puts back on its way out: the
target of `new`, the joins, and which groups and which test are running. -/
def Machine.SameButRegisters (m m' : Machine) : Prop :=
  m' = { m with
    newTarget := m'.newTarget
    joining := m'.joining
    tests := { m.tests with groups := m'.tests.groups, current := m'.tests.current } }

namespace Machine.SameButRegisters

theorem trans {m m' m'' : Machine} (h : m.SameButRegisters m') (h' : m'.SameButRegisters m'') :
    m.SameButRegisters m'' := by
  rw [SameButRegisters, h', h]

/-- The record of the tests is put back, up to the results that it holds. -/
theorem withTests {m m' : Machine} {log : TestLog} (h : m.SameButRegisters m')
    (hresults : log.results = m'.tests.results) : m.SameButRegisters { m' with tests := log } := by
  obtain ⟨groups, current, results⟩ := log
  subst hresults
  rw [SameButRegisters, h]

end Machine.SameButRegisters

/-- The result is a breakdown, and the machine is as the breakdown left it. -/
def Halt.Ends {α : Type} (h : Halt) (result : EStateM.Result Abrupt Machine α) : Prop :=
  ∃ m, result = .error (.broken h.cause) m ∧ h.machine.SameButRegisters m

open Classical in
/-- The action, but where a condition holds it breaks down from one machine. -/
noncomputable def Action.haltingAt {α : Type} (condition : Prop) (m : Machine) (h : Halt)
    (a : Action α) : Action α := fun m' =>
  if condition ∧ m' = m then .error (.broken h.cause) h.machine else a m'

/-- The engine that breaks down at one query on one machine, and else does what `engine` does. -/
noncomputable def Engine.haltingAt (engine : Engine) (q : Query) (m : Machine) (h : Halt) :
    Engine where
  fuel := engine.fuel
  evaluateAs name scope e :=
    (engine.evaluateAs name scope e).haltingAt (q = .evaluate name scope e) m h
  execute scope s := (engine.execute scope s).haltingAt (q = .execute scope s) m h
  call id this args := (engine.call id this args).haltingAt (q = .call id this args) m h
  construct id args newTarget :=
    (engine.construct id args newTarget).haltingAt (q = .construct id args newTarget) m h
  settle id outcome := (engine.settle id outcome).haltingAt (q = .settle id outcome) m h

/-! ## Parts -/

/-- The run of an action asks its engine for a query on a machine: its outcome depends on how that
breaks down. -/
def Engine.Asks {α : Type} (engine : Engine) (run : Engine → Action α) (m : Machine) (q : Query)
    (m' : Machine) : Prop :=
  ∃ h h', run (engine.haltingAt q m' h) m ≠ run (engine.haltingAt q m' h') m

/-- A check whether a text evaluates.  It runs the text in a realm of its own, as a run of its
own. -/
def Native.runsApart : Native → Bool
  | .suite (.check .toEval ..) | .suite (.check .toEvalTo ..) => true
  | _ => false

/-- The query calls a check that runs a text of its own. -/
def Machine.RunsApart (m : Machine) : Query → Prop
  | .call id .. | .construct id .. =>
    ∃ f, (m.heap.get id).callable? = some (.native f) ∧ f.runsApart = true
  | _ => False

/-- In the run of an action by the engine of `fuel` from the machine `m`, the engine of `k` is asked
for a query on a machine: by the action itself, or by a part of its run.  What a check runs apart is
no part. -/
inductive PartOf {α : Type} (run : Engine → Action α) (fuel : Nat) (m : Machine) :
    (k : Nat) → Query → Machine → Prop where
  | direct {q : Query} {m' : Machine} (h : (Engine.ofFuel fuel).Asks run m q m') :
    PartOf run fuel m fuel q m'
  | nested {k : Nat} {q q' : Query} {m' m'' : Machine} (hpart : PartOf run fuel m (k + 1) q m')
    (hown : ¬ m'.RunsApart q) (h : (Engine.ofFuel k).Asks (·.phrase q) m' q' m'') :
    PartOf run fuel m k q' m''

/-! ## Comparison -/

/-- The two actions end alike from every machine, or each of them in its breakdown. -/
class Alike (h h' : Halt) {α : Type} (a a' : Action α) : Prop where
  ends : ∀ m, a m = a' m ∨ h.Ends (a m) ∧ h'.Ends (a' m)

/-- The two engines run the parts of a phrase alike. -/
class Engine.Alike (h h' : Halt) (engine engine' : Engine) : Prop where
  fuel : engine'.fuel = engine.fuel
  evaluateAs : ∀ name scope e,
    EcmaEval.Alike h h' (engine.evaluateAs name scope e) (engine'.evaluateAs name scope e)
  execute : ∀ scope s, EcmaEval.Alike h h' (engine.execute scope s) (engine'.execute scope s)
  call : ∀ id this args,
    EcmaEval.Alike h h' (engine.call id this args) (engine'.call id this args)
  construct : ∀ id args newTarget,
    EcmaEval.Alike h h' (engine.construct id args newTarget) (engine'.construct id args newTarget)
  settle : ∀ id outcome,
    EcmaEval.Alike h h' (engine.settle id outcome) (engine'.settle id outcome)

namespace Alike

open EcmaEval.Action Discipline

variable {h h' : Halt} {α β : Type} {a a' b b' : Action α}

theorem haltingAt (condition : Prop) (m : Machine) (a : Action α) :
    Alike h h' (a.haltingAt condition m h) (a.haltingAt condition m h') := by
  refine ⟨fun m' => ?_⟩
  unfold Action.haltingAt
  split
  · exact .inr ⟨⟨_, rfl, rfl⟩, ⟨_, rfl, rfl⟩⟩
  · exact .inl rfl

/-- What asks for no part is like itself. -/
instance (priority := high) (a : Action α) : Alike h h' a a := ⟨fun _ => .inl rfl⟩

theorem bind {f f' : α → Action β} [ha : Alike h h' a a'] (hf : ∀ x, Alike h h' (f x) (f' x)) :
    Alike h h' (a >>= f) (a' >>= f') := by
  refine ⟨fun m => ?_⟩
  rw [bind_apply, bind_apply]
  rcases ha.ends m with heq | ⟨⟨n, hn, hsame⟩, ⟨n', hn', hsame'⟩⟩
  · rw [heq]
    cases a' m with
    | ok x m' => exact (hf x).ends m'
    | error e m' => exact .inl rfl
  -- Behind a breakdown nothing runs.
  · rw [hn, hn']
    exact .inr ⟨⟨n, rfl, hsame⟩, ⟨n', rfl, hsame'⟩⟩

instance {f f' : α → Action β} [Alike h h' a a'] [∀ x, Alike h h' (f x) (f' x)] :
    Alike h h' (a >>= f) (a' >>= f') :=
  .bind inferInstance

instance {p : Prop} [Decidable p] [Alike h h' a a'] [Alike h h' b b'] :
    Alike h h' (if p then a else b) (if p then a' else b') := by
  split <;> infer_instance

/-! ### Actions around actions -/

/-- What catches errors lets a breakdown pass. -/
instance [ha : Alike h h' a a'] : Alike h h' (attempt a) (attempt a') := by
  refine ⟨fun m => ?_⟩
  unfold attempt
  rcases ha.ends m with heq | ⟨⟨n, hn, hsame⟩, ⟨n', hn', hsame'⟩⟩
  · exact .inl (by rw [heq])
  · rw [hn, hn']
    exact .inr ⟨⟨n, rfl, hsame⟩, ⟨n', rfl, hsame'⟩⟩

instance (target : Option ObjectId) [ha : Alike h h' a a'] :
    Alike h h' (underTarget target a) (underTarget target a') := by
  refine ⟨fun m => ?_⟩
  unfold underTarget
  dsimp only
  rcases ha.ends { m with newTarget := target } with heq | ⟨⟨n, hn, hsame⟩, ⟨n', hn', hsame'⟩⟩
  · exact .inl (by rw [heq])
  · rw [hn, hn']
    exact .inr ⟨⟨_, rfl, by rw [Machine.SameButRegisters, hsame]⟩,
      ⟨_, rfl, by rw [Machine.SameButRegisters, hsame']⟩⟩

instance (id : ObjectId) [ha : Alike h h' a a'] :
    Alike h h' (whileJoining id a) (whileJoining id a') := by
  refine ⟨fun m => ?_⟩
  unfold whileJoining
  rcases ha.ends { m with joining := id :: m.joining } with
    heq | ⟨⟨n, hn, hsame⟩, ⟨n', hn', hsame'⟩⟩
  · exact .inl (by rw [heq])
  · rw [hn, hn']
    exact .inr ⟨⟨_, rfl, by rw [Machine.SameButRegisters, hsame]⟩,
      ⟨_, rfl, by rw [Machine.SameButRegisters, hsame']⟩⟩

/-- No result of a test is taken back. -/
theorem leavingTests {leave : TestLog → TestLog} (hleave : ∀ log, (leave log).results = log.results)
    [ha : Alike h h' a a'] : Alike h h' (leavingTests leave a) (leavingTests leave a') := by
  refine ⟨fun m => ?_⟩
  unfold Action.leavingTests
  rcases ha.ends m with heq | ⟨⟨n, hn, hsame⟩, ⟨n', hn', hsame'⟩⟩
  · exact .inl (by rw [heq])
  · rw [hn, hn']
    exact .inr ⟨⟨_, rfl, hsame.withTests (hleave _)⟩, ⟨_, rfl, hsame'.withTests (hleave _)⟩⟩

/-! ### Lists -/

section Lists

variable {γ σ : Type}

instance (xs : List γ) (s : σ) (f f' : γ → σ → Action (ForInStep σ))
    [hf : ∀ x s, Alike h h' (f x s) (f' x s)] : Alike h h' (forIn xs s f) (forIn xs s f') := by
  induction xs generalizing s with
  | nil =>
    rw [List.forIn_nil, List.forIn_nil]
    infer_instance
  | cons x xs ih =>
    rw [List.forIn_cons, List.forIn_cons]
    refine .bind fun step => ?_
    cases step with
    | done s => exact inferInstance
    | yield s => exact ih s

instance (xs : List γ) (f f' : γ → Action PUnit) [hf : ∀ x, Alike h h' (f x) (f' x)] :
    Alike h h' (xs.forM f) (xs.forM f') := by
  induction xs with
  | nil => exact inferInstanceAs (Alike h h' (pure _) (pure _))
  | cons x xs ih =>
    exact inferInstanceAs (Alike h h' (f x >>= fun _ => xs.forM f) (f' x >>= fun _ => xs.forM f'))

instance (xs : List γ) (f f' : γ → Action α) [hf : ∀ x, Alike h h' (f x) (f' x)] :
    Alike h h' (xs.mapM f) (xs.mapM f') := by
  induction xs with
  | nil =>
    rw [List.mapM_nil, List.mapM_nil]
    infer_instance
  | cons x xs ih =>
    rw [List.mapM_cons, List.mapM_cons]
    infer_instance

end Lists

/-! ### Parts -/

section Parts

variable {engine engine' : Engine} [hengine : Engine.Alike h h' engine engine']

instance (name : String) (scope : FrameId) (e : Expression) :
    Alike h h' (engine.evaluateAs name scope e) (engine'.evaluateAs name scope e) :=
  hengine.evaluateAs name scope e

instance (scope : FrameId) (e : Expression) :
    Alike h h' (engine.evaluate scope e) (engine'.evaluate scope e) :=
  hengine.evaluateAs "" scope e

instance (scope : FrameId) (s : Statement) :
    Alike h h' (engine.execute scope s) (engine'.execute scope s) :=
  hengine.execute scope s

instance (id : ObjectId) (this : Value) (args : List Value) :
    Alike h h' (engine.call id this args) (engine'.call id this args) :=
  hengine.call id this args

instance (id : ObjectId) (args : List Value) (newTarget : ObjectId) :
    Alike h h' (engine.construct id args newTarget) (engine'.construct id args newTarget) :=
  hengine.construct id args newTarget

instance (id : ObjectId) (outcome : Settlement) :
    Alike h h' (engine.settle id outcome) (engine'.settle id outcome) :=
  hengine.settle id outcome

end Parts

end Alike

/-- Engines that break down at the same point are alike. -/
instance Engine.alike_haltingAt (engine : Engine) (q : Query) (m : Machine) (h h' : Halt) :
    Engine.Alike h h' (engine.haltingAt q m h) (engine.haltingAt q m h') where
  fuel := rfl
  evaluateAs _ _ _ := .haltingAt _ _ _
  execute _ _ := .haltingAt _ _ _
  call _ _ _ := .haltingAt _ _ _
  construct _ _ _ := .haltingAt _ _ _
  settle _ _ := .haltingAt _ _ _

/-- A run ends in whatever breakdown there is at a point that it asks for. -/
theorem Engine.Asks.ends_haltingAt {α : Type} {run : Engine → Action α} {engine : Engine}
    {m m' : Machine} {q : Query} (hasks : engine.Asks run m q m')
    (hrun : ∀ {h h' : Halt} {engine engine' : Engine}, Engine.Alike h h' engine engine' →
      run engine m = run engine' m ∨ h.Ends (run engine m) ∧ h'.Ends (run engine' m)) (h : Halt) :
    h.Ends (run (engine.haltingAt q m' h) m) := by
  refine Classical.byContradiction fun hnot => ?_
  -- Else all breakdowns there would lead to the same end.
  have hall (h' : Halt) : run (engine.haltingAt q m' h') m = run (engine.haltingAt q m' h) m :=
    (hrun (alike_haltingAt engine q m' h' h)).resolve_right fun hboth => hnot hboth.2
  obtain ⟨h₁, h₂, hne⟩ := hasks
  exact hne ((hall h₁).trans (hall h₂).symm)

end EcmaEval
