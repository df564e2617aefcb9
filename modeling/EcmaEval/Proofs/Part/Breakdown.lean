import EcmaEval.Proofs.Part.Evaluation
import EcmaEval.Session
import Mathlib.Tactic.ByContra
import EcmaEval.Proofs.Run.Session

/-!
# Breakdowns end runs

A failure that no program can handle ends the whole run, wherever it happens: no handler, no final
part, no promise and no function of the library turns it into a value or an error of the program,
and nothing runs behind it.

So an engine that breaks down at one point tells whether a run comes to that point.  The expressions
and the statements that a run asks its engine for obey the rule that the code of the run obeys: for
suppose that one does not.  Then an engine may break down at it in a way that no discipline allows,
and still keep to the discipline; but no run that keeps to it ends so, and thus the run does not ask
for that part.

## Main definitions

* `Query.Kept`: a query that keeps to a discipline
* `Discipline.written`: the discipline that keeps what is read, with what it declares

## Main results

* `PartOf.ends`: a part that breaks down ends the run that it belongs to
* `Machine.breakdown_ends_run`: the same for the runs of a host
* `PartOf.kept`: the parts of a run keep to a discipline
-/

namespace EcmaEval

namespace Alike

open EcmaEval.Action EcmaEval.Engine

variable {h h' : Halt} {engine engine' : Engine} [hengine : Engine.Alike h h' engine engine']

/-! ## Tests -/

section Tests

variable {α : Type} {a a' : Action α} [Alike h h' a a']

instance (name : String) : Alike h h' (insideGroup name a) (insideGroup name a') := by
  unfold insideGroup
  exact .bind fun _ => .leavingTests fun _ => rfl

instance : Alike h h' (asTest a) (asTest a') := by
  unfold asTest
  exact .bind fun _ => .bind fun _ => .leavingTests fun _ => rfl

end Tests

instance (op : BinaryOperator) (v w : Value) :
    Alike h h' (engine.checkOrder op v w) (engine'.checkOrder op v w) := by
  unfold checkOrder
  refine .bind fun result => ?_
  split <;> infer_instance

instance (v key : Value) :
    Alike h h' (engine.checkProperty v key) (engine'.checkProperty v key) := by
  unfold checkProperty
  refine .bind fun key => ?_
  split <;> infer_instance

/-- What a function throws is caught, but not how it breaks down. -/
instance (f : Value) : Alike h h' (engine.thrownBy? f) (engine'.thrownBy? f) := by
  unfold thrownBy?
  refine .bind fun callable => ?_
  split
  · refine .bind fun result => ?_
    split <;> infer_instance
  · infer_instance

instance (v constructor : Value) :
    Alike h h' (engine.isDirectInstance v constructor)
      (engine'.isDirectInstance v constructor) := by
  unfold isDirectInstance
  refine .bind fun prototype => ?_
  split <;> infer_instance

instance (f constructor : Value) :
    Alike h h' (engine.checkThrow f constructor) (engine'.checkThrow f constructor) := by
  unfold checkThrow
  refine .bind fun thrown => ?_
  split <;> infer_instance

instance (f constructor text : Value) :
    Alike h h' (engine.checkThrowMessage f constructor text)
      (engine'.checkThrowMessage f constructor text) := by
  unfold checkThrowMessage
  refine .bind fun thrown => ?_
  split <;> infer_instance

instance (name body : Value) : Alike h h' (engine.runTest name body) (engine'.runTest name body) := by
  unfold runTest
  refine .bind fun name => .bind fun ⟨result, running⟩ => ?_
  dsimp only
  split <;> infer_instance

instance (name body : Value) :
    Alike h h' (engine.runGroup name body) (engine'.runGroup name body) := by
  unfold runGroup
  refine .bind fun name => .bind fun result => ?_
  split <;> infer_instance

/-! ## Calls and constructions -/

/-- A function that runs no text of its own. -/
theorem alike_callNative {f : Native} (hf : f.runsApart = false) (this : Value)
    (args : List Value) :
    Alike h h' (engine.callNative f this args) (engine'.callNative f this args) := by
  unfold callNative
  cases f with
  | suite f =>
    unfold callSuite
    cases f with
    | check matcher negated actual number =>
      unfold check
      cases matcher with
      | toEval => cases hf
      | toEvalTo => cases hf
      | _ => infer_instance
    | _ => infer_instance
  | _ => infer_instance

instance (newTarget : ObjectId) (f f' : Value → Action Value) [∀ v, Alike h h' (f v) (f' v)] :
    Alike h h' (engine.constructWith newTarget f) (engine'.constructWith newTarget f') := by
  unfold constructWith
  infer_instance

variable {m : Machine}

/-- An action that begins with a look at what a function object runs. -/
theorem ends_readCallable {id : ObjectId} {f f' : Option Callable → Action Value}
    (hf : ∀ found, found = (m.heap.get id).callable? → Alike h h' (f found) (f' found)) :
    (readHeap (fun h => (h.get id).callable?) >>= f) m =
        (readHeap (fun h => (h.get id).callable?) >>= f') m ∨
      h.Ends ((readHeap (fun h => (h.get id).callable?) >>= f) m) ∧
        h'.Ends ((readHeap (fun h => (h.get id).callable?) >>= f') m) :=
  (hf _ rfl).ends m

theorem ends_callFunction {id : ObjectId} {this : Value} {args : List Value}
    (hown : ¬ m.RunsApart (.call id this args)) :
    engine.callFunction id this args m = engine'.callFunction id this args m ∨
      h.Ends (engine.callFunction id this args m) ∧
        h'.Ends (engine'.callFunction id this args m) := by
  unfold callFunction
  refine ends_readCallable fun found hfound => ?_
  split
  case h_3 f =>
    have hf : f.runsApart = false := Bool.eq_false_iff.mpr fun hf => hown ⟨f, hfound.symm, hf⟩
    have : Alike h h' (engine.callNative f this args) (engine'.callNative f this args) :=
      alike_callNative hf this args
    infer_instance
  all_goals infer_instance

theorem ends_constructFunction {id newTarget : ObjectId} {args : List Value}
    (hown : ¬ m.RunsApart (.construct id args newTarget)) :
    engine.constructFunction id args newTarget m = engine'.constructFunction id args newTarget m ∨
      h.Ends (engine.constructFunction id args newTarget m) ∧
        h'.Ends (engine'.constructFunction id args newTarget m) := by
  unfold constructFunction
  refine ends_readCallable fun found hfound => ?_
  split
  case h_3 f =>
    have hf : f.runsApart = false := Bool.eq_false_iff.mpr fun hf => hown ⟨f, hfound.symm, hf⟩
    have (this : Value) :
        Alike h h' (engine.callNative f this args) (engine'.callNative f this args) :=
      alike_callNative hf this args
    infer_instance
  all_goals infer_instance

/-- Every phrase runs alike on alike engines. -/
theorem ends_phrase {q : Query} (hown : ¬ m.RunsApart q) :
    engine.phrase q m = engine'.phrase q m ∨
      h.Ends (engine.phrase q m) ∧ h'.Ends (engine'.phrase q m) := by
  cases q with
  | call id this args => exact ends_callFunction hown
  | construct id args newTarget => exact ends_constructFunction hown
  | evaluate name scope e => exact (alike_evaluateExpression name scope e).ends m
  | execute scope s => exact (alike_executeStatement scope s).ends m
  | settle id outcome => exact (alike_settlePromise id outcome).ends m

end Alike

/-! ## The point of a breakdown -/

namespace Engine

/-- To break down where the engine breaks down anyway changes nothing. -/
theorem haltingAt_self {engine : Engine} {q : Query} {m : Machine} {h : Halt}
    (hanswer : engine.answer q m = .error (.broken h.cause) h.machine) :
    engine.haltingAt q m h = engine := by
  obtain ⟨fuel, evaluateAs, execute, call, construct, settle⟩ := engine
  unfold haltingAt Action.haltingAt
  congr
  all_goals
    funext
    split
    · next hpoint =>
      obtain ⟨rfl, rfl⟩ := hpoint
      exact hanswer.symm
    · rfl

variable {α : Type} {run : Engine → Action α} {m : Machine}

/-- A part that breaks down ends the run that asks for it. -/
theorem Asks.ends {engine : Engine} {q : Query} {m' : Machine} {h : Halt}
    (hasks : engine.Asks run m q m')
    (hrun : ∀ {h h' : Halt} {engine engine' : Engine}, Engine.Alike h h' engine engine' →
      run engine m = run engine' m ∨ h.Ends (run engine m) ∧ h'.Ends (run engine' m))
    (hanswer : engine.answer q m' = .error (.broken h.cause) h.machine) :
    h.Ends (run engine m) := by
  -- The engine itself is one of those that break down at the point.
  have hends := hasks.ends_haltingAt hrun h
  rwa [haltingAt_self hanswer] at hends

end Engine

/-- A part of a run that breaks down, however deep, ends the run. -/
theorem PartOf.ends {α : Type} {run : Engine → Action α} {fuel k : Nat} {m m' : Machine}
    {q : Query} {h : Halt} (hpart : PartOf run fuel m k q m')
    (hrun : ∀ {h h' : Halt} {engine engine' : Engine}, Engine.Alike h h' engine engine' →
      run engine m = run engine' m ∨ h.Ends (run engine m) ∧ h'.Ends (run engine' m))
    (hanswer : (Engine.ofFuel k).answer q m' = .error (.broken h.cause) h.machine) :
    h.Ends (run (Engine.ofFuel fuel) m) := by
  -- Induction on how the part is reached: its breakdown is that of each phrase around it.
  induction hpart generalizing h with
  | direct hasks => exact hasks.ends hrun hanswer
  | @nested k q q' m' m'' hpart hown hasks ih =>
    obtain ⟨n, hn, hsame⟩ := hasks.ends (fun _ => Alike.ends_phrase hown) hanswer
    obtain ⟨n', hn', hsame'⟩ := ih (h := ⟨h.cause, n⟩) (by rw [Engine.answer_ofFuel_succ, hn])
    exact ⟨n', hn', hsame.trans hsame'⟩

namespace Machine

open Engine

/-- An action of a host that breaks down has that outcome. -/
theorem perform_of_ends {m : Machine} {a : Action Value} {h : Halt} (hends : h.Ends (a m)) :
    ∃ m', m.perform a = ⟨.error (.broken h.cause), m'⟩ ∧
      h.machine.clearSignal.SameButRegisters m' := by
  obtain ⟨n, hn, hsame⟩ := hends
  refine ⟨n.clearSignal, ?_, ?_⟩
  · unfold perform
    rw [hn]
  · rw [hsame]
    rfl

end Machine

/-! ## A breakdown inside a try statement -/

section Guarded

open Engine Discipline

/-- A machine whose host lends a function that breaks down, under the name `f`. -/
def Machine.lending : Machine :=
  { Machine.empty with
    heap := ⟨#[.new none (.function (.native (.host .breakDown)))]⟩
    frames := ⟨#[Frame.declareVariable { parent := none, kind := .function } "f" (.object ⟨0⟩)]⟩ }

/-- The machine inside the block of a try statement. -/
def Machine.lendingBlock : Machine :=
  { lending with frames := (lending.frames.add { parent := some ⟨0⟩, kind := .block }).2 }

/-- The call `f()`. -/
def lentCall : Expression := .call (.identifier "f") []

/-- The statement `try { f() } catch (e) { null } finally { null }`. -/
def guardedCall : Statement :=
  .try [.expression lentCall] (some ⟨some (.identifier "e"), [.expression (.literal .null)]⟩)
    (some [.expression (.literal .null)])

/-- A run that ends in whatever breakdown there is at a point asks for what is there. -/
theorem Engine.asks_of_halts {α : Type} {engine : Engine} {run : Engine → Action α}
    {m m' : Machine} {q : Query}
    (hrun : ∀ h, run (engine.haltingAt q m' h) m = .error (.broken h.cause) h.machine) :
    engine.Asks run m q m' := by
  refine ⟨⟨.unsupported "", m⟩, ⟨.malformed "" "", m⟩, fun heq => ?_⟩
  rw [hrun, hrun] at heq
  cases heq

theorem asks_guardedCall (engine : Engine) :
    engine.Asks (·.executeProgram ⟨0⟩ ⟨[guardedCall]⟩) .lending (.execute ⟨0⟩ guardedCall)
      .lending := by
  refine asks_of_halts fun h => ?_
  simp [executeProgram, executeBody, Action.hoist, Action.hoistFunctions, bind_apply,
    variableNamesOfList, guardedCall, Statement.variableNames, variableNamesOfHandler,
    variableNamesOfFinalizer, executeList, executeFrom, Engine.haltingAt, Action.haltingAt]

theorem asks_guardedBlock (engine : Engine) :
    engine.Asks (·.phrase (.execute ⟨0⟩ guardedCall)) .lending
      (.execute ⟨1⟩ (.expression lentCall)) .lendingBlock := by
  refine asks_of_halts fun h => ?_
  have hblock : Action.addBlock ⟨0⟩ Machine.lending = .ok ⟨1⟩ .lendingBlock := rfl
  simp [phrase, executeStatement, executeTry, executeGuarded, guardedCall, Action.attempt,
    executeBlock, executeBody, Action.hoist, Action.hoistFunctions, bind_apply, hblock,
    variableNamesOfList, Statement.variableNames, executeList, executeFrom, Engine.haltingAt,
    Action.haltingAt]

theorem asks_lentExpression (engine : Engine) (m : Machine) :
    engine.Asks (·.phrase (.execute ⟨1⟩ (.expression lentCall))) m
      (.evaluate "" ⟨1⟩ lentCall) m := by
  refine asks_of_halts fun h => ?_
  simp [phrase, executeStatement, Engine.evaluate, Engine.haltingAt, Action.haltingAt]

theorem asks_lentCall (fuel : Nat) :
    (ofFuel (fuel + 1)).Asks (·.phrase (.evaluate "" ⟨1⟩ lentCall)) .lendingBlock
      (.call ⟨0⟩ .undefined []) .lendingBlock := by
  refine asks_of_halts fun h => ?_
  have hname : nameValue ⟨1⟩ "f" .lendingBlock = .ok (.object ⟨0⟩) .lendingBlock := rfl
  have hcallable : Machine.lendingBlock.heap.isCallable (.object ⟨0⟩) = true := rfl
  simp [phrase, evaluateExpression, lentCall, evaluateCall, Engine.evaluate, evaluateArguments,
    evaluateList, bind_apply, Engine.haltingAt, Action.haltingAt, ofFuel, hname, callValue,
    Action.readHeap, hcallable]

/-- The call is a part of the run, four levels below the program. -/
theorem partOf_guardedCall (fuel : Nat) :
    PartOf (·.executeProgram ⟨0⟩ ⟨[guardedCall]⟩) (fuel + 4) .lending (fuel + 1)
      (.call ⟨0⟩ .undefined []) .lendingBlock :=
  have hown {m : Machine} {scope : FrameId} {s : Statement} : ¬ m.RunsApart (.execute scope s) := id
  .nested (.nested (.nested (.direct (asks_guardedCall _)) hown (asks_guardedBlock _)) hown
    (asks_lentExpression _ _)) id (asks_lentCall fuel)

end Guarded

end EcmaEval

/-! # The code of the parts of a run -/

namespace EcmaEval

open Engine Discipline

variable {D : Discipline} {m m' : Machine} {q : Query}

/-- The code of the query obeys the discipline. -/
def Query.Allowed (D : Discipline) : Query → Prop
  | .evaluate _ _ e => (∃ c : Surroundings, (c.expression e).Every D.rule) ∨
      e = .super ∧ D.breakdown .straySuper
  | .execute _ s => ∃ c : Surroundings, (c.statement s).Every D.rule
  | .call .. | .construct .. | .settle .. => True

/-- The query keeps to the discipline on a machine. -/
structure Query.Kept (D : Discipline) (m : Machine) (q : Query) : Prop where
  holds : D.Holds m
  signal : m.signal = none
  allowed : q.Allowed D

theorem Discipline.Keeps.ends {α : Type} {P : α → Prop} {a : Action α} (h : D.Keeps a P)
    (hm : D.Holds m) (hsignal : m.signal = none) : D.Ends m (fun _ _ => True) (a m) :=
  Runs.mono h (fun _ _ _ => trivial) m hm hsignal

/-- The run of a phrase keeps to the discipline. -/
theorem Query.Kept.ends_phrase (hq : q.Kept D m) (engine : Engine) [engine.Obeys D] :
    D.Ends m (fun _ _ => True) (engine.phrase q m) := by
  obtain ⟨hm, hsignal, hallowed⟩ := hq
  cases q with
  | evaluate name scope e =>
    rcases hallowed with ⟨c, he⟩ | ⟨rfl, hsuper⟩
    · exact (steady_evaluateExpression engine he name scope).keeps.ends hm hsignal
    · have hkeeps : D.Keeps (Action.breakDown .straySuper : Action Value) fun _ => True :=
        keeps_breakDown hsuper
      exact hkeeps.ends hm hsignal
  | execute scope s =>
    obtain ⟨c, hs⟩ := hallowed
    exact Runs.mono (runs_executeStatement engine hs scope) (fun _ _ _ => trivial) m hm hsignal
  | call id this args =>
    exact (steady_callFunction engine id this args).keeps.ends hm hsignal
  | construct id args newTarget =>
    exact (steady_constructFunction engine id args newTarget).keeps.ends hm hsignal
  | settle id outcome =>
    have : D.Steady (engine.settlePromise id outcome) := inferInstance
    exact this.keeps.ends hm hsignal

/-- The answer to a query keeps to the discipline. -/
theorem Query.Kept.ends_answer (hq : q.Kept D m) (engine : Engine) [hengine : engine.Obeys D] :
    D.Ends m (fun _ _ => True) (engine.answer q m) := by
  obtain ⟨hm, hsignal, hallowed⟩ := hq
  cases q with
  | evaluate name scope e =>
    rcases hallowed with ⟨c, he⟩ | ⟨rfl, hsuper⟩
    · exact (hengine.evaluateAs he name scope).keeps.ends hm hsignal
    · exact (hengine.evaluateSuper hsuper name scope).keeps.ends hm hsignal
  | execute scope s =>
    obtain ⟨c, hs⟩ := hallowed
    exact Runs.mono (hengine.execute hs scope) (fun _ _ _ => trivial) m hm hsignal
  | call id this args => exact (hengine.call id this args).keeps.ends hm hsignal
  | construct id args newTarget =>
    exact (hengine.construct id args newTarget).keeps.ends hm hsignal
  | settle id outcome => exact (hengine.settle id outcome).keeps.ends hm hsignal

/-! ## Engines that break down at one point -/

/-- The discipline lets a run on the machine break down so. -/
structure Halt.Allowed (D : Discipline) (m : Machine) (h : Halt) : Prop where
  holds : D.Holds h.machine
  follows : m.Follows D.judges True h.machine
  signal : h.machine.signal = none
  breakdown : D.breakdown h.cause

theorem Discipline.Runs.haltingAt {α : Type} {P : α → Option Signal → Prop} {a : Action α}
    {condition : Prop} {h : Halt} (ha : D.Runs none a P)
    (hhalt : D.Holds m → m.signal = none → condition → h.Allowed D m) :
    D.Runs none (a.haltingAt condition m h) P := by
  intro m' hm' hsignal
  unfold Action.haltingAt
  split
  · next hpoint =>
    obtain ⟨hcondition, rfl⟩ := hpoint
    obtain ⟨hholds, hfollows, hnone, hbreakdown⟩ := hhalt hm' hsignal hcondition
    exact .error hholds hfollows hnone hbreakdown
  · exact ha m' hm' hsignal

/-- A check may turn out in any way. -/
class Discipline.Lenient (D : Discipline) : Prop where
  judges : ∀ matcher actual args m verdict m', D.judges matcher actual args m verdict m'

/-- An engine may break down at any query, if it does so as the discipline allows or if the query
does not keep to it. -/
theorem Engine.obeys_haltingAt [hlenient : D.Lenient] {engine : Engine} [hengine : engine.Obeys D]
    {h : Halt} (hhalt : q.Kept D m → h.Allowed D m) : (engine.haltingAt q m h).Obeys D := by
  have hpoint {q' : Query} (hq' : q'.Allowed D) (hm : D.Holds m) (hsignal : m.signal = none) :
      q = q' → h.Allowed D m := by
    rintro rfl
    exact hhalt ⟨hm, hsignal, hq'⟩
  constructor
  case evaluateAs =>
    intro c e he name scope
    have hallowed : (Query.evaluate name scope e).Allowed D := .inl ⟨c, he⟩
    exact ⟨.haltingAt (hengine.evaluateAs he name scope).keeps (hpoint hallowed)⟩
  case evaluateSuper =>
    intro hsuper name scope
    have hallowed : (Query.evaluate name scope .super).Allowed D := .inr ⟨rfl, hsuper⟩
    exact ⟨.haltingAt (hengine.evaluateSuper hsuper name scope).keeps (hpoint hallowed)⟩
  case execute =>
    intro c s hs scope
    have hallowed : (Query.execute scope s).Allowed D := ⟨c, hs⟩
    exact .haltingAt (hengine.execute hs scope) (hpoint hallowed)
  case call =>
    intro id this args
    have hallowed : (Query.call id this args).Allowed D := trivial
    exact ⟨.haltingAt (hengine.call id this args).keeps (hpoint hallowed)⟩
  case construct =>
    intro id args newTarget
    have hallowed : (Query.construct id args newTarget).Allowed D := trivial
    exact ⟨.haltingAt (hengine.construct id args newTarget).keeps (hpoint hallowed)⟩
  case settle =>
    intro id outcome
    have hallowed : (Query.settle id outcome).Allowed D := trivial
    exact ⟨.haltingAt (hengine.settle id outcome).keeps (hpoint hallowed)⟩
  case judges =>
    intros
    exact hlenient.judges ..

/-! ## Parts -/

variable {α : Type} {run : Engine → Action α} {P : α → Option Signal → Prop}

/-- What a run asks its engine for keeps to the discipline, if that rules out some breakdown. -/
theorem Engine.Asks.kept [D.Lenient] {engine : Engine} [engine.Obeys D]
    (hasks : engine.Asks run m q m') {cause : Breakdown} (hcause : ¬ D.breakdown cause)
    (hends : ∀ (engine : Engine) [engine.Obeys D], D.Ends m P (run engine m))
    (halike : ∀ {h h' : Halt} {engine engine' : Engine}, Engine.Alike h h' engine engine' →
      run engine m = run engine' m ∨ h.Ends (run engine m) ∧ h'.Ends (run engine' m)) :
    q.Kept D m' := by
  by_contra hunkept
  have : (engine.haltingAt q m' ⟨cause, m'⟩).Obeys D :=
    obeys_haltingAt fun hkept => absurd hkept hunkept
  obtain ⟨n, hn, -⟩ := hasks.ends_haltingAt halike ⟨cause, m'⟩
  have hend := hends (engine.haltingAt q m' ⟨cause, m'⟩)
  rw [hn] at hend
  cases hend with
  | error _ _ _ he => exact hcause he

/-- The parts of a run keep to the discipline, and so do their parts. -/
theorem PartOf.kept [D.Lenient] {fuel k : Nat} (hpart : PartOf run fuel m k q m')
    {cause : Breakdown} (hcause : ¬ D.breakdown cause)
    (hends : ∀ (engine : Engine) [engine.Obeys D], D.Ends m P (run engine m))
    (halike : ∀ {h h' : Halt} {engine engine' : Engine}, Engine.Alike h h' engine engine' →
      run engine m = run engine' m ∨ h.Ends (run engine m) ∧ h'.Ends (run engine' m)) :
    q.Kept D m' := by
  -- Induction on how the part is reached: each phrase keeps to it, and so do its parts.
  induction hpart with
  | direct hasks => exact hasks.kept hcause hends halike
  | nested hpart hown hasks ih =>
    exact hasks.kept hcause (fun engine => ih.ends_phrase engine) fun _ => Alike.ends_phrase hown

/-! ## Code that is read -/

/-- The discipline that keeps what is read, with what it declares. -/
def Discipline.written : Discipline where
  rule := Site.Read
  breakdown := Discipline.read.breakdown
  aimed := True
  suites := True
  shapeless := Discipline.read.shapeless
  breaks h := Discipline.read.breaks h.1
  permitted _ _ h := h.1.1
  readable _ _ h := h

instance : Discipline.written.Lenient := ⟨fun _ _ _ _ _ _ => trivial⟩

/-- Nothing breaks down at a node of no kind. -/
theorem Discipline.not_breakdown_written : ¬ written.breakdown (.malformed "" "") := by
  rintro (hshapeless | ⟨s, hstray⟩)
  · exact hshapeless
  · generalize hcause : Breakdown.malformed "" "" = cause at hstray
    cases hstray <;> simp [Breakdown.straySuper] at hcause

end EcmaEval
