import EcmaEval.Eval.Call
import EcmaEval.Proofs.Object.ArrayKeys
import EcmaEval.Proofs.Suite.Trace
import EcmaEval.Proofs.Syntax.Rules

/-!
# Disciplines

A discipline is a promise about a run: the code that the machine holds obeys a rule, the run ends
only in failures of a kind, and a statement leaves only signals that something around it takes out.
Every run that keeps to the promise also puts back the registers of the machine, whatever way it
ends; what it does to tests has a trace, and what it does to arrays keeps them in order.

An action is judged from a machine that keeps to the discipline, with something asked for or not.
The rules follow the shape of actions, and the code that needs none of the details is found steady
by instances.

## Main definitions

* `Signal.Within`: something around a node takes the signal out
* `Statement.Absorbs`: a signal is aimed at a statement itself
* `Site.Breaks`: the evaluation of a node breaks down because of the shape of its operands
* `Discipline`: what code a machine holds, and how its runs end
* `Machine.SameRegisters`: two machines have the same registers
* `Machine.Follows`: one machine comes out of a run on another
* `Discipline.Runs`, `Discipline.Keeps`: an action keeps to a discipline

## Main results

* `Discipline.Runs.bind`, `Discipline.Keeps.bind`: two actions in sequence
-/

namespace EcmaEval

/-- Something around the node takes the signal out. -/
def Signal.Within (c : Surroundings) : Signal → Prop
  | .return _ => c.mayReturn = true
  | .break none => c.inLoop = true ∨ c.inSwitch = true
  | .break (some label) => ∃ onLoop, (label, onLoop) ∈ c.labels
  | .continue none => c.inLoop = true
  | .continue (some label) => (label, true) ∈ c.labels
  -- A suspension ends inside the expression that it begins in.
  | .suspend _ => False

/-- The signal is aimed at the statement itself: a loop takes every jump without a label, a switch
every break without one, and a label what names it. -/
def Statement.Absorbs : Statement → Signal → Prop
  | .while .., s | .doWhile .., s | .for .., s | .forIn .., s | .forOf .., s =>
    s = .break none ∨ s = .continue none
  | .switch .., s => s = .break none
  | .labeled label body, s =>
    s = .break (some label) ∨ s = .continue (some label) ∨ body.Absorbs s
  | _, _ => False

/-- The breakdown at the word `super` where it is a value. -/
def Breakdown.straySuper : Breakdown :=
  .malformed "super call or super property" Expression.super.kindName

/-- The breakdown at a target that cannot be assigned. -/
def Breakdown.strayTarget (target : Expression) : Breakdown :=
  .malformed "assignment target" target.kindName

/-- The evaluation of a node breaks down because of the shape of its operands. -/
inductive Site.Breaks : Site → Breakdown → Prop where
  | bigint {c : Surroundings} {digits : String} (h : Integer.ofText? digits = none) :
    Breaks (c.expression (.literal (.bigint digits))) (.malformed "BigInt literal" digits)
  | member {c : Surroundings} {members : List ObjectMember} {m : ObjectMember} (hm : m ∈ members)
    (hvalue : m.kind ≠ .value) (hspread : m.kind ≠ .spread) (h : ∀ f, m.value ≠ .function f) :
    Breaks (c.expression (.object members)) (.malformed "FunctionExpression" m.value.kindName)
  | template {c : Surroundings} {texts : List (Option String)} {substitutions : List Expression}
    (h : none ∈ texts) :
    Breaks (c.expression (.template texts substitutions))
      (.malformed "cooked template string" "invalid escape")
  | super {c : Surroundings} : Breaks (c.expression .super) .straySuper
  | newSuper {c : Surroundings} {args : List Expression} :
    Breaks (c.expression (.new .super args)) .straySuper
  | spread {c : Surroundings} {operand : Expression} :
    Breaks (c.expression (.spread operand))
      (.malformed "expression" (Expression.spread operand).kindName)
  | assign {c : Surroundings} {op : AssignmentOperator} {target value : Expression}
    (h : Grammar.isTarget false target = false) :
    Breaks (c.expression (.assign op target value)) (.strayTarget target)
  | update {c : Surroundings} {op : UpdateOperator} {before : Bool} {target : Expression}
    (h : Grammar.isTarget false target = false) :
    Breaks (c.expression (.update op before target)) (.strayTarget target)
  | forIn {c : Surroundings} {target e : Expression} {body : Statement}
    (h : Grammar.isTarget false target = false) :
    Breaks (c.statement (.forIn (.target target) e body)) (.strayTarget target)
  | forOf {c : Surroundings} {target e : Expression} {body : Statement}
    (h : Grammar.isTarget false target = false) :
    Breaks (c.statement (.forOf (.target target) e body)) (.strayTarget target)

/-- The breakdown is not for the shape of a node. -/
def Breakdown.IsShapeless : Breakdown → Prop
  | .unsupported _ | .outOfBounds .. => True
  | .malformed .. => False

/-- A promise about runs. -/
structure Discipline where
  /-- What the code that the machine holds obeys. -/
  rule : Site → Prop
  /-- How runs may break down. -/
  breakdown : Breakdown → Prop
  /-- Statements leave only signals that something around them takes out. -/
  aimed : Prop
  /-- The machine may hold the functions of suites, which read and run texts. -/
  suites : Prop
  /-- How a check of a value may turn out. -/
  judges : Verdicts := fun _ _ _ _ _ _ => True
  /-- Nodes that are not supported stand in any code, and any code may shorten an array. -/
  shapeless : ∀ {b : Breakdown}, b.IsShapeless → breakdown b
  /-- A node that the rule lets stand may break down for its shape. -/
  breaks : ∀ {s b}, rule s → s.Breaks b → breakdown b
  /-- A jump stands where something takes its signal out. -/
  permitted : aimed → ∀ {s}, rule s → s.Permitted
  /-- What a suite reads from a text may be run. -/
  readable : suites → ∀ {s}, s.Read → rule s
  /-- A check may turn out as it does in a run. -/
  judged : ∀ fuel {matcher actual args m verdict m'},
    (Engine.ofFuel fuel).check matcher actual args m = .ok verdict m' →
      judges matcher actual args m verdict m' := by intros; trivial

/-- The end is that of the whole run. -/
def Abrupt.Fatal : Abrupt → Prop
  | .thrown _ => False
  | .broken _ | .exhausted => True

/-- If an object is an array, it was made of elements and was changed. -/
def Heap.Orderly (h : Heap) : Prop := ∀ id, (h.get id).Orderly

/-- The registers that every run puts back. -/
structure Machine.SameRegisters (m m' : Machine) : Prop where
  newTarget : m'.newTarget = m.newTarget
  joining : m'.joining = m.joining

namespace Machine.SameRegisters

theorem refl (m : Machine) : m.SameRegisters m := ⟨rfl, rfl⟩

theorem trans {m m' m'' : Machine} (h : m.SameRegisters m') (h' : m'.SameRegisters m'') :
    m.SameRegisters m'' :=
  ⟨h'.newTarget.trans h.newTarget, h'.joining.trans h.joining⟩

end Machine.SameRegisters

/-- The second machine comes out of a run on the first one: its registers were put back, what
happened to the tests has a trace, and arrays are still in order. -/
structure Machine.Follows (judges : Verdicts) (mayStop : Prop) (m m' : Machine) : Prop
    extends m.SameRegisters m' where
  tests : ∃ es, m.Tests judges mayStop es m'
  orderly : m.heap.Orderly → m'.heap.Orderly

namespace Machine.Follows

variable {judges : Verdicts} {mayStop : Prop} {m m' m'' m₁ m₂ : Machine}

theorem of_eq (hsame : m.SameRegisters m') (hheap : m'.heap = m.heap)
    (htests : m'.tests = m.tests) : m.Follows judges mayStop m' where
  toSameRegisters := hsame
  tests := ⟨[], .of_eq hheap htests⟩
  orderly h := hheap ▸ h

theorem refl (m : Machine) : m.Follows judges mayStop m := of_eq (.refl m) rfl rfl

theorem trans (h : m.Follows judges False m') (h' : m'.Follows judges mayStop m'') :
    m.Follows judges mayStop m'' where
  toSameRegisters := h.toSameRegisters.trans h'.toSameRegisters
  tests := by
    obtain ⟨es, hes⟩ := h.tests
    obtain ⟨es', hes'⟩ := h'.tests
    exact ⟨es ++ es', hes.trans hes'⟩
  orderly := h'.orderly ∘ h.orderly

theorem mono {mayStop' : Prop} (h : m.Follows judges mayStop m') (himp : mayStop → mayStop') :
    m.Follows judges mayStop' m' where
  toSameRegisters := h.toSameRegisters
  tests := h.tests.imp fun _ hes => hes.mono himp
  orderly := h.orderly

/-- The registers may be others while the run lasts. -/
theorem enclosed (h : m₁.Follows judges mayStop m₂) (hheap : m₁.heap = m.heap)
    (htests : m₁.tests = m.tests) (hheap' : m'.heap = m₂.heap) (htests' : m'.tests = m₂.tests)
    (hsame : m.SameRegisters m') : m.Follows judges mayStop m' where
  toSameRegisters := hsame
  tests := h.tests.imp fun _ hes => hes.enclosed hheap htests hheap' htests'
  orderly horderly := by
    rw [hheap']
    exact h.orderly (by rwa [hheap])

end Machine.Follows

namespace Discipline

variable (D : Discipline)

/-- The code of a function: its parameters in some surroundings, and its body in those of the body
of a function. -/
def AllowsFunction (f : FunctionNode) : Prop :=
  ∃ outer inner : Surroundings, inner.IsBody ∧
    Site.All D.rule (f.params.map outer.pattern ++ inner.functionBody f.body)

/-- The code of a value that may be missing. -/
def AllowsValue (value : Option Expression) : Prop :=
  ∀ e ∈ value, ∃ c : Surroundings, (c.expression e).Every D.rule

/-- The code of a class that its instances need. -/
structure AllowsClass (d : ClassDefinition) : Prop where
  constructor : ∀ f ∈ d.constructor?, D.AllowsFunction f
  fields : ∀ field ∈ d.fields, D.AllowsValue field.initializer

/-- What a function object runs. -/
def AllowsCallable : Callable → Prop
  | .closure f _ _ => D.AllowsFunction f
  | .class d => D.AllowsClass d
  | .native (.suite _) => D.suites
  | .native _ | .bound .. => True

/-- The code that the machine holds obeys the rule: that of its functions and classes, and that of
the classes whose instances are being constructed. -/
structure Holds (m : Machine) : Prop where
  callable : ∀ {id f}, (m.heap.get id).callable? = some f → D.AllowsCallable f
  superCall : ∀ {id call}, (m.frames.get id).superCall = some call → D.AllowsClass call.definition

/-- A run may end without a value so. -/
def AllowsFailure : Abrupt → Prop
  | .broken cause => D.breakdown cause
  | .thrown _ | .exhausted => True

/-- What statements in some surroundings may leave. -/
def AllowsSignal (c : Surroundings) (after : Option Signal) : Prop :=
  D.aimed → ∀ x ∈ after, x.Within c

/-- What a statement in some surroundings may leave: nothing that is aimed at itself. -/
def AllowsExit (c : Surroundings) (s : Statement) (after : Option Signal) : Prop :=
  D.aimed → ∀ x ∈ after, x.Within c ∧ ¬ s.Absorbs x

variable {α β : Type}

/-- An action that was started in the machine `m` has ended well: in a machine that keeps to the
discipline and follows the first one.  If it has a value, the value and what is asked for then
have a property; else nothing is asked for, and the failure is allowed. -/
inductive Ends (m : Machine) (P : α → Option Signal → Prop) :
    EStateM.Result Abrupt Machine α → Prop where
  | ok {x : α} {m' : Machine} (hm' : D.Holds m') (hfollows : m.Follows D.judges False m')
    (hx : P x m'.signal) : Ends m P (.ok x m')
  | error {e : Abrupt} {m' : Machine} (hm' : D.Holds m') (hfollows : m.Follows D.judges e.Fatal m')
    (hsignal : m'.signal = none) (he : D.AllowsFailure e) : Ends m P (.error e m')

/-- The action ends well from each machine that keeps to the discipline and in which `before` is
asked for. -/
def Runs (before : Option Signal) (a : Action α) (P : α → Option Signal → Prop) : Prop :=
  ∀ m, D.Holds m → m.signal = before → D.Ends m P (a m)

/-- From a machine in which nothing is asked for, the action ends in one in which nothing is. -/
def Keeps (a : Action α) (P : α → Prop) : Prop :=
  D.Runs none a fun x after => after = none ∧ P x

variable {D} {before : Option Signal} {a : Action α} {f : α → Action β}

theorem bind_apply (a : Action α) (f : α → Action β) (m : Machine) :
    (a >>= f) m = match a m with
      | .ok x m' => f x m'
      | .error e m' => .error e m' := by
  change EStateM.bind a f m = _
  unfold EStateM.bind
  cases a m <;> rfl

theorem bind_of_ok {x : α} {m m' : Machine} (h : a m = .ok x m') : (a >>= f) m = f x m' := by
  rw [bind_apply, h]

theorem Ends.of_follows {m m' : Machine} {P : α → Option Signal → Prop}
    {result : EStateM.Result Abrupt Machine α} (h : D.Ends m' P result)
    (hbefore : m.Follows D.judges False m') : D.Ends m P result := by
  -- The registers were the same before, so to put them back is the same.
  cases h with
  | ok hm' hfollows hx => exact .ok hm' (hbefore.trans hfollows) hx
  | error hm' hfollows hsignal he => exact .error hm' (hbefore.trans hfollows) hsignal he

namespace Runs

variable {P P' : α → Option Signal → Prop} {Q : β → Option Signal → Prop}

theorem mono (h : D.Runs before a P) (hP : ∀ x after, P x after → P' x after) :
    D.Runs before a P' := by
  intro m hm hbefore
  have hend := h m hm hbefore
  generalize a m = result at hend
  cases hend with
  | ok hm' hfollows hx => exact .ok hm' hfollows (hP _ _ hx)
  | error hm' hfollows hsignal he => exact .error hm' hfollows hsignal he

theorem pure {x : α} (h : P x before) : D.Runs before (pure x) P :=
  fun m hm hbefore => .ok hm (.refl m) (hbefore ▸ h)

theorem bind (ha : D.Runs before a P) (hf : ∀ x after, P x after → D.Runs after (f x) Q) :
    D.Runs before (a >>= f) Q := by
  intro m hm hbefore
  have hend := ha m hm hbefore
  rw [bind_apply]
  generalize a m = result at hend
  -- The second action starts where the first one has ended, with its registers.
  cases hend with
  | ok hm' hfollows hx => exact (hf _ _ hx _ hm' rfl).of_follows hfollows
  | error hm' hfollows hsignal he => exact .error hm' hfollows hsignal he

end Runs

namespace Keeps

variable {P P' : α → Prop} {Q : β → Prop}

theorem mono (h : D.Keeps a P) (hP : ∀ x, P x → P' x) : D.Keeps a P' :=
  Runs.mono h fun x _ hx => ⟨hx.1, hP x hx.2⟩

theorem pure {x : α} (h : P x) : D.Keeps (pure x) P :=
  Runs.pure ⟨rfl, h⟩

/-- Behind an action that leaves nothing asked for. -/
theorem andThen {Q : β → Option Signal → Prop} (ha : D.Keeps a P)
    (hf : ∀ x, P x → D.Runs none (f x) Q) : D.Runs none (a >>= f) Q :=
  Runs.bind ha fun x _ hx => hx.1 ▸ hf x hx.2

theorem bind (ha : D.Keeps a P) (hf : ∀ x, P x → D.Keeps (f x) Q) : D.Keeps (a >>= f) Q :=
  ha.andThen hf

end Keeps

end Discipline

end EcmaEval
