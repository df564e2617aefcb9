import EcmaEval.Engine.Operator
import EcmaEval.Proofs.Run.Steady

/-!
# Engines that keep to a discipline

An engine keeps to a discipline if each of its ways to run a part does, given a part that the
discipline allows.  With such an engine property accesses, conversions and operators are steady.

## Main definitions

* `Engine.Obeys`: an engine that keeps to a discipline
-/

namespace EcmaEval

/-- The engine keeps to the discipline. -/
class Engine.Obeys (D : Discipline) (engine : Engine) : Prop where
  evaluateAs : ∀ {c : Surroundings} {e : Expression}, (c.expression e).Every D.rule →
    ∀ name scope, D.Steady (engine.evaluateAs name scope e)
  -- The callee of a construction is evaluated whatever it is.
  evaluateSuper : D.breakdown .straySuper →
    ∀ name scope, D.Steady (engine.evaluateAs name scope .super)
  execute : ∀ {c : Surroundings} {s : Statement}, (c.statement s).Every D.rule →
    ∀ scope, D.Runs none (engine.execute scope s) fun _ after => D.AllowsExit c s after
  call : ∀ id this args, D.Steady (engine.call id this args)
  construct : ∀ id args newTarget, D.Steady (engine.construct id args newTarget)
  settle : ∀ id outcome, D.Steady (engine.settle id outcome)
  judges : ∀ {matcher actual args m verdict m'},
    engine.check matcher actual args m = .ok verdict m' →
      D.judges matcher actual args m verdict m'

namespace Discipline

open EcmaEval.Action Engine

variable {D : Discipline} {engine : Engine} [hengine : engine.Obeys D]

instance (id : ObjectId) (this : Value) (args : List Value) : D.Steady (engine.call id this args) :=
  hengine.call id this args

instance (id : ObjectId) (args : List Value) (newTarget : ObjectId) :
    D.Steady (engine.construct id args newTarget) :=
  hengine.construct id args newTarget

instance (id : ObjectId) (outcome : Settlement) : D.Steady (engine.settle id outcome) :=
  hengine.settle id outcome

/-! ## Calls and properties -/

instance (callee this : Value) (args : List Value) :
    D.Steady (engine.callValue callee this args) := by
  unfold callValue
  refine .bind fun callable => ?_
  split <;> infer_instance

instance (property : Option Property) (receiver : Value) :
    D.Steady (engine.readProperty property receiver) := by
  unfold readProperty
  split <;> infer_instance

instance (id : ObjectId) (key : String) (receiver : Value) :
    D.Steady (engine.getProperty id key receiver) := by
  unfold getProperty
  infer_instance

instance (id : ObjectId) (key : String) : D.Steady (engine.getOf id key) := by
  unfold getOf
  infer_instance

instance (s : UnitString) (key : String) : D.Steady (engine.getOfString s key) := by
  unfold getOfString
  split
  · infer_instance
  · split <;> infer_instance

instance (target : Value) (key : String) : D.Steady (engine.get target key) := by
  unfold Engine.get
  split
  -- Other primitives find their properties in a prototype.
  case h_5 =>
    refine .bind fun prototype => ?_
    split <;> infer_instance
  all_goals infer_instance

/-! ## Conversions -/

instance (id : ObjectId) (methods : List String) :
    D.Steady (engine.primitiveByMethods id methods) := by
  -- Induction on the methods that are left to try.
  induction methods with
  | nil =>
    unfold primitiveByMethods
    infer_instance
  | cons method methods ih =>
    unfold primitiveByMethods
    infer_instance

instance (v : Value) (preference : Preference) : D.Steady (engine.toPrimitive v preference) := by
  unfold toPrimitive
  split <;> infer_instance

instance (v : Value) : D.Steady (engine.toUnits v) := by
  unfold Engine.toUnits
  infer_instance

instance (v : Value) : D.Steady (engine.toText v) := by
  unfold toText
  infer_instance

instance (v : Value) : D.Steady (engine.toNumber v) := by
  unfold toNumber
  infer_instance

instance (v : Value) : D.Steady (engine.toNumeric v) := by
  unfold toNumeric
  infer_instance

instance (v : Value) : D.Steady (engine.toKey v) := by
  unfold toKey
  split <;> infer_instance

instance (v w : Value) : D.Steady (engine.looseEqual v w) := by
  unfold looseEqual
  split <;> infer_instance

instance (key : String) (value : Value) : D.Steady (engine.checkArrayWrite key value) := by
  unfold checkArrayWrite
  split
  · infer_instance
  · split <;> infer_instance

instance (receiver : Value) (key : String) (value : Value) :
    D.Steady (engine.writeOwn receiver key value) := by
  unfold writeOwn
  split <;> infer_instance

instance (id : ObjectId) (key : String) (value receiver : Value) :
    D.Steady (engine.setProperty id key value receiver) := by
  unfold setProperty
  refine .bind fun property => ?_
  split <;> infer_instance

instance (target : Value) (key : String) (value : Value) :
    D.Steady (engine.set target key value) := by
  unfold Engine.set
  split <;> infer_instance

instance (v : Value) : D.Steady (iterate v) := by
  unfold iterate
  split
  · infer_instance
  · refine .bind fun elements => ?_
    split <;> infer_instance
  · infer_instance

instance (v constructor : Value) : D.Steady (engine.instanceOf v constructor) := by
  unfold instanceOf
  refine .bind fun callable => ?_
  split
  · refine .bind fun target => ?_
    split
    · refine .bind fun prototype => ?_
      split <;> infer_instance
    · infer_instance
  · infer_instance

instance (id : ObjectId) : D.Steady (engine.listElements id) := by
  unfold listElements
  refine .bind fun elements => ?_
  split <;> infer_instance

/-! ## Operators -/

instance {α : Type} (result : Except Fault α) : D.Steady (orFault result) := by
  unfold orFault
  split <;> infer_instance

instance (op : ArithmeticOperator) (v w : Value) : D.Steady (engine.arithmetic op v w) := by
  unfold arithmetic
  infer_instance

instance (v w : Value) : D.Steady (engine.add v w) := by
  unfold add
  infer_instance

instance (v w : Value) : D.Steady (engine.less v w) := by
  unfold less
  infer_instance

instance (v w : Value) : D.Steady (engine.lessFlipped v w) := by
  unfold lessFlipped
  infer_instance

instance (key object : Value) : D.Steady (engine.hasKey key object) := by
  unfold hasKey
  split <;> infer_instance

instance (op : BinaryOperator) (v w : Value) : D.Steady (engine.binary op v w) := by
  unfold binary
  split <;> infer_instance

instance (v : Value) : D.Steady (engine.plus v) := by
  unfold plus
  refine .bind fun x => ?_
  split <;> infer_instance

instance (v : Value) : D.Steady (engine.minus v) := by
  unfold minus
  refine .bind fun x => ?_
  split <;> infer_instance

instance (v : Value) : D.Steady (engine.bitwiseNot v) := by
  unfold bitwiseNot
  refine .bind fun x => ?_
  split <;> infer_instance

end Discipline

end EcmaEval
