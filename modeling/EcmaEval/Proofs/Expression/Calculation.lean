import EcmaEval.Eval.Call
import EcmaEval.Proofs.Arrays.Sort
import EcmaEval.Proofs.Session.Inspection

/-!
# Calculations

A calculation is an expression of literals, names, operators on values and templates.  Where its
names stand for primitive values, every part of it is one, so that no conversion finds an object whose
methods it would have to call.  Such an expression reads the frames and nothing else: they decide
whether it has a value, throws or breaks down.  All that it leaves behind is the error object that it
has thrown.

## Main definitions

* `Expression.IsCalculation`: an expression of these forms
* `Action.OnlyReads`: the frames alone decide how an action ends
* `Action.Repeats`: an action changes nothing, and ends a second time as it did before

## Main results

* `Engine.onlyReads_binary`: the operators on primitive values
* `Engine.exists_readsWith`: a calculation only reads, with any fuel
* `Engine.calculations_repeat`: a calculation changes nothing and can be repeated
-/

namespace EcmaEval

variable {α β : Type}

/-- A name is not bound, or stands for a primitive value. -/
def Frames.HoldsPrimitive (fs : Frames) (scope : FrameId) (name : String) : Prop :=
  ∀ v, fs.lookup? scope name = some v → v.isObject = false

/-- The expression is made of literals, of names of a kind, and of what computes with their values:
operators other than `delete`, `in` and `instanceof`, conditions, sequences and templates. -/
inductive Expression.IsCalculation (allowed : String → Prop) : Expression → Prop where
  | literal (l : Literal) : IsCalculation allowed (.literal l)
  | identifier {name : String} (hname : allowed name) : IsCalculation allowed (.identifier name)
  | unary {op : UnaryOperator} {operand : Expression} (hop : op ≠ .delete)
    (hoperand : IsCalculation allowed operand) : IsCalculation allowed (.unary op operand)
  | binary {op : BinaryOperator} {left right : Expression} (hkey : op ≠ .hasKey)
    (hinstance : op ≠ .instanceOf) (hleft : IsCalculation allowed left)
    (hright : IsCalculation allowed right) : IsCalculation allowed (.binary op left right)
  | logical {op : LogicalOperator} {left right : Expression} (hleft : IsCalculation allowed left)
    (hright : IsCalculation allowed right) : IsCalculation allowed (.logical op left right)
  | conditional {test consequent alternate : Expression} (htest : IsCalculation allowed test)
    (hconsequent : IsCalculation allowed consequent)
    (halternate : IsCalculation allowed alternate) :
    IsCalculation allowed (.conditional test consequent alternate)
  | sequence {parts : List Expression} (hparts : ∀ e ∈ parts, IsCalculation allowed e) :
    IsCalculation allowed (.sequence parts)
  | template {texts : List (Option String)} {substitutions : List Expression}
    (hsubstitutions : ∀ e ∈ substitutions, IsCalculation allowed e) :
    IsCalculation allowed (.template texts substitutions)

/-! ## Actions that only read -/

/-- How an action ends that changes nothing. -/
inductive QuietEnding (α : Type) where
  | value (x : α)
  | fault (f : Fault)
  | broken (cause : Breakdown)
  | exhausted

namespace QuietEnding

/-- The action that ends so at once. -/
def toAction : QuietEnding α → Action α
  | value x => pure x
  | fault f => Action.throwFault f
  | broken cause => Action.breakDown cause
  | exhausted => Action.exhausted

/-- A value has a property, and steps are used up only under a condition. -/
def Meets (P : α → Prop) (mayExhaust : Prop) : QuietEnding α → Prop
  | value x => P x
  | fault _ | broken _ => True
  | exhausted => mayExhaust

end QuietEnding

namespace Action

/-- The action only reads the frames, and these alone decide how it ends. -/
def OnlyReads (frames : Frames) (a : Action α) (P : α → Prop) (mayExhaust : Prop) : Prop :=
  ∃ ending : QuietEnding α, ending.Meets P mayExhaust ∧
    ∀ m, m.frames = frames → a m = ending.toAction m

namespace OnlyReads

variable {frames : Frames} {a a' : Action α} {f : α → Action β} {P : α → Prop} {Q : β → Prop}
  {mayExhaust mayExhaust' : Prop}

theorem congr (h : OnlyReads frames a' P mayExhaust) (heq : ∀ m, m.frames = frames → a m = a' m) :
    OnlyReads frames a P mayExhaust := by
  obtain ⟨ending, hmeets, hending⟩ := h
  exact ⟨ending, hmeets, fun m hm => (heq m hm).trans (hending m hm)⟩

theorem mono (h : OnlyReads frames a P mayExhaust) (himp : mayExhaust → mayExhaust') :
    OnlyReads frames a P mayExhaust' := by
  obtain ⟨ending, hmeets, hending⟩ := h
  refine ⟨ending, ?_, hending⟩
  cases ending with
  | exhausted => exact himp hmeets
  | _ => exact hmeets

protected theorem pure {x : α} (hx : P x) : OnlyReads frames (pure x) P mayExhaust :=
  ⟨.value x, hx, fun _ _ => rfl⟩

theorem throwFault (f : Fault) : OnlyReads frames (throwFault f) P mayExhaust :=
  ⟨.fault f, trivial, fun _ _ => rfl⟩

theorem breakDown (cause : Breakdown) : OnlyReads frames (breakDown cause) P mayExhaust :=
  ⟨.broken cause, trivial, fun _ _ => rfl⟩

theorem exhausted (h : mayExhaust) : OnlyReads frames (exhausted : Action α) P mayExhaust :=
  ⟨.exhausted, h, fun _ _ => rfl⟩

/-- Where the first action only reads, the second one starts with the same frames. -/
theorem bind (ha : OnlyReads frames a P mayExhaust)
    (hf : ∀ x, P x → OnlyReads frames (f x) Q mayExhaust) :
    OnlyReads frames (a >>= f) Q mayExhaust := by
  obtain ⟨ending, hmeets, hending⟩ := ha
  have hbind (m : Machine) (hm : m.frames = frames) : (a >>= f) m = (ending.toAction >>= f) m := by
    rw [Discipline.bind_apply, hending m hm, ← Discipline.bind_apply]
  refine .congr ?_ hbind
  cases ending with
  | value x => exact (hf x hmeets).congr fun _ _ => rfl
  | fault g => exact (throwFault g).congr fun m _ => congrFun (throwFault_bind g f) m
  | broken cause => exact breakDown cause
  | exhausted => exact exhausted hmeets

theorem readFrames {ρ : Frames → α} (hf : OnlyReads frames (f (ρ frames)) Q mayExhaust) :
    OnlyReads frames (readFrames ρ >>= f) Q mayExhaust :=
  hf.congr fun m hm => by rw [readFrames_bind, hm]

end OnlyReads

/-! ### Running an action again -/

/-- Two runs end alike: with one value, by throwing errors with the same content, or in one failure. -/
inductive EndsAlike : EStateM.Result Abrupt Machine α → EStateM.Result Abrupt Machine α → Prop where
  | value (x : α) (m m' : Machine) : EndsAlike (.ok x m) (.ok x m')
  | thrown {id id' : ObjectId} {m m' : Machine} (hkind : (m.heap.get id).kind = .error)
    (hsame : m'.heap.get id' = m.heap.get id) :
    EndsAlike (.error (.thrown (.object id)) m) (.error (.thrown (.object id')) m')
  | broken (cause : Breakdown) (m m' : Machine) :
    EndsAlike (.error (.broken cause) m) (.error (.broken cause) m')
  | exhausted (m m' : Machine) : EndsAlike (.error .exhausted m) (.error .exhausted m')

/-- The action leaves everything as it is but for objects that are new, and when it is run again it
ends as it did. -/
structure Repeats (a : Action α) (m : Machine) : Prop where
  unchanged : a.final m = { m with heap := (a.final m).heap }
  objects : m.heap.IsFrontOf (a.final m).heap
  again : EndsAlike (a m) (a (a.final m))

theorem throwFault_apply (f : Fault) (m : Machine) :
    (throwFault f : Action α) m = .error (.thrown (.object ⟨m.heap.size⟩)) (m.afterFault f) := rfl

theorem kind_errorOf (m : Machine) (f : Fault) : (m.errorOf f).kind = .error := by
  unfold Machine.errorOf
  dsimp only
  split <;> rfl

theorem get_afterFault_self (m : Machine) (f : Fault) :
    (m.afterFault f).heap.get ⟨m.heap.size⟩ = m.errorOf f := m.heap.get_allocate_self _

/-- A second error has the content of the first one, since the realm is the same. -/
theorem endsAlike_throwFault (f : Fault) (m : Machine) :
    EndsAlike ((throwFault f : Action α) m) ((throwFault f : Action α) (m.afterFault f)) := by
  rw [throwFault_apply, throwFault_apply]
  refine .thrown ?_ ?_
  · rw [get_afterFault_self, kind_errorOf]
  · rw [get_afterFault_self, get_afterFault_self]
    rfl

theorem OnlyReads.repeats {a : Action α} {m : Machine} {P : α → Prop} {mayExhaust : Prop}
    (h : OnlyReads m.frames a P mayExhaust) : a.Repeats m := by
  obtain ⟨ending, -, hending⟩ := h
  have hfirst := hending m rfl
  cases ending with
  | value x =>
    have hsame : a.final m = m := final_of_ok hfirst
    refine ⟨by rw [hsame], by rw [hsame]; exact .refl _, ?_⟩
    rw [hsame, hfirst]
    exact .value x m m
  | fault f =>
    have hafter : a.final m = m.afterFault f := final_of_error hfirst
    refine ⟨by rw [hafter]; rfl, by rw [hafter]; exact Heap.isFrontOf_allocate _ _, ?_⟩
    rw [hafter, hfirst, hending (m.afterFault f) rfl]
    exact endsAlike_throwFault f m
  | broken cause =>
    have hsame : a.final m = m := final_of_error hfirst
    refine ⟨by rw [hsame], by rw [hsame]; exact .refl _, ?_⟩
    rw [hsame, hfirst]
    exact .broken cause m m
  | exhausted =>
    have hsame : a.final m = m := final_of_error hfirst
    refine ⟨by rw [hsame], by rw [hsame]; exact .refl _, ?_⟩
    rw [hsame, hfirst]
    exact .exhausted m m

/-- Where the steps may not run out, they do not. -/
theorem OnlyReads.ne_exhausted {a : Action α} {m : Machine} {P : α → Prop} {mayExhaust : Prop}
    (h : OnlyReads m.frames a P mayExhaust) (hnot : ¬ mayExhaust) (m' : Machine) :
    a m ≠ .error .exhausted m' := by
  obtain ⟨ending, hmeets, hending⟩ := h
  rw [hending m rfl]
  cases ending with
  | exhausted => exact absurd hmeets hnot
  | _ => exact nofun

end Action

/-! ## Operators on primitive values -/

theorem ArithmeticOperator.isObject_of_apply {op : ArithmeticOperator} {x y : Numeric} {v : Value}
    (h : op.apply x y = .ok v) : v.isObject = false := by
  cases x with
  | number x =>
    cases y with
    | number y => cases h; rfl
    | bigint n => cases h
  | bigint m =>
    cases y with
    | number y => cases h
    | bigint n =>
      change (op.onIntegers m n).map Value.bigint = .ok v at h
      cases hresult : op.onIntegers m n with
      | error f => rw [hresult] at h; cases h
      | ok i => rw [hresult] at h; cases h; rfl

/-- The type of a primitive value is the same in every heap. -/
theorem Heap.typeOf_of_primitive {v : Value} (hv : v.isObject = false) (h h' : Heap) :
    h.typeOf v = h'.typeOf v := by
  cases v with
  | object id => cases hv
  | _ => rfl

namespace Engine

open EcmaEval.Action

variable {engine : Engine} {frames : Frames} {scope : FrameId} {v w : Value} {mayExhaust : Prop}

theorem toPrimitive_of_primitive (hv : v.isObject = false) (preference : Preference) :
    engine.toPrimitive v preference = pure v := by
  cases v with
  | object id => cases hv
  | _ => rfl

theorem toNumeric_of_primitive (hv : v.isObject = false) :
    engine.toNumeric v = pure (.ofPrimitive v) := by
  rw [toNumeric, toPrimitive_of_primitive hv]
  rfl

theorem toText_of_primitive (hv : v.isObject = false) :
    engine.toText v = pure (unitsOfPrimitive v).text := by
  rw [toText, toUnits, toPrimitive_of_primitive hv]
  rfl

theorem looseEqual_of_primitive (hv : v.isObject = false) (hw : w.isObject = false) :
    engine.looseEqual v w = pure (v.looseEqual w) := by
  cases v with
  | object id => cases hv
  | _ =>
    cases w with
    | object id => cases hw
    | _ => rfl

theorem less_of_primitive (hv : v.isObject = false) (hw : w.isObject = false) :
    engine.less v w = pure (v.lessThan w) := by
  rw [less, toPrimitive_of_primitive hv, toPrimitive_of_primitive hw]
  rfl

theorem lessFlipped_of_primitive (hv : v.isObject = false) (hw : w.isObject = false) :
    engine.lessFlipped v w = pure (w.lessThan v) := by
  rw [lessFlipped, toPrimitive_of_primitive hv, toPrimitive_of_primitive hw]
  rfl

theorem onlyReads_orFault (op : ArithmeticOperator) (x y : Numeric) :
    OnlyReads frames (orFault (op.apply x y)) (·.isObject = false) mayExhaust := by
  cases hresult : op.apply x y with
  | ok v => exact .pure (ArithmeticOperator.isObject_of_apply hresult)
  | error f => exact .throwFault f

theorem onlyReads_arithmetic (hv : v.isObject = false) (hw : w.isObject = false)
    (op : ArithmeticOperator) :
    OnlyReads frames (engine.arithmetic op v w) (·.isObject = false) mayExhaust := by
  rw [arithmetic, toNumeric_of_primitive hv, toNumeric_of_primitive hw]
  exact onlyReads_orFault op _ _

theorem onlyReads_add (hv : v.isObject = false) (hw : w.isObject = false) :
    OnlyReads frames (engine.add v w) (·.isObject = false) mayExhaust := by
  rw [add, toPrimitive_of_primitive hv, toPrimitive_of_primitive hw]
  simp only [pure_bind]
  split
  · exact .pure rfl
  · exact onlyReads_orFault .add _ _

/-- What is left of the operators is arithmetic or gives a truth value. -/
theorem onlyReads_binary (hv : v.isObject = false) (hw : w.isObject = false) {op : BinaryOperator}
    (hkey : op ≠ .hasKey) (hinstance : op ≠ .instanceOf) :
    OnlyReads frames (engine.binary op v w) (·.isObject = false) mayExhaust := by
  cases op with
  | hasKey => exact absurd rfl hkey
  | instanceOf => exact absurd rfl hinstance
  | add => exact onlyReads_add hv hw
  | equal | notEqual =>
    rw [binary, looseEqual_of_primitive hv hw]
    exact .pure rfl
  | strictEqual | strictNotEqual => exact .pure rfl
  | less | greaterOrEqual =>
    rw [binary, less_of_primitive hv hw]
    exact .pure rfl
  | greater | lessOrEqual =>
    rw [binary, lessFlipped_of_primitive hv hw]
    exact .pure rfl
  | _ => exact onlyReads_arithmetic hv hw _

theorem onlyReads_plus (hv : v.isObject = false) :
    OnlyReads frames (engine.plus v) (·.isObject = false) mayExhaust := by
  rw [plus, toNumeric_of_primitive hv, pure_bind]
  split
  · exact .pure rfl
  · exact .throwFault _

theorem onlyReads_minus (hv : v.isObject = false) :
    OnlyReads frames (engine.minus v) (·.isObject = false) mayExhaust := by
  rw [minus, toNumeric_of_primitive hv, pure_bind]
  split <;> exact .pure rfl

theorem onlyReads_bitwiseNot (hv : v.isObject = false) :
    OnlyReads frames (engine.bitwiseNot v) (·.isObject = false) mayExhaust := by
  rw [bitwiseNot, toNumeric_of_primitive hv, pure_bind]
  split <;> exact .pure rfl

/-! ## Forms of expressions -/

theorem onlyReads_literalValue (l : Literal) :
    OnlyReads frames (literalValue l) (·.isObject = false) mayExhaust := by
  cases l with
  | bigint digits =>
    unfold literalValue
    dsimp only
    split
    · exact .pure rfl
    · exact .breakDown _
  | _ => exact .pure rfl

theorem onlyReads_nameValue {name : String} (hname : frames.HoldsPrimitive scope name) :
    OnlyReads frames (nameValue scope name) (·.isObject = false) mayExhaust := by
  refine .readFrames ?_
  cases hvalue : frames.lookup? scope name with
  | none => exact .throwFault _
  | some v => exact .pure (hname v hvalue)

section Parts

variable {e left right : Expression} {es : List Expression}
  (he : OnlyReads frames (engine.evaluate scope e) (·.isObject = false) mayExhaust)
  (hes : ∀ e ∈ es, OnlyReads frames (engine.evaluate scope e) (·.isObject = false) mayExhaust)

include he in
/-- A name that is not bound has a type all the same. -/
theorem onlyReads_typeOfOperand :
    OnlyReads frames (engine.typeOfOperand scope e) (·.isObject = false) mayExhaust := by
  unfold typeOfOperand
  refine .readFrames ?_
  split
  · exact .pure rfl
  · refine he.bind fun v hv => ?_
    have htype : OnlyReads frames (pure (Value.ofText ((default : Heap).typeOf v)))
        (·.isObject = false) mayExhaust := .pure rfl
    refine htype.congr fun m _ => ?_
    rw [readHeap_bind, Heap.typeOf_of_primitive hv m.heap default]

include he in
theorem onlyReads_unary {op : UnaryOperator} (hop : op ≠ .delete) :
    OnlyReads frames (engine.unary scope op e) (·.isObject = false) mayExhaust := by
  cases op with
  | delete => exact absurd rfl hop
  | typeOf => exact onlyReads_typeOfOperand he
  | not | void => exact he.bind fun _ _ => .pure rfl
  | plus => exact he.bind fun _ hv => onlyReads_plus hv
  | minus => exact he.bind fun _ hv => onlyReads_minus hv
  | bitwiseNot => exact he.bind fun _ hv => onlyReads_bitwiseNot hv

include hes in
theorem onlyReads_evaluateSequence {last : Value} (hlast : last.isObject = false) :
    OnlyReads frames (engine.evaluateSequence scope last es) (·.isObject = false) mayExhaust := by
  induction es generalizing last with
  | nil => exact .pure hlast
  | cons e es ih =>
    obtain ⟨he, hes⟩ := List.forall_mem_cons.mp hes
    exact he.bind fun v hv => ih hes hv

include hes in
theorem onlyReads_templateText (written : String) (texts : List (Option String)) :
    OnlyReads frames (engine.templateText scope written texts es) (fun _ => True) mayExhaust := by
  induction texts generalizing written es with
  | nil =>
    rw [templateText]
    exact .pure trivial
  | cons text texts ih =>
    cases text with
    | none =>
      rw [templateText]
      exact .breakDown _
    | some text =>
      cases es with
      | nil =>
        rw [templateText]
        exact ih hes _
      | cons e es =>
        obtain ⟨he, hes⟩ := List.forall_mem_cons.mp hes
        rw [templateText]
        refine he.bind fun v hv => ?_
        rw [toText_of_primitive hv, pure_bind]
        exact ih hes _

end Parts

/-! ## Calculations -/

/-- The expression is evaluated by reading alone, with any fuel.  With that much fuel the steps do not
run out. -/
def ReadsWith (frames : Frames) (scope : FrameId) (enough : Nat) (e : Expression) : Prop :=
  ∀ fuel name, OnlyReads frames ((ofFuel fuel).evaluateAs name scope e) (·.isObject = false)
    (fuel < enough)

section ReadsWith

variable {enough more : Nat} {e : Expression} {es : List Expression}

theorem ReadsWith.mono (h : ReadsWith frames scope enough e) (hle : enough ≤ more) :
    ReadsWith frames scope more e :=
  fun fuel name => (h fuel name).mono fun hlt => hlt.trans_le hle

/-- An expression takes one step more than its parts. -/
theorem readsWith_succ (h : ∀ fuel name, OnlyReads frames
      ((ofFuel fuel).evaluateExpression name scope e) (·.isObject = false) (fuel < enough)) :
    ReadsWith frames scope (enough + 1) e := by
  intro fuel name
  cases fuel with
  | zero => exact .exhausted (Nat.succ_pos enough)
  | succ fuel => exact (h fuel name).mono Nat.succ_lt_succ

theorem exists_readsWith_all (h : ∀ e ∈ es, ∃ enough, ReadsWith frames scope enough e) :
    ∃ enough, ∀ e ∈ es, ReadsWith frames scope enough e := by
  induction es with
  | nil => exact ⟨0, nofun⟩
  | cons e es ih =>
    obtain ⟨⟨n, hn⟩, hes⟩ := List.forall_mem_cons.mp h
    obtain ⟨k, hk⟩ := ih hes
    exact ⟨max n k, List.forall_mem_cons.mpr
      ⟨hn.mono (le_max_left n k), fun e he => (hk e he).mono (le_max_right n k)⟩⟩

/-- A calculation is evaluated by reading alone.  The induction is on the expression, and the fuel that
is enough for it is one more than what is enough for its parts. -/
theorem exists_readsWith (h : e.IsCalculation (frames.HoldsPrimitive scope)) :
    ∃ enough, ReadsWith frames scope enough e := by
  induction h with
  | literal l => exact ⟨1, readsWith_succ fun _ _ => onlyReads_literalValue l⟩
  | identifier hname => exact ⟨1, readsWith_succ fun _ _ => onlyReads_nameValue hname⟩
  | unary hop _ ih =>
    obtain ⟨enough, h⟩ := ih
    exact ⟨enough + 1, readsWith_succ fun fuel _ => onlyReads_unary (h fuel "") hop⟩
  | @binary op left right hkey hinstance _ _ ihl ihr =>
    obtain ⟨n, hleft⟩ := ihl
    obtain ⟨k, hright⟩ := ihr
    refine ⟨max n k + 1, readsWith_succ fun fuel name => ?_⟩
    refine ((hleft.mono (le_max_left n k)) fuel "").bind fun v hv => ?_
    exact ((hright.mono (le_max_right n k)) fuel "").bind fun w hw =>
      onlyReads_binary hv hw hkey hinstance
  | @logical op left right _ _ ihl ihr =>
    obtain ⟨n, hleft⟩ := ihl
    obtain ⟨k, hright⟩ := ihr
    refine ⟨max n k + 1, readsWith_succ fun fuel name => ?_⟩
    refine ((hleft.mono (le_max_left n k)) fuel "").bind fun v hv => ?_
    split
    · exact .pure hv
    · exact (hright.mono (le_max_right n k)) fuel ""
  | @conditional test consequent alternate _ _ _ iht ihc iha =>
    obtain ⟨n, htest⟩ := iht
    obtain ⟨k, hconsequent⟩ := ihc
    obtain ⟨l, halternate⟩ := iha
    refine ⟨max n (max k l) + 1, readsWith_succ fun fuel name => ?_⟩
    refine ((htest.mono (le_max_left _ _)) fuel "").bind fun v _ => ?_
    split
    · exact (hconsequent.mono (le_max_of_le_right (le_max_left k l))) fuel ""
    · exact (halternate.mono (le_max_of_le_right (le_max_right k l))) fuel ""
  | sequence _ ih =>
    obtain ⟨enough, h⟩ := exists_readsWith_all ih
    exact ⟨enough + 1, readsWith_succ fun fuel _ =>
      onlyReads_evaluateSequence (fun e he => h e he fuel "") rfl⟩
  | template _ ih =>
    obtain ⟨enough, h⟩ := exists_readsWith_all ih
    refine ⟨enough + 1, readsWith_succ fun fuel _ => ?_⟩
    exact (onlyReads_templateText (fun e he => h e he fuel "") "" _).bind fun _ _ => .pure rfl

end ReadsWith

/-- **Calculations change nothing and can be repeated.**  The evaluation of a calculation whose names
are not bound or stand for primitive values leaves the frames, what is asked for, the objects that are
there and all else as they are.  Only an error that it throws is new.  Evaluated again behind that, the
calculation has the same value, throws an error with the same content or fails in the same way.  That
is so with any fuel, and with enough of it the steps do not run out. -/
theorem calculations_repeat {e : Expression} {m : Machine}
    (h : e.IsCalculation (m.frames.HoldsPrimitive scope)) :
    (∀ fuel name, ((ofFuel fuel).evaluateAs name scope e).Repeats m) ∧
    ∃ enough, ∀ fuel, enough ≤ fuel → ∀ name m',
      (ofFuel fuel).evaluateAs name scope e m ≠ .error .exhausted m' := by
  obtain ⟨enough, hreads⟩ := exists_readsWith h
  refine ⟨fun fuel name => (hreads fuel name).repeats, enough, fun fuel hle name m' => ?_⟩
  exact (hreads fuel name).ne_exhausted (Nat.not_lt.mpr hle) m'

/-- A machine on which a name stands for a number. -/
def oneNumber : Machine :=
  { Machine.empty with
    frames := ⟨#[({ parent := none, kind := .block } : Frame).declareVariable "x" (.number 2.0)]⟩ }

/-- The type of a name that is not bound, and behind it the difference of a number and an integer. -/
def mixedDifference : Expression :=
  .binary .add (.unary .typeOf (.identifier "missing"))
    (.binary .subtract (.identifier "x") (.literal (.bigint "1")))

/-- A calculation that throws, and throws another error of the same content when it is repeated. -/
theorem calculations_repeat_mixed :
    mixedDifference.IsCalculation (oneNumber.frames.HoldsPrimitive ⟨0⟩) ∧
    ((ofFuel 3).evaluateAs "" ⟨0⟩ mixedDifference).Repeats oneNumber ∧
    (ofFuel 3).evaluateAs "" ⟨0⟩ mixedDifference oneNumber =
      .error (.thrown (.object ⟨0⟩)) (oneNumber.afterFault .mixedBigint) := by
  have hcalculation : mixedDifference.IsCalculation (oneNumber.frames.HoldsPrimitive ⟨0⟩) := by
    refine .binary nofun nofun (.unary nofun (.identifier fun v hv => ?_))
      (.binary nofun nofun (.identifier fun v hv => ?_) (.literal _))
    · cases hv
    · cases hv
      rfl
  exact ⟨hcalculation, (calculations_repeat hcalculation).1 3 "", rfl⟩

end Engine

end EcmaEval
