import EcmaEval.Library.Call
import EcmaEval.Proofs.Part.Basic

/-!
# The parts of the library

What calls back into the program asks its engine for the call.  With alike engines it ends alike:
each function of the library passes a breakdown on, and does nothing behind it.

## Main results

* `Alike.alike_callBuiltin`: a call of the library
-/

namespace EcmaEval.Alike

open EcmaEval.Action EcmaEval.Engine

variable {h h' : Halt} {engine engine' : Engine} [hengine : Engine.Alike h h' engine engine']

/-! ## Calls and properties -/

instance (callee this : Value) (args : List Value) :
    Alike h h' (engine.callValue callee this args) (engine'.callValue callee this args) := by
  unfold callValue
  refine .bind fun callable => ?_
  split <;> infer_instance

instance (property : Option Property) (receiver : Value) :
    Alike h h' (engine.readProperty property receiver)
      (engine'.readProperty property receiver) := by
  unfold readProperty
  split <;> infer_instance

instance (id : ObjectId) (key : String) (receiver : Value) :
    Alike h h' (engine.getProperty id key receiver) (engine'.getProperty id key receiver) := by
  unfold getProperty
  infer_instance

instance (id : ObjectId) (key : String) :
    Alike h h' (engine.getOf id key) (engine'.getOf id key) := by
  unfold getOf
  infer_instance

instance (s : UnitString) (key : String) :
    Alike h h' (engine.getOfString s key) (engine'.getOfString s key) := by
  unfold getOfString
  split
  · infer_instance
  · split <;> infer_instance

instance (target : Value) (key : String) :
    Alike h h' (engine.get target key) (engine'.get target key) := by
  unfold Engine.get
  split
  -- Other primitives find their properties in a prototype.
  case h_5 =>
    refine .bind fun prototype => ?_
    split <;> infer_instance
  all_goals infer_instance

/-! ## Conversions -/

instance (id : ObjectId) (methods : List String) :
    Alike h h' (engine.primitiveByMethods id methods) (engine'.primitiveByMethods id methods) := by
  -- Induction on the methods that are left to try.
  induction methods with
  | nil =>
    unfold primitiveByMethods
    infer_instance
  | cons method methods ih =>
    unfold primitiveByMethods
    infer_instance

instance (v : Value) (preference : Preference) :
    Alike h h' (engine.toPrimitive v preference) (engine'.toPrimitive v preference) := by
  unfold toPrimitive
  split <;> infer_instance

instance (v : Value) : Alike h h' (engine.toUnits v) (engine'.toUnits v) := by
  unfold Engine.toUnits
  infer_instance

instance (v : Value) : Alike h h' (engine.toText v) (engine'.toText v) := by
  unfold toText
  infer_instance

instance (v : Value) : Alike h h' (engine.toNumber v) (engine'.toNumber v) := by
  unfold toNumber
  infer_instance

instance (v : Value) : Alike h h' (engine.toNumeric v) (engine'.toNumeric v) := by
  unfold toNumeric
  infer_instance

instance (v : Value) : Alike h h' (engine.toKey v) (engine'.toKey v) := by
  unfold toKey
  split <;> infer_instance

instance (v w : Value) : Alike h h' (engine.looseEqual v w) (engine'.looseEqual v w) := by
  unfold looseEqual
  split <;> infer_instance

instance (key : String) (value : Value) :
    Alike h h' (engine.checkArrayWrite key value) (engine'.checkArrayWrite key value) := by
  unfold checkArrayWrite
  split
  · infer_instance
  · split <;> infer_instance

instance (receiver : Value) (key : String) (value : Value) :
    Alike h h' (engine.writeOwn receiver key value) (engine'.writeOwn receiver key value) := by
  unfold writeOwn
  split <;> infer_instance

instance (id : ObjectId) (key : String) (value receiver : Value) :
    Alike h h' (engine.setProperty id key value receiver)
      (engine'.setProperty id key value receiver) := by
  unfold setProperty
  refine .bind fun property => ?_
  split <;> infer_instance

instance (target : Value) (key : String) (value : Value) :
    Alike h h' (engine.set target key value) (engine'.set target key value) := by
  unfold Engine.set
  split <;> infer_instance

instance (v constructor : Value) :
    Alike h h' (engine.instanceOf v constructor) (engine'.instanceOf v constructor) := by
  unfold instanceOf
  refine .bind fun callable => ?_
  split
  · refine .bind fun target => ?_
    split
    · refine .bind fun prototype => ?_
      split <;> infer_instance
    · infer_instance
  · infer_instance

instance (id : ObjectId) : Alike h h' (engine.listElements id) (engine'.listElements id) := by
  unfold listElements
  refine .bind fun elements => ?_
  split <;> infer_instance

/-! ## Operators -/

instance (op : ArithmeticOperator) (v w : Value) :
    Alike h h' (engine.arithmetic op v w) (engine'.arithmetic op v w) := by
  unfold arithmetic
  infer_instance

instance (v w : Value) : Alike h h' (engine.add v w) (engine'.add v w) := by
  unfold add
  infer_instance

instance (v w : Value) : Alike h h' (engine.less v w) (engine'.less v w) := by
  unfold less
  infer_instance

instance (v w : Value) : Alike h h' (engine.lessFlipped v w) (engine'.lessFlipped v w) := by
  unfold lessFlipped
  infer_instance

instance (key object : Value) :
    Alike h h' (engine.hasKey key object) (engine'.hasKey key object) := by
  unfold hasKey
  split <;> infer_instance

instance (op : BinaryOperator) (v w : Value) :
    Alike h h' (engine.binary op v w) (engine'.binary op v w) := by
  unfold binary
  split <;> infer_instance

instance (v : Value) : Alike h h' (engine.plus v) (engine'.plus v) := by
  unfold plus
  refine .bind fun x => ?_
  split <;> infer_instance

instance (v : Value) : Alike h h' (engine.minus v) (engine'.minus v) := by
  unfold minus
  refine .bind fun x => ?_
  split <;> infer_instance

instance (v : Value) : Alike h h' (engine.bitwiseNot v) (engine'.bitwiseNot v) := by
  unfold bitwiseNot
  refine .bind fun x => ?_
  split <;> infer_instance

/-! ## Functions and errors -/

instance (v : Value) : Alike h h' (engine.argumentList v) (engine'.argumentList v) := by
  unfold argumentList
  split <;> infer_instance

instance (f : FunctionMethod) (this : Value) (args : List Value) :
    Alike h h' (engine.callFunctionMethod f this args)
      (engine'.callFunctionMethod f this args) := by
  unfold callFunctionMethod
  cases f <;> infer_instance

instance (kind : ErrorKind) (this : Value) (args : List Value) :
    Alike h h' (engine.callError kind this args) (engine'.callError kind this args) := by
  unfold callError
  refine .bind fun id => ?_
  dsimp only
  -- The cause comes next, with or without a message before it.
  split <;> split <;> infer_instance

instance (v : Value) (key default : String) :
    Alike h h' (engine.textOfProperty v key default) (engine'.textOfProperty v key default) := by
  unfold textOfProperty
  infer_instance

instance (this : Value) : Alike h h' (engine.errorSource this) (engine'.errorSource this) := by
  unfold errorSource
  infer_instance

/-! ## Numbers, booleans and integers -/

instance (v : Value) : Alike h h' (engine.radixArgument v) (engine'.radixArgument v) := by
  unfold radixArgument
  infer_instance

instance (v : Value) : Alike h h' (engine.placesArgument v) (engine'.placesArgument v) := by
  unfold placesArgument
  infer_instance

instance (f : NumberFunction) (this : Value) (args : List Value) :
    Alike h h' (engine.callNumber f this args) (engine'.callNumber f this args) := by
  unfold callNumber
  extract_lets first
  split
  case h_1 =>
    split
    · infer_instance
    · refine .bind fun x => ?_
      split <;> infer_instance
  case h_5 =>
    split
    · split <;> infer_instance
    · infer_instance
  all_goals infer_instance

instance (f : WrapperFunction) (this : Value) (args : List Value) :
    Alike h h' (engine.callInteger f this args) (engine'.callInteger f this args) := by
  unfold callInteger
  split <;> infer_instance

instance (f : MathFunction) (args : List Value) :
    Alike h h' (engine.callMath f args) (engine'.callMath f args) := by
  unfold callMath
  dsimp only
  cases f <;> infer_instance

instance (f : GlobalFunction) (args : List Value) :
    Alike h h' (engine.callGlobal f args) (engine'.callGlobal f args) := by
  unfold callGlobal
  cases f <;> infer_instance

/-! ## Objects -/

instance (v : Value) (f : String → Value → Action Value) (keys : List String) :
    Alike h h' (engine.mapKeys v f keys) (engine'.mapKeys v f keys) := by
  unfold mapKeys
  infer_instance

instance (target source : Value) :
    Alike h h' (engine.assignFrom target source) (engine'.assignFrom target source) := by
  unfold assignFrom
  infer_instance

instance (descriptor : ObjectId) (name : String) :
    Alike h h' (engine.attribute? descriptor name) (engine'.attribute? descriptor name) := by
  unfold attribute?
  infer_instance

instance (descriptor : ObjectId) :
    Alike h h' (engine.readAttributes descriptor) (engine'.readAttributes descriptor) := by
  unfold readAttributes
  infer_instance

instance (id : ObjectId) (key : String) (descriptor : Value) :
    Alike h h' (engine.defineFrom id key descriptor) (engine'.defineFrom id key descriptor) := by
  unfold defineFrom
  split <;> infer_instance

instance (prototype properties : Value) :
    Alike h h' (engine.createObject prototype properties)
      (engine'.createObject prototype properties) := by
  unfold createObject
  infer_instance

instance (f : ObjectFunction) (this : Value) (args : List Value) :
    Alike h h' (engine.callObject f this args) (engine'.callObject f this args) := by
  unfold callObject
  dsimp only
  cases f
  case getPrototypeOf =>
    dsimp only
    split <;> infer_instance
  case defineProperty =>
    dsimp only
    split <;> infer_instance
  all_goals infer_instance

/-! ## Arrays -/

section Fold

variable {σ : Type} (id : ObjectId) (callback receiver : Value)
  (visit : Nat → Value → Value → σ → ForInStep σ)

instance (count i : Nat) (s : σ) :
    Alike h h' (engine.foldCalls id callback receiver visit count i s)
      (engine'.foldCalls id callback receiver visit count i s) := by
  -- Induction on the number of elements that are left to visit.
  induction count generalizing i s with
  | zero =>
    unfold foldCalls
    infer_instance
  | succ count ih =>
    unfold foldCalls
    refine .bind fun element => ?_
    split
    · infer_instance
    · refine .bind fun result => ?_
      split
      · infer_instance
      · exact ih _ _

instance (args : List Value) (start : σ) :
    Alike h h' (engine.foldElements id args start visit)
      (engine'.foldElements id args start visit) := by
  unfold foldElements
  infer_instance

end Fold

instance (id : ObjectId) (args : List Value) (wanted : Bool) :
    Alike h h' (engine.findCall id args wanted) (engine'.findCall id args wanted) := by
  unfold findCall
  infer_instance

instance (id : ObjectId) (args : List Value) :
    Alike h h' (engine.mapCalls id args) (engine'.mapCalls id args) := by
  unfold mapCalls
  infer_instance

instance (id : ObjectId) (args : List Value) :
    Alike h h' (engine.filterCalls id args) (engine'.filterCalls id args) := by
  unfold filterCalls
  infer_instance

instance (id : ObjectId) (callback : Value) (count i : Nat) (acc : Value) :
    Alike h h' (engine.reduceCalls id callback count i acc)
      (engine'.reduceCalls id callback count i acc) := by
  induction count generalizing i acc with
  | zero =>
    unfold reduceCalls
    infer_instance
  | succ count ih =>
    unfold reduceCalls
    refine .bind fun element => ?_
    split <;> infer_instance

instance (id : ObjectId) (args : List Value) :
    Alike h h' (engine.reduceArray id args) (engine'.reduceArray id args) := by
  unfold reduceArray
  refine .bind fun _ => .bind fun length => .bind fun first => ?_
  split <;> infer_instance

instance (comparator v w : Value) :
    Alike h h' (engine.precedes comparator v w) (engine'.precedes comparator v w) := by
  unfold precedes
  infer_instance

instance (comparator : Value) (left right : List Value) :
    Alike h h' (engine.mergeSorted comparator left right)
      (engine'.mergeSorted comparator left right) := by
  fun_induction engine.mergeSorted comparator left right with
  | case1 right =>
    rw [mergeSorted]
    infer_instance
  | case2 left hleft =>
    rw [mergeSorted.eq_2 _ _ _ hleft]
    infer_instance
  | case3 l left r right ihRight ihLeft =>
    rw [mergeSorted]
    infer_instance

instance (comparator : Value) (values : List Value) :
    Alike h h' (engine.sortValues comparator values) (engine'.sortValues comparator values) := by
  fun_induction engine.sortValues comparator values with
  | case1 values hshort =>
    rw [sortValues, dif_pos hshort]
    infer_instance
  | case2 values hlong _ _ ihLeft ihRight =>
    rw [sortValues.eq_def engine', dif_neg hlong]
    infer_instance

instance (id : ObjectId) (comparator : Value) :
    Alike h h' (engine.sortArray id comparator) (engine'.sortArray id comparator) := by
  unfold sortArray
  infer_instance

instance (v : Value) : Alike h h' (engine.joinedUnits v) (engine'.joinedUnits v) := by
  unfold joinedUnits
  infer_instance

instance (id : ObjectId) (separator : String) :
    Alike h h' (engine.joinArray id separator) (engine'.joinArray id separator) := by
  unfold joinArray
  infer_instance

instance (args : List Value) (rest : Nat) :
    Alike h h' (engine.spliceCount args rest) (engine'.spliceCount args rest) := by
  unfold spliceCount
  split <;> infer_instance

instance (id : ObjectId) (args : List Value) :
    Alike h h' (engine.spliceArray id args) (engine'.spliceArray id args) := by
  unfold spliceArray
  refine .bind fun length => .bind fun count => .bind fun found => ?_
  split <;> infer_instance

instance (source : Value) :
    Alike h h' (engine.sourceElements source) (engine'.sourceElements source) := by
  unfold sourceElements
  split <;> infer_instance

instance (f receiver : Value) (i : Nat) (elements : List Value) (results : Array Value) :
    Alike h h' (engine.mapIndexed f receiver i elements results)
      (engine'.mapIndexed f receiver i elements results) := by
  induction elements generalizing i results with
  | nil =>
    unfold mapIndexed
    infer_instance
  | cons element elements ih =>
    unfold mapIndexed
    infer_instance

instance (args : List Value) : Alike h h' (engine.arrayFrom args) (engine'.arrayFrom args) := by
  unfold arrayFrom
  infer_instance

instance (f : ArrayFunction) (this : Value) (args : List Value) :
    Alike h h' (engine.callArray f this args) (engine'.callArray f this args) := by
  unfold callArray
  dsimp only
  cases f
  case isArray =>
    dsimp only
    split <;> infer_instance
  case indexOf =>
    refine .bind fun id => .bind fun elements => ?_
    split <;> infer_instance
  case findIndex =>
    refine .bind fun id => .bind fun found => ?_
    split <;> infer_instance
  all_goals infer_instance

/-! ## Promises -/

instance (id : ObjectId) (v : Value) :
    Alike h h' (engine.resolvePromise id v) (engine'.resolvePromise id v) := by
  unfold resolvePromise
  refine .bind fun promise => ?_
  split
  · infer_instance
  · split
    · infer_instance
    · split <;> infer_instance

instance (outcome : Settlement) (reaction : Reaction) :
    Alike h h' (engine.runReaction outcome reaction) (engine'.runReaction outcome reaction) := by
  unfold runReaction
  refine .bind fun callable => ?_
  split
  · refine .bind fun result => ?_
    split <;> infer_instance
  · split <;> infer_instance

instance alike_settlePromise (id : ObjectId) (outcome : Settlement) :
    Alike h h' (engine.settlePromise id outcome) (engine'.settlePromise id outcome) := by
  unfold settlePromise
  refine .bind fun state => ?_
  split <;> infer_instance

instance (this onFulfilled onRejected : Value) :
    Alike h h' (engine.attachReaction this onFulfilled onRejected)
      (engine'.attachReaction this onFulfilled onRejected) := by
  unfold attachReaction
  refine .bind fun promise => ?_
  split
  · infer_instance
  · refine .bind fun derived => ?_
    dsimp only
    split <;> infer_instance

instance (id : ObjectId) (fulfills : Bool) (v : Value) :
    Alike h h' (engine.callResolver id fulfills v) (engine'.callResolver id fulfills v) := by
  unfold callResolver
  refine .bind fun state => ?_
  split <;> infer_instance

instance (settle settle' : ObjectId → Action Unit) [∀ id, Alike h h' (settle id) (settle' id)] :
    Alike h h' (newSettledPromise settle) (newSettledPromise settle') := by
  unfold newSettledPromise
  infer_instance

instance (callback : Value) (fulfills : Bool) (v : Value) :
    Alike h h' (engine.callAfterwards callback fulfills v)
      (engine'.callAfterwards callback fulfills v) := by
  unfold callAfterwards
  infer_instance

instance (this executor : Value) :
    Alike h h' (engine.constructPromise this executor)
      (engine'.constructPromise this executor) := by
  unfold constructPromise
  refine .bind fun target => ?_
  split
  case h_1 id =>
    dsimp only
    -- The executor runs behind the check of it.
    refine .bind fun callable => ?_
    split
    · refine .bind fun _ => .bind fun resolve => .bind fun reject => .bind fun result => ?_
      split <;> infer_instance
    · refine .bind fun _ => .bind fun _ => .bind fun _ => .bind fun resolve =>
        .bind fun reject => .bind fun result => ?_
      split <;> infer_instance
  case h_2 => infer_instance

instance (f : PromiseFunction) (this : Value) (args : List Value) :
    Alike h h' (engine.callPromise f this args) (engine'.callPromise f this args) := by
  unfold callPromise
  dsimp only
  cases f <;> infer_instance

/-! ## Strings -/

instance (this : Value) (method : StringMethod) :
    Alike h h' (engine.receivedUnits this method) (engine'.receivedUnits this method) := by
  unfold receivedUnits
  split <;> infer_instance

instance (arg : Option Value) (default : Float) :
    Alike h h' (engine.integerArgument arg default) (engine'.integerArgument arg default) := by
  unfold integerArgument
  split <;> infer_instance

instance (arg : Option Value) (default size : Nat) :
    Alike h h' (engine.clampedArgument arg default size)
      (engine'.clampedArgument arg default size) := by
  unfold clampedArgument
  infer_instance

instance (s : UnitString) (args : List Value) :
    Alike h h' (engine.splitString s args) (engine'.splitString s args) := by
  unfold splitString
  dsimp only
  -- The pieces are cut whatever the limit is, and it comes from one of two branches.
  split <;> split <;> infer_instance

instance (s : UnitString) (args : List Value) (atStart : Bool) :
    Alike h h' (engine.padString s args atStart) (engine'.padString s args atStart) := by
  unfold padString
  refine .bind fun target => ?_
  dsimp only
  split <;> infer_instance

instance (s search : UnitString) (arg : Value) :
    Alike h h' (engine.lastIndex s search arg) (engine'.lastIndex s search arg) := by
  unfold lastIndex
  dsimp only
  split <;> infer_instance

instance (method : StringMethod) (s : UnitString) (args : List Value) :
    Alike h h' (engine.callStringMethod method s args)
      (engine'.callStringMethod method s args) := by
  unfold callStringMethod
  cases method
  case charCodeAt =>
    refine .bind fun x => ?_
    split
    · infer_instance
    · split <;> infer_instance
  all_goals infer_instance

instance (v : Value) : Alike h h' (engine.toUnit v) (engine'.toUnit v) := by
  unfold toUnit
  infer_instance

instance (f : StringFunction) (this : Value) (args : List Value) :
    Alike h h' (engine.callString f this args) (engine'.callString f this args) := by
  unfold callString
  split
  case h_1 => split <;> infer_instance
  case h_4 => split <;> infer_instance
  case h_5 => split <;> infer_instance
  all_goals infer_instance

/-! ## Calls -/

instance alike_callBuiltin (f : Builtin) (this : Value) (args : List Value) :
    Alike h h' (engine.callBuiltin f this args) (engine'.callBuiltin f this args) := by
  unfold callBuiltin
  cases f <;> infer_instance

instance (request : HostRequest) :
    Alike h h' (engine.answerHost request) (engine'.answerHost request) := by
  unfold answerHost
  cases request <;> infer_instance

theorem alike_runHost (steps : HostSteps) :
    Alike h h' (engine.runHost steps) (engine'.runHost steps) := by
  induction steps with
  | ask request next ih =>
    unfold runHost
    exact .bind fun answer => ih answer
  | _ =>
    unfold runHost
    infer_instance

instance (f : HostFunction) (this : Value) (args : List Value) :
    Alike h h' (engine.callHost f this args) (engine'.callHost f this args) :=
  alike_runHost _

end EcmaEval.Alike
