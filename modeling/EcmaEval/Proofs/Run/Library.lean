import EcmaEval.Library.Call
import EcmaEval.Library.Realm
import EcmaEval.Proofs.Run.Engine

/-!
# The library keeps to a discipline

The functions of the library call back, but hold no code and leave nothing asked for: all of them
are steady.  So is the installation of the library.

## Main results

* `Discipline.steady_callBuiltin`: a call of the library
* `Discipline.ends_inNewRealm`: an action in a realm of its own
-/

namespace EcmaEval.Discipline

open EcmaEval.Action Engine

variable {D : Discipline} {engine : Engine} [hengine : engine.Obeys D]

/-! ## Functions and errors -/

instance (v : Value) : D.Steady (engine.argumentList v) := by
  unfold argumentList
  split <;> infer_instance

instance (this receiver : Value) (args : List Value) :
    D.Steady (bindFunction this receiver args) := by
  unfold bindFunction
  refine .bind fun callable => ?_
  split
  case h_1 id =>
    have hbound (name : String) (length : Nat) :
        D.Steady (newFunction (.bound id receiver args) name length) :=
      steady_newFunction (.bound id receiver args) trivial rfl name length
    infer_instance
  case h_2 => infer_instance

instance (this : Value) : D.Steady (functionSource this) := by
  unfold functionSource
  refine .bind fun callable => ?_
  split <;> infer_instance

instance (f : FunctionMethod) (this : Value) (args : List Value) :
    D.Steady (engine.callFunctionMethod f this args) := by
  unfold callFunctionMethod
  cases f <;> infer_instance

instance (kind : ErrorKind) (this : Value) : D.Steady (errorInstance kind this) := by
  unfold errorInstance
  refine .bind fun target => ?_
  split <;> infer_instance

instance (kind : ErrorKind) (this : Value) (args : List Value) :
    D.Steady (engine.callError kind this args) := by
  unfold callError
  refine .bind fun id => ?_
  extract_lets message last cause
  -- The cause comes next, with or without a message before it.
  have hcause (x : Unit) : D.Steady (cause x) := by
    unfold cause
    split <;> infer_instance
  clear_value cause
  infer_instance

instance (v : Value) (key default : String) :
    D.Steady (engine.textOfProperty v key default) := by
  unfold textOfProperty
  infer_instance

instance (this : Value) : D.Steady (engine.errorSource this) := by
  unfold errorSource
  infer_instance

/-! ## Numbers, booleans and integers -/

instance {α : Type} (typeName : String) (signature : String × Nat) :
    D.Steady (wrongReceiver typeName signature : Action α) := by
  unfold wrongReceiver
  infer_instance

instance (v : Value) : D.Steady (engine.radixArgument v) := by
  unfold radixArgument
  infer_instance

instance (v : Value) : D.Steady (engine.placesArgument v) := by
  unfold placesArgument
  infer_instance

instance (f : NumberFunction) (this : Value) (args : List Value) :
    D.Steady (engine.callNumber f this args) := by
  unfold callNumber
  extract_lets first
  split
  case h_1 =>
    split
    · infer_instance
    · refine .bind fun x => ?_
      split <;> infer_instance
  case h_5 =>
    split
    · split <;> infer_instance
    · infer_instance
  all_goals infer_instance

instance (f : WrapperFunction) (this : Value) (args : List Value) :
    D.Steady (callBoolean f this args) := by
  unfold callBoolean
  split <;> infer_instance

instance (v : Value) : D.Steady (toInteger v) := by
  unfold toInteger
  split <;> infer_instance

instance (f : WrapperFunction) (this : Value) (args : List Value) :
    D.Steady (engine.callInteger f this args) := by
  unfold callInteger
  split <;> infer_instance

instance (f : MathFunction) (args : List Value) : D.Steady (engine.callMath f args) := by
  unfold callMath
  extract_lets onFirst onAll
  have hfirst (g : Float → Float) : D.Steady (onFirst g) := by
    unfold onFirst
    infer_instance
  have hall (g : Float → Float → Float) (start : Float) : D.Steady (onAll g start) := by
    unfold onAll
    infer_instance
  cases f <;> infer_instance

instance (f : GlobalFunction) (args : List Value) : D.Steady (engine.callGlobal f args) := by
  unfold callGlobal
  cases f <;> infer_instance

/-! ## Objects -/

instance (v : Value) : D.Steady (listedKeys v) := by
  unfold listedKeys
  split <;> infer_instance

instance (v : Value) (f : String → Value → Action Value) [∀ key v, D.Steady (f key v)]
    (keys : List String) : D.Steady (engine.mapKeys v f keys) := by
  unfold mapKeys
  infer_instance

instance (target source : Value) : D.Steady (engine.assignFrom target source) := by
  unfold assignFrom
  infer_instance

instance (v : Value) : D.Steady (prototypeOfValue v) := by
  unfold prototypeOfValue
  split <;> infer_instance

instance (descriptor : ObjectId) (name : String) :
    D.Steady (engine.attribute? descriptor name) := by
  unfold attribute?
  infer_instance

instance (f : Option Value) (fault : String → Fault) : D.Steady (checkAccessor f fault) := by
  unfold checkAccessor
  split <;> infer_instance

instance (descriptor : ObjectId) : D.Steady (engine.readAttributes descriptor) := by
  unfold readAttributes
  infer_instance

instance (id : ObjectId) (key : String) (descriptor : Value) :
    D.Steady (engine.defineFrom id key descriptor) := by
  unfold defineFrom
  split <;> infer_instance

instance (v : Value) : D.Steady (ownNames v) := by
  unfold ownNames
  split <;> infer_instance

instance (this : Value) (key : String) : D.Steady (hasOwnProperty this key) := by
  unfold hasOwnProperty
  split <;> infer_instance

instance (target : Value) (prototype : Option ObjectId) :
    D.Steady (setPrototype target prototype) := by
  unfold setPrototype
  split <;> infer_instance

instance (prototype properties : Value) : D.Steady (engine.createObject prototype properties) := by
  unfold createObject
  infer_instance

instance (f : ObjectFunction) (this : Value) (args : List Value) :
    D.Steady (engine.callObject f this args) := by
  unfold callObject
  dsimp only
  cases f
  case getPrototypeOf =>
    dsimp only
    split <;> infer_instance
  case defineProperty =>
    dsimp only
    split <;> infer_instance
  all_goals infer_instance

/-! ## Arrays -/

instance (this : Value) (method : ArrayFunction) : D.Steady (receivedArray this method) := by
  unfold receivedArray
  split <;> infer_instance

instance (id : ObjectId) : D.Steady (elementsOf id) := by
  unfold elementsOf
  infer_instance

instance (id : ObjectId) (i : Nat) : D.Steady (elementAt? id i) := by
  unfold elementAt?
  infer_instance

instance (id : ObjectId) : D.Steady (lengthOf id) := by
  unfold lengthOf
  infer_instance

instance (id : ObjectId) (change : Array Value → Array Value) :
    D.Steady (modifyElements id change) := by
  unfold modifyElements
  infer_instance

instance (v : Value) : D.Steady (requireFunction v) := by
  unfold requireFunction
  infer_instance

section Fold

variable {σ : Type} (id : ObjectId) (callback receiver : Value)
  (visit : Nat → Value → Value → σ → ForInStep σ)

instance (count i : Nat) (s : σ) :
    D.Steady (engine.foldCalls id callback receiver visit count i s) := by
  -- Induction on the number of elements that are left to visit.
  induction count generalizing i s with
  | zero =>
    unfold foldCalls
    infer_instance
  | succ count ih =>
    unfold foldCalls
    refine .bind fun element => ?_
    split
    · infer_instance
    · refine .bind fun result => ?_
      split
      · infer_instance
      · exact ih _ _

instance (args : List Value) (start : σ) :
    D.Steady (engine.foldElements id args start visit) := by
  unfold foldElements
  infer_instance

end Fold

instance (id : ObjectId) (args : List Value) (wanted : Bool) :
    D.Steady (engine.findCall id args wanted) := by
  unfold findCall
  infer_instance

instance (id : ObjectId) (args : List Value) : D.Steady (engine.mapCalls id args) := by
  unfold mapCalls
  infer_instance

instance (id : ObjectId) (args : List Value) : D.Steady (engine.filterCalls id args) := by
  unfold filterCalls
  infer_instance

instance (id : ObjectId) (callback : Value) (count i : Nat) (acc : Value) :
    D.Steady (engine.reduceCalls id callback count i acc) := by
  induction count generalizing i acc with
  | zero =>
    unfold reduceCalls
    infer_instance
  | succ count ih =>
    unfold reduceCalls
    refine .bind fun element => ?_
    split <;> infer_instance

instance (id : ObjectId) (args : List Value) : D.Steady (engine.reduceArray id args) := by
  unfold reduceArray
  refine .bind fun _ => .bind fun length => .bind fun first => ?_
  split <;> infer_instance

instance (comparator v w : Value) : D.Steady (engine.precedes comparator v w) := by
  unfold precedes
  infer_instance

instance (comparator : Value) (left right : List Value) :
    D.Steady (engine.mergeSorted comparator left right) := by
  fun_induction mergeSorted <;> infer_instance

instance (comparator : Value) (values : List Value) :
    D.Steady (engine.sortValues comparator values) := by
  fun_induction sortValues <;> infer_instance

instance (id : ObjectId) (comparator : Value) : D.Steady (engine.sortArray id comparator) := by
  unfold sortArray
  infer_instance

instance (v : Value) : D.Steady (engine.joinedUnits v) := by
  unfold joinedUnits
  infer_instance

instance (id : ObjectId) (separator : String) : D.Steady (engine.joinArray id separator) := by
  unfold joinArray
  infer_instance

instance (args : List Value) (rest : Nat) : D.Steady (engine.spliceCount args rest) := by
  unfold spliceCount
  split <;> infer_instance

instance (id : ObjectId) (args : List Value) : D.Steady (engine.spliceArray id args) := by
  unfold spliceArray
  refine .bind fun length => .bind fun count => .bind fun found => ?_
  split <;> infer_instance

instance (v : Value) : D.Steady (spreadArray v) := by
  unfold spreadArray
  split
  · refine .bind fun elements => ?_
    split <;> infer_instance
  · infer_instance

instance (args : List Value) : D.Steady (constructArray args) := by
  unfold constructArray
  split
  · split <;> infer_instance
  · infer_instance

instance (source : Value) : D.Steady (engine.sourceElements source) := by
  unfold sourceElements
  split <;> infer_instance

instance (f receiver : Value) (i : Nat) (elements : List Value) (results : Array Value) :
    D.Steady (engine.mapIndexed f receiver i elements results) := by
  induction elements generalizing i results with
  | nil =>
    unfold mapIndexed
    infer_instance
  | cons element elements ih =>
    unfold mapIndexed
    infer_instance

instance (args : List Value) : D.Steady (engine.arrayFrom args) := by
  unfold arrayFrom
  infer_instance

instance (f : ArrayFunction) (this : Value) (args : List Value) :
    D.Steady (engine.callArray f this args) := by
  unfold callArray
  dsimp only
  cases f
  case isArray =>
    dsimp only
    split <;> infer_instance
  case indexOf =>
    refine .bind fun id => .bind fun elements => ?_
    split <;> infer_instance
  case findIndex =>
    refine .bind fun id => .bind fun found => ?_
    split <;> infer_instance
  all_goals infer_instance

/-! ## Promises -/

instance (id : ObjectId) : D.Steady (promiseState? id) := by
  unfold promiseState?
  infer_instance

instance (v : Value) : D.Steady (promiseOf? v) := by
  unfold promiseOf?
  infer_instance

instance (id : ObjectId) (state : PromiseState) : D.Steady (setPromiseState id state) := by
  unfold setPromiseState
  infer_instance

instance (id : ObjectId) (reaction : Reaction) : D.Steady (addReaction id reaction) := by
  unfold addReaction
  refine .bind fun state => ?_
  split <;> infer_instance

instance (id : ObjectId) (v : Value) : D.Steady (engine.resolvePromise id v) := by
  unfold resolvePromise
  refine .bind fun promise => ?_
  split
  · infer_instance
  · split
    · infer_instance
    · split <;> infer_instance

instance (outcome : Settlement) (reaction : Reaction) :
    D.Steady (engine.runReaction outcome reaction) := by
  unfold runReaction
  refine .bind fun callable => ?_
  split
  · refine .bind fun result => ?_
    split <;> infer_instance
  · split <;> infer_instance

instance (id : ObjectId) (outcome : Settlement) : D.Steady (engine.settlePromise id outcome) := by
  unfold settlePromise
  refine .bind fun state => ?_
  split <;> infer_instance

instance (this onFulfilled onRejected : Value) :
    D.Steady (engine.attachReaction this onFulfilled onRejected) := by
  unfold attachReaction
  refine .bind fun promise => ?_
  split
  · infer_instance
  · refine .bind fun derived => ?_
    dsimp only
    split <;> infer_instance

instance (settle : ObjectId → Action Unit) [∀ id, D.Steady (settle id)] :
    D.Steady (newSettledPromise settle) := by
  unfold newSettledPromise
  infer_instance

instance (id : ObjectId) (fulfills : Bool) (v : Value) :
    D.Steady (engine.callResolver id fulfills v) := by
  unfold callResolver
  refine .bind fun state => ?_
  split <;> infer_instance

instance (callback : Value) (fulfills : Bool) (v : Value) :
    D.Steady (engine.callAfterwards callback fulfills v) := by
  unfold callAfterwards
  infer_instance

instance (this executor : Value) : D.Steady (engine.constructPromise this executor) := by
  unfold constructPromise
  refine .bind fun target => ?_
  split
  case h_1 id =>
    extract_lets settled
    -- What runs behind the check of the executor.
    have hsettled (x : Unit) : D.Steady (settled x) := by
      unfold settled
      refine .bind fun _ => .bind fun resolve => .bind fun reject => .bind fun result => ?_
      split <;> infer_instance
    clear_value settled
    infer_instance
  case h_2 => infer_instance

instance (f : PromiseFunction) (this : Value) (args : List Value) :
    D.Steady (engine.callPromise f this args) := by
  unfold callPromise
  cases f <;> infer_instance

/-! ## Strings -/

instance (this : Value) (method : StringMethod) : D.Steady (engine.receivedUnits this method) := by
  unfold receivedUnits
  split <;> infer_instance

instance (arg : Option Value) (default : Float) :
    D.Steady (engine.integerArgument arg default) := by
  unfold integerArgument
  split <;> infer_instance

instance (arg : Option Value) (default size : Nat) :
    D.Steady (engine.clampedArgument arg default size) := by
  unfold clampedArgument
  infer_instance

instance (s : UnitString) (args : List Value) : D.Steady (engine.splitString s args) := by
  unfold splitString
  extract_lets limited
  -- The pieces are cut whatever the limit is, and it comes from one of two branches.
  have hlimited (limit : Nat) : D.Steady (limited limit) := by
    unfold limited
    dsimp only
    split <;> infer_instance
  clear_value limited
  split <;> infer_instance

instance (s : UnitString) (args : List Value) (atStart : Bool) :
    D.Steady (engine.padString s args atStart) := by
  unfold padString
  refine .bind fun target => ?_
  dsimp only
  split <;> infer_instance

instance (s : UnitString) (count : Float) : D.Steady (repeatString s count) := by
  unfold repeatString
  infer_instance

instance (s search : UnitString) (arg : Value) : D.Steady (engine.lastIndex s search arg) := by
  unfold lastIndex
  dsimp only
  split <;> infer_instance

instance (method : StringMethod) (s : UnitString) (args : List Value) :
    D.Steady (engine.callStringMethod method s args) := by
  unfold callStringMethod
  cases method
  case charCodeAt =>
    refine .bind fun x => ?_
    split
    · infer_instance
    · split <;> infer_instance
  all_goals infer_instance

instance (v : Value) : D.Steady (engine.toUnit v) := by
  unfold toUnit
  infer_instance

instance (f : StringFunction) (this : Value) (args : List Value) :
    D.Steady (engine.callString f this args) := by
  unfold callString
  split
  case h_1 => split <;> infer_instance
  case h_4 => split <;> infer_instance
  case h_5 => split <;> infer_instance
  all_goals infer_instance

/-! ## Calls -/

instance steady_callBuiltin (f : Builtin) (this : Value) (args : List Value) :
    D.Steady (engine.callBuiltin f this args) := by
  unfold callBuiltin
  cases f <;> infer_instance

instance (request : HostRequest) : D.Steady (engine.answerHost request) := by
  unfold answerHost
  cases request <;> infer_instance

theorem steady_runHost (steps : HostSteps) : D.Steady (engine.runHost steps) := by
  induction steps with
  | ask request next ih =>
    unfold runHost
    exact .bind fun answer => ih answer
  | _ =>
    unfold runHost
    infer_instance

instance (f : HostFunction) (this : Value) (args : List Value) :
    D.Steady (engine.callHost f this args) :=
  steady_runHost _

/-! ## Realms -/

instance (name : String) (value : Value) : D.Steady (declareGlobal name value) := by
  unfold declareGlobal
  infer_instance

instance (target : ObjectId) (fs : List Builtin) : D.Steady (installMethods target fs) := by
  unfold installMethods
  infer_instance

instance (target : ObjectId) (constants : List (String × Float)) :
    D.Steady (installConstants target constants) := by
  unfold installConstants
  refine .modifyObject (fun o => ?_) fun o ho => ?_
  -- The constants are written on a library object in one change, which leaves it no function.
  · induction constants generalizing o with
    | nil => rfl
    | cons constant constants ih =>
      rw [List.foldl_cons, ih]
      exact o.callable?_define _ _
  · induction constants generalizing o with
    | nil => exact ho
    | cons constant constants ih =>
      rw [List.foldl_cons]
      exact ih _ (ho.rearrange (.property (.define _ _)))

instance (f : Builtin) (prototype : ObjectId) : D.Steady (installConstructor f prototype) := by
  unfold installConstructor
  have hfunction (name : String) (length : Nat) :
      D.Steady (newFunction (.native (.builtin f)) name length) :=
    steady_newFunction (.native (.builtin f)) trivial rfl name length
  infer_instance

instance (kind : ErrorKind) : D.Steady (installError kind) := by
  unfold installError
  have hnamed (prototype : ObjectId) : D.Steady <| modifyObject prototype fun o =>
      (o.insertHidden "name" (.ofText kind.name)).insertHidden "message" (.ofText "") :=
    .modifyObject (fun o => by simp) fun o ho =>
      (ho.rearrange (.property (.insertHidden "name" _))).rearrange
        (.property (.insertHidden "message" _))
  infer_instance

instance : D.Steady installObject := by
  unfold installObject
  infer_instance

instance : D.Steady installFunction := by
  unfold installFunction
  infer_instance

instance : D.Steady installErrors := by
  unfold installErrors
  infer_instance

instance : D.Steady installArray := by
  unfold installArray
  infer_instance

instance : D.Steady installString := by
  unfold installString
  infer_instance

instance : D.Steady installNumber := by
  unfold installNumber
  infer_instance

instance : D.Steady installBoolean := by
  unfold installBoolean
  infer_instance

instance : D.Steady installInteger := by
  unfold installInteger
  infer_instance

instance : D.Steady installMath := by
  unfold installMath
  infer_instance

instance : D.Steady installGlobals := by
  unfold installGlobals
  infer_instance

instance : D.Steady installPromise := by
  unfold installPromise
  infer_instance

instance : D.Steady installConsole := by
  unfold installConsole
  infer_instance

instance : D.Steady installLibrary := by
  unfold installLibrary
  iterate 11 refine .bind fun _ => ?_
  infer_instance

instance : D.Steady newRealm := by
  unfold newRealm
  refine .bind fun objectPrototype => ?_
  extract_lets blank derived
  -- Neither the prototypes nor the two frames of a realm hold any code.
  have hderived (c : ObjectClass) : D.Steady (derived c) :=
    ⟨keeps_allocate nofun (.of_not_array rfl)⟩
  have hglobal : D.Steady (addFrame constantsFrame) := ⟨keeps_addFrame rfl⟩
  have hprogram (outer : FrameId) :
      D.Steady (addFrame { parent := some outer, kind := .function }) :=
    ⟨keeps_addFrame rfl⟩
  clear_value derived
  iterate 14 refine .bind fun _ => ?_
  infer_instance

instance : D.Steady enterNewRealm := by
  unfold enterNewRealm
  refine .bind fun realm => ?_
  have : D.Steady (fun m => .ok () { m with realm } : Action Unit) :=
    ⟨fun _ hm hsignal => .ok ⟨hm.callable, hm.superCall⟩ (.of_eq ⟨rfl, rfl⟩ rfl rfl)
      ⟨hsignal, trivial⟩⟩
  exact .bind fun _ => inferInstance

/-- Whatever it finds asked for, an action in a realm of its own puts that back.  The tests go on
behind it, however it ends. -/
theorem ends_inNewRealm {α : Type} {a : Action α} [ha : D.Steady a] {m : Machine} (hm : D.Holds m)
    (hsignal : m.signal = none) :
    D.Ends m (fun _ after => after = none ∧ True) (inNewRealm a m) ∧
      ∀ e m', inNewRealm a m = .error e m' → m.Follows D.judges False m' := by
  have hentered : D.Steady (enterNewRealm >>= fun _ => a) := inferInstance
  -- All registers of the realm are blank, and those of the machine come back behind the action.
  let inner : Machine :=
    { m with options := {}, signal := none, newTarget := none, joining := [], tests := {} }
  have hheap : inner.heap = m.heap := rfl
  have hback {mayStop mayStop' : Prop} {m' m'' : Machine}
      (h : inner.Follows D.judges mayStop m') (hheap' : m''.heap = m'.heap)
      (htests : m''.tests = m.tests) (hsame : m.SameRegisters m'') :
      m.Follows D.judges mayStop' m'' :=
    { toSameRegisters := hsame
      tests := h.tests.elim fun es hes => ⟨[.apart es], .apart hheap hes hheap' htests⟩
      orderly := fun horderly => hheap' ▸ h.orderly horderly }
  have hend := hentered.keeps inner ⟨hm.callable, hm.superCall⟩ rfl
  unfold inNewRealm
  dsimp only
  generalize (enterNewRealm >>= fun _ => a) _ = result at hend
  cases hend with
  | ok hm' hfollows hx =>
    refine ⟨.ok ⟨hm'.callable, hm'.superCall⟩ (hback hfollows rfl rfl ⟨rfl, rfl⟩)
      ⟨hsignal, trivial⟩, fun e m' heq => ?_⟩
    cases heq
  | error hm' hfollows hnone he =>
    refine ⟨.error ⟨hm'.callable, hm'.superCall⟩ (hback hfollows rfl rfl ⟨rfl, rfl⟩) hsignal he,
      fun e m' heq => ?_⟩
    cases heq
    exact hback hfollows rfl rfl ⟨rfl, rfl⟩

end EcmaEval.Discipline
