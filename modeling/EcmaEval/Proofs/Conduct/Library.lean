import EcmaEval.Library.Call
import EcmaEval.Proofs.Conduct.Engine
import EcmaEval.Proofs.Run.Library

/-!
# The library conducts itself well

The functions of the library read and write what they are given.  Two of them need more of an
argument: a prototype is set only where its chain does not come back to the object, and an error
constructor makes an error only of what is no promise.

## Main results

* `Law.Conducts.setPrototype`: a prototype that is set for an object
* `Law.ends_errorInstance`: the object that an error constructor fills in
-/

namespace EcmaEval.Law

open EcmaEval.Action EcmaEval.Engine EcmaEval.Knowledge

variable {L : Law} {K : Knowledge} {engine : Engine} [hengine : engine.Behaves L]

namespace Conducts

/-! ## Functions and errors -/

instance (v : Value) [Shown K v] : L.Conducts K (engine.argumentList v) := by
  unfold argumentList
  split <;> infer_instance

instance (this receiver : Value) (args : List Value) [Shown K this] [Shown K receiver]
    [Shown K args] : L.Conducts K (bindFunction this receiver args) := by
  unfold bindFunction
  refine .bind fun callable => ?_
  split <;> infer_instance

instance (this : Value) : L.Conducts K (functionSource this) := by
  unfold functionSource
  refine .bind fun callable => ?_
  split <;> infer_instance

instance (f : FunctionMethod) (this : Value) (args : List Value) [Shown K this] [Shown K args] :
    L.Conducts K (engine.callFunctionMethod f this args) := by
  unfold callFunctionMethod
  cases f <;> infer_instance

instance (v : Value) (key default : String) [Shown K v] :
    L.Conducts K (engine.textOfProperty v key default) := by
  unfold textOfProperty
  infer_instance

instance (this : Value) [Shown K this] : L.Conducts K (engine.errorSource this) := by
  unfold errorSource
  infer_instance

/-! ## Numbers, booleans and integers -/

instance {α : Type} [HasFacts α] (typeName : String) (signature : String × Nat) :
    L.Conducts K (wrongReceiver typeName signature : Action α) := by
  unfold wrongReceiver
  infer_instance

instance (v : Value) [Shown K v] : L.Conducts K (engine.radixArgument v) := by
  unfold radixArgument
  infer_instance

instance (v : Value) [Shown K v] : L.Conducts K (engine.placesArgument v) := by
  unfold placesArgument
  infer_instance

instance (v : Value) (p : Float → Bool) : Shown K (testNumber v p) := by
  unfold testNumber
  split <;> infer_instance

instance (f : NumberFunction) (this : Value) (args : List Value) [Shown K args] :
    L.Conducts K (engine.callNumber f this args) := by
  unfold callNumber
  split
  case h_1 =>
    cases args with
    | nil => infer_instance
    | cons v rest =>
      have : Shown K v := .covered (v :: rest)
      refine .bind fun x => ?_
      split <;> infer_instance
  case h_5 =>
    split
    · split <;> infer_instance
    · infer_instance
  all_goals infer_instance

instance (f : WrapperFunction) (this : Value) (args : List Value) :
    L.Conducts K (callBoolean f this args) := by
  unfold callBoolean
  split <;> infer_instance

instance (v : Value) : L.Conducts K (toInteger v) := by
  unfold toInteger
  split <;> infer_instance

instance (f : WrapperFunction) (this : Value) (args : List Value) [Shown K args] :
    L.Conducts K (engine.callInteger f this args) := by
  unfold callInteger
  split <;> infer_instance

instance (f : MathFunction) (args : List Value) [Shown K args] :
    L.Conducts K (engine.callMath f args) := by
  unfold callMath
  extract_lets onFirst onAll
  have hfirst (g : Float → Float) : L.Conducts K (onFirst g) := by
    unfold onFirst
    infer_instance
  have hall (g : Float → Float → Float) (start : Float) : L.Conducts K (onAll g start) := by
    unfold onAll
    infer_instance
  cases f <;> infer_instance

instance (f : GlobalFunction) (args : List Value) [Shown K args] :
    L.Conducts K (engine.callGlobal f args) := by
  unfold callGlobal
  cases f <;> infer_instance

/-! ## Objects -/

instance (v : Value) : L.Conducts K (listedKeys v) := by
  unfold listedKeys
  split <;> infer_instance

instance (v : Value) (f : String → Value → Action Value) [Shown K v]
    [∀ key v, L.Conducts ((K.and key).and v) (f key v)] (keys : List String) :
    L.Conducts K (engine.mapKeys v f keys) := by
  unfold mapKeys
  infer_instance

instance (target source : Value) [Shown K target] [Shown K source] :
    L.Conducts K (engine.assignFrom target source) := by
  unfold assignFrom
  infer_instance

instance (v : Value) [Shown K v] : L.Conducts K (prototypeOfValue v) := by
  unfold prototypeOfValue
  split <;> infer_instance

instance (prototype : Option ObjectId) [h : Shown K prototype] :
    Shown K (valueOfPrototype prototype) := by
  cases prototype with
  | none => exact .of_empty rfl
  | some id => exact ⟨h.facts_subset⟩

instance (descriptor : ObjectId) (name : String) [Shown K descriptor] :
    L.Conducts K (engine.attribute? descriptor name) := by
  unfold attribute?
  infer_instance

instance (f : Option Value) (fault : String → Fault) : L.Conducts K (checkAccessor f fault) := by
  unfold checkAccessor
  split <;> infer_instance

instance (descriptor : ObjectId) [Shown K descriptor] :
    L.Conducts K (engine.readAttributes descriptor) := by
  unfold readAttributes
  infer_instance

instance (id : ObjectId) (key : String) (descriptor : Value) [Shown K descriptor] :
    L.Conducts K (engine.defineFrom id key descriptor) := by
  unfold defineFrom
  cases descriptor with
  | object d =>
    dsimp only
    refine .bind fun _ => .bind fun _ => .bind fun _ => .bind fun _ => ?_
    infer_instance
  | _ =>
    dsimp only
    infer_instance

instance (v : Value) : L.Conducts K (ownNames v) := by
  unfold ownNames
  split <;> infer_instance

instance (this : Value) (key : String) : L.Conducts K (hasOwnProperty this key) := by
  unfold hasOwnProperty
  split <;> infer_instance

/-- The chain of the new prototype is looked through before it is set. -/
instance setPrototype (target : Value) (prototype : Option ObjectId) [Shown K target]
    [hp : Shown K prototype] : L.Conducts K (Engine.setPrototype target prototype) := by
  unfold Engine.setPrototype
  cases target with
  | object id =>
    refine ⟨fun m hm => ?_⟩
    simp only [readHeap_bind, throwFault_bind]
    split
    · exact Conducts.ends inferInstance hm
    · next hacyclic =>
      have hstep : L.Step K.hidden L.suites m
          { m with heap := m.heap.modify id ({ · with prototype }) } := by
        refine .setPrototype hm.sound (hm.facts_subset prototype) fun p hprototype hreach => ?_
        subst hprototype
        have hlt : p.index < m.heap.size := (hm.facts_subset (some p) (.inl rfl) : _ ∧ _).1
        have hmem := (Heap.mem_chain_iff hm.sound.grounded hm.sound.closed hlt).mpr hreach
        exact hacyclic (by simpa using hmem)
      exact .ok hstep ((hm.facts_subset (Value.object id)).trans
        (Machine.granted_mono hm.sound hstep.grows))
  | _ =>
    dsimp only
    infer_instance

instance (prototype properties : Value) [Shown K prototype] [Shown K properties] :
    L.Conducts K (engine.createObject prototype properties) := by
  unfold createObject
  infer_instance

instance (f : ObjectFunction) (this : Value) (args : List Value) [Shown K this] [Shown K args] :
    L.Conducts K (engine.callObject f this args) := by
  unfold callObject
  dsimp only
  cases f
  case getPrototypeOf =>
    dsimp only
    split <;> infer_instance
  case defineProperty =>
    dsimp only
    split <;> infer_instance
  all_goals infer_instance

/-! ## Arrays -/

instance (this : Value) (method : ArrayFunction) [Shown K this] :
    L.Conducts K (receivedArray this method) := by
  unfold receivedArray
  split <;> infer_instance

instance (id : ObjectId) : L.Conducts K (elementsOf id) := by
  unfold elementsOf
  infer_instance

instance (id : ObjectId) (i : Nat) : L.Conducts K (elementAt? id i) := by
  unfold elementAt?
  infer_instance

instance (id : ObjectId) : L.Conducts K (lengthOf id) := by
  unfold lengthOf
  infer_instance

section Elements

variable (id : ObjectId) (change : Array Value → Array Value)

instance [Shrinks change] [hchange : ∀ es, Shown (K.and es) (change es)] :
    L.Conducts K (modifyElements id change) := by
  unfold modifyElements
  have (o : Object) (es : Array Value) : Shown ((K.and o).and es) (change es) :=
    ⟨(hchange es).facts_subset.trans (Set.union_subset_union_left _ Set.subset_union_left)⟩
  infer_instance

/-- What is put into an array may lead it beyond the limit. -/
theorem insertElements {change : Array Value → Array Value} (hinserts : Inserts change)
    (hchange : ∀ es, Shown (K.and es) (change es)) : L.Conducts K (modifyElements id change) := by
  refine ⟨fun m hm => .ok (.modifyObject hm.sound (fun o => .withElements o change) (fun id' => ?_)
    (.of_inserts hinserts)) (subset_of_plain _ _)⟩
  have (o : Object) (es : Array Value) : Shown ((K.and o).and es) (change es) :=
    ⟨(hchange es).facts_subset.trans (Set.union_subset_union_left _ Set.subset_union_left)⟩
  have hchanged : Shown (K.and (m.heap.get id')) ((m.heap.get id').withElements change) :=
    inferInstance
  exact hchanged.facts_subset.trans (hm.and_subset (hm.sound.objects id'))

instance (args : List Value) [Shown K args] : L.Conducts K (modifyElements id (· ++ args.toArray)) :=
  insertElements id (.push args) inferInstance

instance (args : List Value) [Shown K args] : L.Conducts K (modifyElements id (args.toArray ++ ·)) :=
  insertElements id (.unshift args) inferInstance

instance (start count : Nat) (added : List Value) [Shown K added] :
    L.Conducts K (modifyElements id fun elements =>
      elements.extract 0 start ++ added.toArray ++ elements.extract (start + count) elements.size) :=
  insertElements id (.splice start count added) inferInstance

end Elements

instance (v : Value) : L.Conducts K (requireFunction v) := by
  unfold requireFunction
  infer_instance

section Fold

variable {σ : Type} [HasFacts σ] (id : ObjectId) (callback receiver : Value)
  (visit : Nat → Value → Value → σ → ForInStep σ)

instance foldCalls (count i : Nat) (s : σ) [Shown K id] [Shown K callback] [Shown K receiver]
    [hs : Shown K s] [hvisit : ∀ i element result s,
      Shown (((K.and element).and result).and s) (visit i element result s)] :
    L.Conducts K (engine.foldCalls id callback receiver visit count i s) := by
  -- Induction on the number of elements that are left to visit.
  induction count generalizing i s K with
  | zero =>
    unfold Engine.foldCalls
    infer_instance
  | succ count ih =>
    unfold Engine.foldCalls
    refine .bind fun element => ?_
    cases element with
    | none => infer_instance
    | some element =>
      refine .bind fun result => ?_
      have hnext : Shown ((K.and element).and result) (visit i element result s) :=
        .of_and s (hvisit i element result s)
      cases hstep : visit i element result s with
      | done s =>
        have : Shown ((K.and (some element)).and result) s := ⟨(hstep ▸ hnext).facts_subset⟩
        exact pure s
      | yield s =>
        have : Shown ((K.and (some element)).and result) s := ⟨(hstep ▸ hnext).facts_subset⟩
        have (i : Nat) (e r : Value) (s : σ) :
            Shown (((((K.and (some element)).and result).and e).and r).and s) (visit i e r s) :=
          (hvisit i e r s).mono <| known_and_subset (known_and_subset (known_and_subset
            (Set.subset_union_left.trans Set.subset_union_left) e) r) s
        exact ih (i + 1) s

instance (args : List Value) (start : σ) [Shown K id] [Shown K args] [Shown K start]
    [hvisit : ∀ i element result s,
      Shown (((K.and element).and result).and s) (visit i element result s)] :
    L.Conducts K (engine.foldElements id args start visit) := by
  unfold foldElements
  refine .bind fun callback => .bind fun count => ?_
  have (i : Nat) (e r : Value) (s : σ) :
      Shown (((((K.and callback).and count).and e).and r).and s) (visit i e r s) :=
    (hvisit i e r s).mono <| known_and_subset (known_and_subset (known_and_subset
      (Set.subset_union_left.trans Set.subset_union_left) e) r) s
  exact foldCalls ..

end Fold

instance (id : ObjectId) (args : List Value) (wanted : Bool) [Shown K id] [Shown K args] :
    L.Conducts K (engine.findCall id args wanted) := by
  unfold findCall
  infer_instance

instance (id : ObjectId) (args : List Value) [Shown K id] [Shown K args] :
    L.Conducts K (engine.mapCalls id args) := by
  unfold mapCalls
  infer_instance

instance (id : ObjectId) (args : List Value) [Shown K id] [Shown K args] :
    L.Conducts K (engine.filterCalls id args) := by
  unfold filterCalls
  infer_instance

instance (id : ObjectId) (callback : Value) (count i : Nat) (acc : Value) [Shown K id]
    [Shown K callback] [Shown K acc] : L.Conducts K (engine.reduceCalls id callback count i acc) := by
  induction count generalizing i acc K with
  | zero =>
    unfold reduceCalls
    infer_instance
  | succ count ih =>
    unfold reduceCalls
    refine .bind fun element => ?_
    split <;> infer_instance

instance (id : ObjectId) (args : List Value) [Shown K id] [Shown K args] :
    L.Conducts K (engine.reduceArray id args) := by
  unfold reduceArray
  refine .bind fun _ => .bind fun length => .bind fun first => ?_
  have hstart : Shown K args[1]? := inferInstance
  split
  · next start heq =>
    have : Shown K start := ⟨(heq ▸ hstart).facts_subset⟩
    infer_instance
  · infer_instance
  · infer_instance

instance (comparator v w : Value) [Shown K comparator] [Shown K v] [Shown K w] :
    L.Conducts K (engine.precedes comparator v w) := by
  unfold precedes
  infer_instance

instance (comparator : Value) (left right : List Value) [Shown K comparator]
    [hleft : Shown K left] [hright : Shown K right] :
    L.Conducts K (engine.mergeSorted comparator left right) := by
  fun_induction mergeSorted generalizing K with
  | case1 right => infer_instance
  | case2 left _ => infer_instance
  | case3 l left r right ihright ihleft =>
    have : Shown K l := .covered (l :: left)
    have : Shown K left := .covered (l :: left)
    have : Shown K r := .covered (r :: right)
    have : Shown K right := .covered (r :: right)
    infer_instance

instance (comparator : Value) (values : List Value) [Shown K comparator] [Shown K values] :
    L.Conducts K (engine.sortValues comparator values) := by
  fun_induction sortValues generalizing K <;> infer_instance

section Sorting

variable {comparator : Value} {m m' : Machine} {sorted : List Value}

/-- Two lists are merged into one of as many values. -/
theorem length_of_mergeSorted {left right : List Value}
    (h : engine.mergeSorted comparator left right m = .ok sorted m') :
    sorted.length = left.length + right.length := by
  revert h
  fun_induction engine.mergeSorted comparator left right generalizing sorted m m' with
  | case1 right =>
    intro h
    cases h
    exact (Nat.zero_add _).symm
  | case2 left _ =>
    intro h
    cases h
    rfl
  | case3 l left r right ihright ihleft =>
    intro h
    obtain ⟨first, m₁, -, h⟩ := exists_of_bind h
    split at h
    · obtain ⟨rest, m₂, hrest, h⟩ := exists_of_bind h
      cases h
      simp only [List.length_cons, ihright hrest]
      omega
    · obtain ⟨rest, m₂, hrest, h⟩ := exists_of_bind h
      cases h
      simp only [List.length_cons, ihleft hrest]
      omega

/-- There are as many values when they are sorted. -/
theorem length_of_sortValues {values : List Value}
    (h : engine.sortValues comparator values m = .ok sorted m') :
    sorted.length = values.length := by
  revert h
  fun_induction engine.sortValues comparator values generalizing sorted m m' with
  | case1 values hshort =>
    intro h
    cases h
    rfl
  | case2 values hlong _ _ ihleft ihright =>
    intro h
    obtain ⟨left, m₁, hleft, h⟩ := exists_of_bind h
    obtain ⟨right, m₂, hright, h⟩ := exists_of_bind h
    rw [length_of_mergeSorted h, ihleft hleft, ihright hright, List.length_take, List.length_drop]
    omega

/-- An array gets as many elements back as were there before the comparator ran. -/
instance (id : ObjectId) (comparator : Value) [Shown K comparator] :
    L.Conducts K (engine.sortArray id comparator) := by
  unfold sortArray
  simp only [List.partition_eq_filter_filter]
  have (K : Knowledge) [Shown K comparator] : L.Conducts K (do
      let elements ← elementsOf id
      let sorted ← engine.sortValues comparator (elements.toList.filter (!·.isUndefined))
      modifyElements id fun _ =>
        (sorted ++ elements.toList.filter (not ∘ (!·.isUndefined))).toArray) := by
    refine ⟨fun m hm => ?_⟩
    have hread (h : Heap) : Shown (K.and h) ((h.get id).elements?.getD #[]) := inferInstance
    have hfacts := (hread m.heap).facts_subset.trans (hm.and_subset hm.sound.heap)
    unfold elementsOf
    rw [readHeap_bind]
    have hlong (hsize : maxArrayLength < ((m.heap.get id).elements?.getD #[]).size) :
        m.heap.Overlong id := by
      cases helements : (m.heap.get id).elements? with
      | none =>
        rw [helements] at hsize
        cases hsize
      | some elements =>
        rw [helements] at hsize
        exact ⟨elements, helements, hsize⟩
    generalize (m.heap.get id).elements?.getD #[] = elements at hfacts hlong
    have hm' : m.Meets L (K.and elements) := ⟨hm.sound, hm.and_subset hfacts⟩
    have hsort : L.Conducts (K.and elements)
        (engine.sortValues comparator (elements.toList.filter (!·.isUndefined))) := inferInstance
    have hend := hsort.ends hm'
    rw [Discipline.bind_apply]
    cases hsorted : engine.sortValues comparator (elements.toList.filter (!·.isUndefined)) m with
    | error e m' =>
      rw [hsorted] at hend
      obtain ⟨hstep, he⟩ | ⟨hstep, he⟩ := hend
      exact .error hstep he
    | ok sorted m' =>
      rw [hsorted] at hend
      obtain ⟨hstep, hx⟩ | ⟨hstep, he⟩ := hend
      have hall : Shown ((K.and elements).and sorted)
          (sorted ++ elements.toList.filter (not ∘ (!·.isUndefined))).toArray := inferInstance
      have hm'' : m'.Meets L ((K.and elements).and sorted) := hm'.plus hstep hx
      refine .ok (.replaceElements hstep (hm''.facts_subset _) fun hsize => ?_)
        (subset_of_plain _ _)
      refine hlong (hsize.trans_eq ?_)
      have hcount := elements.toList.length_eq_length_filter_add (!·.isUndefined)
      rw [List.size_toArray, List.length_append, length_of_sortValues hsorted]
      exact hcount.symm
  infer_instance

end Sorting

instance (v : Value) [Shown K v] : L.Conducts K (engine.joinedUnits v) := by
  unfold joinedUnits
  infer_instance

instance (id : ObjectId) (separator : String) : L.Conducts K (engine.joinArray id separator) := by
  unfold joinArray
  infer_instance

instance (args : List Value) (rest : Nat) [hargs : Shown K args] :
    L.Conducts K (engine.spliceCount args rest) := by
  unfold spliceCount
  match args, hargs with
  | [], _ | [_], _ => infer_instance
  | first :: count :: others, hargs =>
    have : Shown K (count :: others) := .covered (first :: count :: others)
    have : Shown K count := .covered (count :: others)
    infer_instance

instance (id : ObjectId) (args : List Value) [Shown K args] :
    L.Conducts K (engine.spliceArray id args) := by
  unfold spliceArray
  refine .bind fun length => .bind fun count => .bind fun found => ?_
  split <;> infer_instance

instance (v : Value) [Shown K v] : L.Conducts K (spreadArray v) := by
  unfold spreadArray
  split
  · refine .bind fun elements => ?_
    split <;> infer_instance
  · infer_instance

instance (args : List Value) [Shown K args] : L.Conducts K (constructArray args) := by
  unfold constructArray
  split
  · split <;> infer_instance
  · infer_instance

instance (source : Value) [Shown K source] : L.Conducts K (engine.sourceElements source) := by
  unfold sourceElements
  split <;> infer_instance

instance (f receiver : Value) (i : Nat) (elements : List Value) (results : Array Value)
    [Shown K f] [Shown K receiver] [helements : Shown K elements] [Shown K results] :
    L.Conducts K (engine.mapIndexed f receiver i elements results) := by
  induction elements generalizing i results K with
  | nil =>
    unfold mapIndexed
    infer_instance
  | cons element elements ih =>
    have : Shown K element := .covered (element :: elements)
    have : Shown K elements := .covered (element :: elements)
    unfold mapIndexed
    infer_instance

instance (args : List Value) [Shown K args] : L.Conducts K (engine.arrayFrom args) := by
  unfold arrayFrom
  infer_instance

instance (f : ArrayFunction) (this : Value) (args : List Value) [Shown K this] [Shown K args] :
    L.Conducts K (engine.callArray f this args) := by
  unfold callArray
  dsimp only
  cases f
  case isArray =>
    dsimp only
    split <;> infer_instance
  case indexOf =>
    refine .bind fun id => .bind fun elements => ?_
    split <;> infer_instance
  case findIndex =>
    refine .bind fun id => .bind fun found => ?_
    split <;> infer_instance
  all_goals infer_instance

/-! ## Strings -/

instance (this : Value) (method : StringMethod) [Shown K this] :
    L.Conducts K (engine.receivedUnits this method) := by
  unfold receivedUnits
  split <;> infer_instance

instance (arg : Option Value) (default : Float) [harg : Shown K arg] :
    L.Conducts K (engine.integerArgument arg default) := by
  unfold integerArgument
  match arg, harg with
  | none, _ => infer_instance
  | some v, harg =>
    have : Shown K v := .covered (some v)
    cases v <;> infer_instance

instance (arg : Option Value) (default size : Nat) [Shown K arg] :
    L.Conducts K (engine.clampedArgument arg default size) := by
  unfold clampedArgument
  infer_instance

instance (s : UnitString) (args : List Value) [Shown K args] :
    L.Conducts K (engine.splitString s args) := by
  unfold splitString
  extract_lets limited
  -- The pieces are cut whatever the limit is, and it comes from one of two branches.
  have hlimited (limit : Nat) : L.Conducts K (limited limit) := by
    unfold limited
    dsimp only
    split <;> infer_instance
  clear_value limited
  split <;> infer_instance

instance (s : UnitString) (args : List Value) (atStart : Bool) [Shown K args] :
    L.Conducts K (engine.padString s args atStart) := by
  unfold padString
  refine .bind fun target => ?_
  dsimp only
  split <;> infer_instance

instance (s : UnitString) (count : Float) : L.Conducts K (repeatString s count) := by
  unfold repeatString
  infer_instance

instance (s search : UnitString) (arg : Value) [Shown K arg] :
    L.Conducts K (engine.lastIndex s search arg) := by
  unfold lastIndex
  dsimp only
  split <;> infer_instance

instance (i : Option Nat) : Shown K (indexValue i) := by
  cases i <;> exact .of_empty rfl

instance (method : StringMethod) (s : UnitString) (args : List Value) [Shown K args] :
    L.Conducts K (engine.callStringMethod method s args) := by
  unfold callStringMethod
  cases method
  case charCodeAt =>
    refine .bind fun x => ?_
    split
    · infer_instance
    · split <;> infer_instance
  all_goals infer_instance

instance (v : Value) [Shown K v] : L.Conducts K (engine.toUnit v) := by
  unfold toUnit
  infer_instance

instance (f : StringFunction) (this : Value) (args : List Value) [Shown K this] [Shown K args] :
    L.Conducts K (engine.callString f this args) := by
  unfold callString
  split
  case h_1 =>
    cases args with
    | nil => infer_instance
    | cons v rest =>
      have : Shown K v := .covered (v :: rest)
      infer_instance
  case h_4 => split <;> infer_instance
  case h_5 => split <;> infer_instance
  all_goals infer_instance

end Conducts

end EcmaEval.Law
