import EcmaEval.Engine.Convert

/-!
# `Array`

The functions of `Array` and the methods of arrays.  A method that calls back sees the array as it
is at that moment, but visits no index that was not there at the start.

## Main definitions

* `Engine.sortArray`: sorts an array, equal elements in the order in which they were
* `Engine.joinArray`: the texts of the elements with a separator between them
* `Engine.callArray`: the functions of arrays
-/

namespace EcmaEval.Engine

open EcmaEval.Action

variable (engine : Engine)

/-- The array that a method was called on. -/
def receivedArray (this : Value) (method : ArrayFunction) : Action ObjectId := do
  match this with
  | .object id =>
    if ← readHeap fun h => (h.get id).isArray then return id
    throwFault (.arrayReceiver method.signature.1)
  | _ => throwFault (.arrayReceiver method.signature.1)

/-- The elements of an array. -/
def elementsOf (id : ObjectId) : Action (Array Value) :=
  readHeap fun h => (h.get id).elements?.getD #[]

/-- The element of an array at an index. -/
def elementAt? (id : ObjectId) (i : Nat) : Action (Option Value) :=
  readHeap fun h => (h.get id).elements?.bind (·[i]?)

/-- The number of elements of an array. -/
def lengthOf (id : ObjectId) : Action Nat :=
  readHeap fun h => ((h.get id).elements?.map Array.size).getD 0

/-- Changes the elements of an array. -/
def modifyElements (id : ObjectId) (change : Array Value → Array Value) : Action Unit :=
  modifyObject id (·.withElements change)

/-- Fails unless a value is a function. -/
def requireFunction (v : Value) : Action Unit := do
  unless ← readHeap (·.isCallable v) do
    throwFault (.notFunction (← readHeap (·.inspect v)))

/-- The index that an optional argument names in a sequence of `size` elements. -/
def indexArgument (arg : Option Value) (size default : Nat) : Nat :=
  match arg with
  | none | some .undefined => default
  | some v => Number.relativeIndex v.toNumber size

/-- Calls a function on the elements from index `i` on, for `count` indices or until the array ends,
and folds the elements and the results until `visit` is done. -/
def foldCalls {σ : Type} (id : ObjectId) (callback receiver : Value)
    (visit : Nat → Value → Value → σ → ForInStep σ) : (count i : Nat) → σ → Action σ
  | 0, _, s => return s
  | count + 1, i, s => do
    match ← elementAt? id i with
    | none => return s
    | some element =>
      let result ← engine.callValue callback receiver [element, .ofNat i, .object id]
      match visit i element result s with
      | .done s => return s
      | .yield s => foldCalls id callback receiver visit count (i + 1) s

/-- Folds the calls of the first argument on all elements. -/
def foldElements {σ : Type} (id : ObjectId) (args : List Value) (start : σ)
    (visit : Nat → Value → Value → σ → ForInStep σ) : Action σ := do
  let callback := Value.argument args 0
  requireFunction callback
  engine.foldCalls id callback (Value.argument args 1) visit (← lengthOf id) 0 start

/-- The first element for which the callback gives a value of the wanted truth, with its index. -/
def findCall (id : ObjectId) (args : List Value) (wanted : Bool) :
    Action (Option (Nat × Value)) :=
  engine.foldElements id args none fun i element result _ =>
    if result.isTrue == wanted then .done (some (i, element)) else .yield none

/-- The results of the callback on all elements. -/
def mapCalls (id : ObjectId) (args : List Value) : Action (Array Value) :=
  engine.foldElements id args #[] fun _ _ result results => .yield (results.push result)

/-- The elements for which the callback gives a true value. -/
def filterCalls (id : ObjectId) (args : List Value) : Action (Array Value) :=
  engine.foldElements id args #[] fun _ element result kept =>
    .yield (if result.isTrue then kept.push element else kept)

/-- Folds the elements from index `i` on, for `count` indices or until the array ends. -/
def reduceCalls (id : ObjectId) (callback : Value) : (count i : Nat) → Value → Action Value
  | 0, _, acc => return acc
  | count + 1, i, acc => do
    match ← elementAt? id i with
    | none => return acc
    | some element =>
      let acc ← engine.callValue callback .undefined [acc, element, .ofNat i, .object id]
      reduceCalls id callback count (i + 1) acc

/-- Folds the elements of an array with a function, from the second argument or else from the first
element on. -/
def reduceArray (id : ObjectId) (args : List Value) : Action Value := do
  let callback := Value.argument args 0
  requireFunction callback
  let length ← lengthOf id
  match args[1]?, ← elementAt? id 0 with
  | some start, _ => engine.reduceCalls id callback length 0 start
  | none, some first => engine.reduceCalls id callback (length - 1) 1 first
  | none, none => throwFault .emptyReduce

/-- The first of two values precedes the second: by a comparator, or as strings. -/
def precedes (comparator v w : Value) : Action Bool := do
  if comparator.isUndefined then
    let s ← engine.toUnits v
    let t ← engine.toUnits w
    return s.compare t == .lt
  let result ← engine.callValue comparator .undefined [v, w]
  return (← engine.toNumber result) < 0.0

/-- Two sorted lists merged.  Of two values that are equal the one from the left comes first. -/
def mergeSorted (comparator : Value) : List Value → List Value → Action (List Value)
  | [], right => return right
  | left, [] => return left
  | l :: left, r :: right => do
    if ← engine.precedes comparator r l then
      return r :: (← mergeSorted comparator (l :: left) right)
    else
      return l :: (← mergeSorted comparator left (r :: right))
termination_by left right => left.length + right.length

theorem length_take_half_lt {vs : List Value} (h : 1 < vs.length) :
    (vs.take (vs.length / 2)).length < vs.length := by
  rw [List.length_take]; omega

theorem length_drop_half_lt {vs : List Value} (h : 1 < vs.length) :
    (vs.drop (vs.length / 2)).length < vs.length := by
  rw [List.length_drop]; omega

/-- The values in order.  Values that are equal keep their order. -/
def sortValues (comparator : Value) (values : List Value) : Action (List Value) := do
  if h : values.length ≤ 1 then return values
  else
    have := length_take_half_lt (Nat.lt_of_not_le h)
    have := length_drop_half_lt (Nat.lt_of_not_le h)
    let left ← sortValues comparator (values.take (values.length / 2))
    let right ← sortValues comparator (values.drop (values.length / 2))
    engine.mergeSorted comparator left right
termination_by values.length
decreasing_by all_goals assumption

/-- Sorts an array; the undefined elements come last. -/
def sortArray (id : ObjectId) (comparator : Value) : Action Unit := do
  unless comparator.isUndefined || (← readHeap (·.isCallable comparator)) do
    throwFault .comparator
  let elements ← elementsOf id
  let (defined, missing) := elements.toList.partition (!·.isUndefined)
  -- A comparator may change the array, but what it writes is replaced.
  let sorted ← engine.sortValues comparator defined
  modifyElements id fun _ => (sorted ++ missing).toArray

/-- The string of an element between separators. -/
def joinedUnits (v : Value) : Action String := do
  if v.isNullish then return ""
  engine.toText v

/-- The strings of the elements of an array with a separator between them.  An array inside itself
gives the empty string. -/
def joinArray (id : ObjectId) (separator : String) : Action Value := do
  if ← isJoining id then return .ofText ""
  let elements ← elementsOf id
  let parts ← whileJoining id (elements.toList.mapM engine.joinedUnits)
  return .ofText (separator.intercalate parts)

/-- The number of elements that `splice` takes out. -/
def spliceCount (args : List Value) (rest : Nat) : Action Nat := do
  match args with
  | [] => return 0
  | [_] => return rest
  | _ :: count :: _ =>
    return Number.clampIndex (Number.toIntegerOrInfinity (← engine.toNumber count)) rest

/-- Replaces a part of an array, and gives the part that was there. -/
def spliceArray (id : ObjectId) (args : List Value) : Action Value := do
  let length ← lengthOf id
  let start := indexArgument args[0]? length 0
  let count ← engine.spliceCount args (length - start)
  match ← readHeap fun h => (h.get id).elements? with
  | none => newArray #[]
  | some elements =>
    -- The conversion of the count may have called a method that takes elements out of the array.
    if elements.size < start + count then breakDown (.outOfBounds (start + count) elements.size)
    modifyElements id fun elements =>
      elements.extract 0 start ++ (args.drop 2).toArray ++
        elements.extract (start + count) elements.size
    newArray (elements.extract start (start + count))

/-- The elements of an array, or a value alone. -/
def spreadArray (v : Value) : Action (Array Value) := do
  match v with
  | .object id =>
    match ← readHeap fun h => (h.get id).elements? with
    | some elements => return elements
    | none => return #[v]
  | v => return #[v]

/-- The array that a call of the constructor gives: of a length, or of the arguments. -/
def constructArray (args : List Value) : Action Value := do
  match args with
  | [.number x] =>
    match Object.arrayLength? (.number x) with
    | some count => newArray (Array.replicate count .undefined)
    | none => throwFault .arrayLength
  | args => newArrayOf args

/-- The elements that a value has to offer. -/
def sourceElements (source : Value) : Action (Array Value) := do
  match source with
  | .object id => engine.listElements id
  | .undefined | .null => throwFault (.notIterable source.primitiveText)
  | .string _ => iterate source
  | _ => return #[]

/-- The results of a function on elements and their indices. -/
def mapIndexed (f receiver : Value) : (i : Nat) → List Value → Array Value → Action (Array Value)
  | _, [], results => return results
  | i, element :: rest, results => do
    let result ← engine.callValue f receiver [element, .ofNat i]
    mapIndexed f receiver (i + 1) rest (results.push result)

/-- A new array of the elements of a source, each changed by a function if there is one. -/
def arrayFrom (args : List Value) : Action Value := do
  let elements ← engine.sourceElements (Value.argument args 0)
  let f := Value.argument args 1
  if f.isUndefined then newArray elements
  else
    requireFunction f
    newArray (← engine.mapIndexed f (Value.argument args 2) 0 elements.toList #[])

/-- The first index from `start` on at which an element satisfies a condition. -/
def searchFrom (elements : Array Value) (start : Nat) (p : Value → Bool) : Option Nat :=
  ((elements.extract start elements.size).findIdx? p).map (· + start)

/-- Calls a function of `Array`. -/
def callArray (f : ArrayFunction) (this : Value) (args : List Value) : Action Value := do
  let first := Value.argument args 0
  match f with
  | .construct => constructArray args
  | .isArray =>
    match first with
    | .object id => return .boolean (← readHeap fun h => (h.get id).isArray)
    | _ => return .boolean false
  | .ofElements => newArrayOf args
  | .fromSource => engine.arrayFrom args
  | method =>
    let id ← receivedArray this method
    match method with
    | .push =>
      modifyElements id (· ++ args.toArray)
      return .ofNat (← lengthOf id)
    | .pop =>
      let last := (← elementsOf id).back?
      modifyElements id Array.pop
      return last.getD .undefined
    | .shift =>
      let head := (← elementsOf id)[0]?
      modifyElements id fun elements => elements.extract 1 elements.size
      return head.getD .undefined
    | .unshift =>
      modifyElements id (args.toArray ++ ·)
      return .ofNat (← lengthOf id)
    | .slice =>
      let elements ← elementsOf id
      newArray (elements.extract (indexArgument args[0]? elements.size 0)
        (indexArgument args[1]? elements.size elements.size))
    | .splice => engine.spliceArray id args
    | .concat =>
      let mut result ← elementsOf id
      for arg in args do result := result ++ (← spreadArray arg)
      newArray result
    | .join =>
      let separator ← if first.isUndefined then pure "," else engine.toText first
      engine.joinArray id separator
    | .toString => engine.joinArray id ","
    | .indexOf =>
      let elements ← elementsOf id
      match searchFrom elements (indexArgument args[1]? elements.size 0) (·.strictEqual first) with
      | some i => return .ofNat i
      | none => return .number (-1.0)
    | .includes =>
      let elements ← elementsOf id
      let found := searchFrom elements (indexArgument args[1]? elements.size 0)
        (·.sameValueZero first)
      return .boolean found.isSome
    | .reverse =>
      modifyElements id Array.reverse
      return this
    | .sort =>
      engine.sortArray id first
      return this
    | .forEach =>
      engine.foldElements id args () fun _ _ _ _ => .yield ()
      return .undefined
    | .map => newArray (← engine.mapCalls id args)
    | .filter => newArray (← engine.filterCalls id args)
    | .find => return ((← engine.findCall id args true).map Prod.snd).getD .undefined
    | .findIndex =>
      match ← engine.findCall id args true with
      | some (i, _) => return .ofNat i
      | none => return .number (-1.0)
    | .some => return .boolean (← engine.findCall id args true).isSome
    | .every => return .boolean (← engine.findCall id args false).isNone
    | .reduce => engine.reduceArray id args
    | _ => return .undefined

end EcmaEval.Engine
