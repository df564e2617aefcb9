import EcmaEval.Proofs.Conduct.Part
import EcmaEval.Proofs.Construction.Constructor

/-!
# Chains of prototypes and of bound functions

No session comes to a machine with an endless chain of prototypes or of bound functions.  So the
walks along such chains, which look at no more objects than there are, see all of them.

An object literal sets a prototype without a check, and a class sets that of a function that it has
just made.  Neither closes a cycle: the object that is being made is named by nothing that a
prototype can be taken from.

A function that `bind` makes passes its calls on to another one, with a receiver and arguments of its
own in front.  Where bound functions are bound again, a call runs along the whole chain of them.  The
receiver is that of the first link, since each link discards the one that it is given, and the
arguments stand in the order of the links.  A construction goes the same way, and the target of `new`
moves along: it is the bound function itself at the start, and at each link becomes the function that
is bound there.

A chain grows at its end, so what runs along it is proved by induction from its last link inwards.

## Main definitions

* `Heap.BoundBy`: functions of which each binds the one before
* `Machine.binding`: the machine with a new bound function

## Main results

* `Machine.Passed.chains_end`: in a session all chains end, and the walks along them are complete
* `Heap.BoundBy.call`, `Heap.BoundBy.construct`: calls and constructions along a chain
* `Machine.Passed.bound_chains`: bound functions in a session
-/

namespace EcmaEval

open EcmaEval.Action Engine

/-! ## Walks that are cut short by nothing -/

namespace Heap

variable {h : Heap} {fuel : Nat}

/-- What is not in the heap has a chain of its own. -/
theorem chainWithin_of_size_le (h : Heap) (hfuel : 0 < fuel) {id : ObjectId}
    (hid : h.size ≤ id.index) : h.chainWithin fuel id = [id] := by
  obtain ⟨fuel, rfl⟩ := Nat.exists_eq_add_of_lt hfuel
  rw [Nat.zero_add, chainWithin, h.get_of_size_le hid]
  rfl

/-- A walk that looks at more objects than there are goes no further than the one that is made. -/
theorem chainWithin_eq_chain (hg : h.Grounded) (hc : h.Closed) (hpos : 0 < h.size)
    (hfuel : h.size ≤ fuel) (id : ObjectId) : h.chainWithin fuel id = h.chain id := by
  rcases Nat.lt_or_ge id.index h.size with hid | hid
  · exact chainWithin_eq hg hc hfuel hid
  · rw [chain, h.chainWithin_of_size_le hpos hid,
      h.chainWithin_of_size_le (hpos.trans_le hfuel) hid]

/-- A chain has all that is reached, and nothing else. -/
theorem mem_chain_iff_reaches (hg : h.Grounded) (hc : h.Closed) (hpos : 0 < h.size)
    (id q : ObjectId) : q ∈ h.chain id ↔ h.Reaches id q := by
  rcases Nat.lt_or_ge id.index h.size with hid | hid
  · exact mem_chain_iff hg hc hid
  · refine ⟨mem_chainWithin, fun hreach => ?_⟩
    rw [chain, h.chainWithin_of_size_le hpos hid]
    rcases hreach.head_cases with rfl | ⟨p, hp, -⟩
    · exact List.mem_singleton_self q
    · rw [IsPrototype, h.get_of_size_le hid] at hp
      cases hp

theorem findWithin_eq_find? (hg : h.Grounded) (hc : h.Closed) (hpos : 0 < h.size)
    (hfuel : h.size ≤ fuel) (id : ObjectId) (key : String) :
    h.findWithin key fuel id = h.find? id key := by
  rw [find?, findWithin_eq_findSome?, findWithin_eq_findSome?,
    chainWithin_eq_chain hg hc hpos hfuel, chain]

/-- What is not in the heap is no bound function. -/
theorem unbound_of_size_le (h : Heap) {id : ObjectId} (hid : h.size ≤ id.index) :
    unbound h fuel id = id := by
  cases fuel with
  | zero => rfl
  | succ fuel =>
    rw [unbound, h.get_of_size_le hid]
    rfl

theorem unbound_eq_unbound_size (ha : h.Anchored) (hfuel : h.size ≤ fuel) (id : ObjectId) :
    unbound h fuel id = unbound h h.size id := by
  rcases Nat.lt_or_ge id.index h.size with hid | hid
  · exact unbound_eq ha (hid.trans_le hfuel) hid
  · rw [h.unbound_of_size_le hid, h.unbound_of_size_le hid]

theorem constructsWithin_of_size_le (h : Heap) {id : ObjectId} (hid : h.size ≤ id.index) :
    h.constructsWithin fuel id = false := by
  cases fuel with
  | zero => rfl
  | succ fuel =>
    rw [constructsWithin, h.get_of_size_le hid]
    rfl

theorem constructsWithin_eq_constructs (ha : h.Anchored) (hfuel : h.size ≤ fuel) (id : ObjectId) :
    h.constructsWithin fuel id = h.constructs id := by
  rcases Nat.lt_or_ge id.index h.size with hid | hid
  · exact constructsWithin_eq ha (hid.trans_le hfuel) hid
  · rw [constructs, h.constructsWithin_of_size_le hid, h.constructsWithin_of_size_le hid]

/-- The function behind bound ones is not a bound one. -/
theorem not_binds_unbound_size (ha : h.Anchored) (id target : ObjectId) :
    ¬ h.Binds (unbound h h.size id) target := by
  rcases Nat.lt_or_ge id.index h.size with hid | hid
  · exact not_binds_unbound ha hid target
  · rw [h.unbound_of_size_le hid]
    rintro ⟨receiver, args, hcall⟩
    rw [h.get_of_size_le hid] at hcall
    cases hcall

end Heap

/-! ## Prototypes that are set -/

/-- The error object of a prototype that would close a cycle. -/
def Machine.cycleError (m : Machine) : Object :=
  (Object.new m.realm.typeErrorPrototype .error).insertHidden "message"
    (.ofText "Cyclic __proto__ value")

/-- A prototype that would close a cycle reaches the object. -/
theorem Heap.Grounded.reaches_of_cycle {h : Heap} (hg : h.Grounded) {id p : ObjectId}
    (hcycle : ¬ (h.modify id ({ · with prototype := some p })).Grounded) : h.Reaches p id := by
  by_contra hreach
  refine hcycle (hg.change id (fun a ha => by rw [h.get_modify_of_ne ha]) fun q hq => ?_)
  rw [Heap.IsPrototype] at hq
  rcases h.get_modify id ({ · with prototype := some p }) id with heq | heq <;> rw [heq] at hq
  · exact hg.not_reaches hq
  · cases hq
    exact hreach

/-- An object that is there cannot be its own prototype. -/
theorem Heap.not_grounded_of_self {h : Heap} {id : ObjectId} (hid : id.index < h.size) :
    ¬ (h.modify id ({ · with prototype := some id })).Grounded := by
  intro hg
  have hself : (h.modify id ({ · with prototype := some id })).IsPrototype id id := by
    rw [Heap.IsPrototype, h.get_modify_self hid]
  exact hg.not_reaches hself .refl

/-- Where the chain of the prototype has the object, the prototype is refused. -/
theorem setPrototype_of_mem {m : Machine} {id p : ObjectId} (h : id ∈ m.heap.chain p) :
    setPrototype (.object id) (some p) m = .error (.thrown (.object ⟨m.heap.size⟩))
      { m with heap := (m.heap.allocate m.cycleError).2 } := by
  have hcontains : (m.heap.chain p).contains id = true := List.contains_iff_mem.mpr h
  unfold setPrototype
  dsimp only
  rw [readHeap_bind]
  simp only [Option.any_some, hcontains, if_true, throwFault_bind]
  rfl

namespace Machine

variable {suites : Prop} {accepted : Program → Prop} {m : Machine}

/-- **Chains end.**  In whatever machine a session comes to, every chain of prototypes and of bound
functions ends, and no chain names an object twice.  So a walk along a chain that may look at any
number of objects finds no more than the one that is made: for a property, for the keys of a loop
and for an instance along prototypes, for a constructor and for what is called in the end along
bound functions.  And a prototype that would close a cycle is refused with an error, which is a new
object; everything else is as it was. -/
theorem Passed.chains_end (h : m.Passed suites accepted) :
    m.heap.Grounded ∧
    (∀ id, (m.heap.chain id).Nodup ∧ ∀ p, p ∈ m.heap.chain id ↔ m.heap.Reaches id p) ∧
    (WellFounded fun target id => m.heap.Binds id target) ∧
    (∀ fuel, m.heap.size ≤ fuel → ∀ id,
      m.heap.chainWithin fuel id = m.heap.chain id ∧
      (∀ key, m.heap.findWithin key fuel id = m.heap.find? id key) ∧
      m.heap.constructsWithin fuel id = m.heap.constructs id ∧
      unbound m.heap fuel id = unbound m.heap m.heap.size id) ∧
    (∀ id target, ¬ m.heap.Binds (unbound m.heap m.heap.size id) target) ∧
    (∀ (engine : Engine) (this : Value) (id p : ObjectId) (rest : List Value),
      ¬ (m.heap.modify id ({ · with prototype := some p })).Grounded →
      engine.callNative (.builtin (.object .setPrototypeOf)) this (.object id :: .object p :: rest) m =
        .error (.thrown (.object ⟨m.heap.size⟩))
          { m with heap := (m.heap.allocate m.cycleError).2 }) := by
  obtain ⟨hidden, hm⟩ := h.sound
  have hg := hm.grounded
  have hc := hm.closed
  have ha := hm.anchored
  have hpos := hm.size_pos
  refine ⟨hg, fun id => ⟨hg.nodup_chainWithin _ id, Heap.mem_chain_iff_reaches hg hc hpos id⟩,
    ha.wellFounded, fun fuel hfuel id => ⟨Heap.chainWithin_eq_chain hg hc hpos hfuel id,
      Heap.findWithin_eq_find? hg hc hpos hfuel id, Heap.constructsWithin_eq_constructs ha hfuel id,
      Heap.unbound_eq_unbound_size ha hfuel id⟩,
    Heap.not_binds_unbound_size ha, fun engine this id p rest hcycle => ?_⟩
  exact setPrototype_of_mem
    ((Heap.mem_chain_iff_reaches hg hc hpos p id).mpr (hg.reaches_of_cycle hcycle))

/-- In the machine with the library all chains end, and its first object, the prototype of objects,
is not made its own prototype. -/
theorem Passed.chains_end_initial :
    initial.Passed False (fun _ => True) ∧ initial.heap.Grounded ∧
      standard.callNative (.builtin (.object .setPrototypeOf)) .undefined
          [.object ⟨0⟩, .object ⟨0⟩] initial =
        .error (.thrown (.object ⟨initial.heap.size⟩))
          { initial with heap := (initial.heap.allocate initial.cycleError).2 } := by
  have hinitial : initial.Hosted False (fun _ => True) := .initial
  have hends := Passed.chains_end (.hosted hinitial)
  refine ⟨.hosted hinitial, hends.1, hends.2.2.2.2.2 standard .undefined ⟨0⟩ ⟨0⟩ [] ?_⟩
  exact Heap.not_grounded_of_self hinitial.sound_lax.size_pos

end Machine

/-! ## Chains of bound functions -/

/-- The function `g` is `f`, or `f` was bound to a receiver and arguments, what that gave was bound
again, and so on up to `g`.  What is bound is listed in the order in which it was bound. -/
inductive Heap.BoundBy (h : Heap) (f : ObjectId) : List (Value × List Value) → ObjectId → Prop where
  | nil : BoundBy h f [] f
  | snoc {links : List (Value × List Value)} {g g' : ObjectId} {receiver : Value} {first : List Value}
    (hlinks : BoundBy h f links g) (hlink : (h.get g').callable? = some (.bound g receiver first)) :
    BoundBy h f (links ++ [(receiver, first)]) g'

/-- The arguments that are bound, the first ones first. -/
def boundArguments (links : List (Value × List Value)) : List Value := links.flatMap Prod.snd

@[simp] theorem boundArguments_nil : boundArguments [] = [] := rfl

@[simp] theorem boundArguments_snoc (links : List (Value × List Value)) (receiver : Value)
    (first : List Value) :
    boundArguments (links ++ [(receiver, first)]) = boundArguments links ++ first := by
  simp [boundArguments]

/-- The receiver that is bound first, or the given one if none is. -/
def boundReceiver (links : List (Value × List Value)) (this : Value) : Value :=
  (links.head?.map Prod.fst).getD this

/-- The receiver of an earlier link wins. -/
@[simp] theorem boundReceiver_snoc (links : List (Value × List Value)) (receiver this : Value)
    (first : List Value) :
    boundReceiver (links ++ [(receiver, first)]) this = boundReceiver links receiver := by
  cases links <;> rfl

namespace Heap.BoundBy

variable {h h' : Heap} {f g : ObjectId} {links : List (Value × List Value)}

/-- Where functions keep what they run, chains stay. -/
theorem mono (hkeeps : h.KeepsFunctions h') (hg : h.BoundBy f links g) : h'.BoundBy f links g := by
  induction hg with
  | nil => exact .nil
  | snoc _ hlink ih => exact ih.snoc (hkeeps _ _ hlink)

/-- All functions of a chain construct, or none. -/
theorem constructs (ha : h.Anchored) (hg : h.BoundBy f links g) : h.constructs g = h.constructs f := by
  induction hg with
  | nil => rfl
  | @snoc links g g' receiver first hlinks hlink ih =>
    have hlt : g'.index < h.size := Heap.lt_of_callable hlink
    have hbefore : g.index < g'.index := ha g' g ⟨receiver, first, hlink⟩
    obtain ⟨fuel, hfuel⟩ : ∃ fuel, h.size = fuel + 1 := ⟨h.size - 1, by omega⟩
    rw [← ih, Heap.constructs, Heap.constructs, hfuel, Heap.constructsWithin, hlink]
    exact constructsWithin_eq ha (by omega) (by omega)

variable {m : Machine} {k : Nat}

/-- A call runs along the chain to the function that was bound first. -/
theorem call (hg : m.heap.BoundBy f links g) (this : Value) (args : List Value) :
    (ofFuel (k + links.length)).call g this args m =
      (ofFuel k).call f (boundReceiver links this) (boundArguments links ++ args) m := by
  -- Induction on the chain: the last link passes on its receiver and puts its arguments in front.
  induction hg generalizing this args with
  | nil => rfl
  | @snoc links g g' receiver first hlinks hlink ih =>
    rw [List.length_append, boundReceiver_snoc, boundArguments_snoc, List.append_assoc, ← ih]
    change (ofFuel (k + links.length)).callFunction g' this args m = _
    unfold callFunction
    rw [readHeap_bind, hlink]

/-- A construction runs along the chain, and takes the target of `new` along. -/
theorem construct (hg : m.heap.BoundBy f links g) (args : List Value) :
    (ofFuel (k + links.length)).construct g args g m =
      (ofFuel k).construct f (boundArguments links ++ args) f m := by
  induction hg generalizing args with
  | nil => rfl
  | @snoc links g g' receiver first hlinks hlink ih =>
    rw [List.length_append, boundArguments_snoc, List.append_assoc, ← ih]
    change (ofFuel (k + links.length)).constructFunction g' args g' m = _
    unfold constructFunction
    rw [readHeap_bind, hlink]
    dsimp only
    rw [if_pos rfl]

end Heap.BoundBy

/-! ## The function that binds -/

/-- The machine with a new function that binds another one. -/
def Machine.binding (m : Machine) (target : ObjectId) (receiver : Value) (first : List Value) :
    Machine :=
  let name := "bound " ++ m.heap.functionName (.object target)
  let length := announcedArguments m.heap target - first.length
  let bound := (Object.new m.realm.functionPrototype (.function (.bound target receiver first))).define
    "length" (.fixed (.ofNat length)) |>.define "name" (.fixed (.ofText name))
  { m with heap := (m.heap.allocate bound).2 }

section Binding

variable {m : Machine} {f g : ObjectId} {links : List (Value × List Value)} (receiver : Value)
  (first : List Value)

theorem bindFunction_of_isCallable (hf : m.heap.isCallable (.object f) = true) :
    bindFunction (.object f) receiver first m =
      .ok (.object ⟨m.heap.size⟩) (m.binding f receiver first) := by
  unfold bindFunction
  rw [readHeap_bind, hf]
  rfl

/-- A call of `bind` takes the receiver and the first arguments from its arguments. -/
theorem call_bind {k : Nat} {b : ObjectId} (args : List Value)
    (hb : (m.heap.get b).callable? = some (.native (.builtin (.function .bind))))
    (hf : m.heap.isCallable (.object f) = true) :
    (ofFuel (k + 1)).call b (.object f) args m =
      .ok (.object ⟨m.heap.size⟩) (m.binding f (.argument args 0) (args.drop 1)) := by
  change (ofFuel k).callFunction b (.object f) args m = _
  have hbind := bindFunction_of_isCallable (m := { m with newTarget := none }) (.argument args 0)
    (args.drop 1) hf
  unfold callFunction
  rw [readHeap_bind, hb]
  dsimp only
  unfold underTarget callNative callBuiltin callFunctionMethod
  dsimp only
  rw [hbind]
  rfl

theorem keepsFunctions_binding : m.heap.KeepsFunctions (m.binding f receiver first).heap := by
  intro id body hbody
  unfold Machine.binding
  rwa [Heap.get_allocate_of_lt _ _ (Heap.lt_of_callable hbody)]

theorem callable?_binding : ((m.binding f receiver first).heap.get ⟨m.heap.size⟩).callable? =
    some (.bound f receiver first) := by
  unfold Machine.binding
  rw [Heap.get_allocate_self, Object.callable?_define, Object.callable?_define]
  rfl

/-- What is bound again makes a chain longer. -/
theorem Heap.BoundBy.binding (hg : m.heap.BoundBy f links g) :
    (m.binding g receiver first).heap.BoundBy f (links ++ [(receiver, first)]) ⟨m.heap.size⟩ :=
  (hg.mono (keepsFunctions_binding receiver first)).snoc (callable?_binding receiver first)

end Binding

/-! ## Instances -/

section Instances

variable {engine : Engine} {m : Machine} {f prototype : ObjectId} {writable enumerable : Bool}

/-- The instance that is made for a function has its prototype. -/
theorem allocateInstance_of_find?
    (h : m.heap.find? f "prototype" = some (.data (.object prototype) writable enumerable)) :
    engine.allocateInstance f m = .ok ⟨m.heap.size⟩ (m.withInstance prototype) := by
  refine allocateInstance_of_getOf ?_
  unfold getOf getProperty
  rw [readHeap_bind, h]
  rfl

theorem constructWith_of_find? (run : Value → Action Value)
    (h : m.heap.find? f "prototype" = some (.data (.object prototype) writable enumerable)) :
    engine.constructWith f run m =
      (do
        let result ← run (.object ⟨m.heap.size⟩)
        return if result.isObject then result else .object ⟨m.heap.size⟩)
        (m.withInstance prototype) := by
  unfold constructWith
  rw [Discipline.bind_apply, allocateInstance_of_find? h]

end Instances

/-! ## Sessions -/

namespace Machine

variable {suites : Prop} {accepted : Program → Prop} {m : Machine} {f g : ObjectId}
  {links : List (Value × List Value)}

/-- **Bound functions.**  A call of a function that was bound any number of times is a call of the
function behind the chain: with the receiver that was bound first, whatever the call is given, and
with the arguments of all links in their order before those of the call.  It constructs just if that
function does, and then a `new` expression with it is a construction by that function, with the same
arguments in front and with that function as the target of `new`; the receiver of a function of the
program is then a new object, whose prototype is that of the function and not one of a link.  A call
of `bind` makes a chain longer by a link that comes last, and whatever comes later in a session has
the chains that are there. -/
theorem Passed.bound_chains (h : m.Passed suites accepted) (hg : m.heap.BoundBy f links g) :
    (∀ k this args, (ofFuel (k + links.length)).call g this args m =
      (ofFuel k).call f (boundReceiver links this) (boundArguments links ++ args) m) ∧
    m.heap.isConstructor (.object g) = m.heap.isConstructor (.object f) ∧
    (∀ k args, (ofFuel (k + links.length)).construct g args g m =
      (ofFuel k).construct f (boundArguments links ++ args) f m) ∧
    (∀ k name scope callee operands args n n', m.heap.isConstructor (.object f) = true →
      (ofFuel (k + links.length)).evaluate scope callee n = .ok (.object g) n' →
      (ofFuel (k + links.length)).evaluateArguments scope operands n' = .ok args m →
      (ofFuel (k + links.length + 1)).evaluateAs name scope (.new callee operands) n =
        (ofFuel k).construct f (boundArguments links ++ args) f m) ∧
    (∀ k args node scope home prototype writable enumerable,
      (m.heap.get f).callable? = some (.closure node scope home) →
      m.heap.find? f "prototype" = some (.data (.object prototype) writable enumerable) →
      ((m.withInstance prototype).heap.get ⟨m.heap.size⟩).prototype = some prototype ∧
      (ofFuel (k + 1 + links.length)).construct g args g m =
        (do
          let result ← (ofFuel k).callClosure node scope home (.object ⟨m.heap.size⟩)
            (boundArguments links ++ args)
          return if result.isObject then result else .object ⟨m.heap.size⟩)
          (m.withInstance prototype)) ∧
    (∀ k b args, (m.heap.get b).callable? = some (.native (.builtin (.function .bind))) →
      m.heap.isCallable (.object g) = true →
      ∃ m', (ofFuel (k + 1)).call b (.object g) args m = .ok (.object ⟨m.heap.size⟩) m' ∧
        m'.heap.BoundBy f (links ++ [(.argument args 0, args.drop 1)]) ⟨m.heap.size⟩) ∧
    ∀ m', Precedes suites accepted m m' → m'.heap.BoundBy f links g := by
  obtain ⟨hidden, hm⟩ := h.sound
  have hconstructs := hg.constructs hm.anchored
  refine ⟨fun k => hg.call, hconstructs, fun k => hg.construct, ?_, ?_, ?_, fun m' hlater => ?_⟩
  · intro k name scope callee operands args n n' hf hcallee hargs
    change (ofFuel (k + links.length)).evaluateNew scope callee operands n = _
    have hconstructor : m.heap.isConstructor (.object g) = true := hconstructs.trans hf
    unfold evaluateNew
    rw [Discipline.bind_apply, hcallee]
    dsimp only
    rw [Discipline.bind_apply, hargs]
    dsimp only
    rw [readHeap_bind, hconstructor]
    exact hg.construct args
  · intro k args node scope home prototype writable enumerable hf hprototype
    refine ⟨congrArg Object.prototype (m.heap.get_allocate_self _), ?_⟩
    rw [hg.construct]
    change (ofFuel k).constructFunction f _ f m = _
    unfold constructFunction
    rw [readHeap_bind, hf]
    exact constructWith_of_find? _ hprototype
  · intro k b args hb hcallable
    exact ⟨_, call_bind args hb hcallable, hg.binding _ _⟩
  · exact hg.mono hlater.grows.functions

/-- The function `f` is one of the program, and was bound to `null` with `true`, and what that gave
to `false` with `null`. -/
def bindsTwice (m : Machine) (f g g' : ObjectId) : Bool :=
  match (m.heap.get f).callable?, (m.heap.get g).callable?, (m.heap.get g').callable? with
  | some (.closure ..), some (.bound f' .null [.boolean true]),
    some (.bound g'' (.boolean false) [.null]) => decide (f' = f) && decide (g'' = g)
  | _, _, _ => false

theorem boundBy_of_bindsTwice {g' : ObjectId} (h : m.bindsTwice f g g' = true) :
    m.heap.BoundBy f [(.null, [.boolean true]), (.boolean false, [.null])] g' := by
  unfold bindsTwice at h
  split at h
  · next hg hg' =>
    obtain ⟨hf', hg''⟩ := Bool.and_eq_true_iff.mp h
    rw [of_decide_eq_true hf'] at hg
    rw [of_decide_eq_true hg''] at hg'
    exact (Heap.BoundBy.nil.snoc hg).snoc hg'
  · cases h

/-- The host runs a program that binds a function twice.  What that gives calls it with the receiver
of the first link, and constructs by it, with the arguments of both links in front. -/
theorem Passed.bound_chains_twice : ∃ m f g,
    m.Passed False (fun _ => True) ∧
    m.heap.BoundBy f [(.null, [.boolean true]), (.boolean false, [.null])] g ∧
    m.heap.isConstructor (.object g) = true ∧
    (∀ k args, (ofFuel (k + 2)).call g .undefined args m =
      (ofFuel k).call f .null (.boolean true :: .null :: args) m) ∧
    ∀ k args, (ofFuel (k + 2)).construct g args g m =
      (ofFuel k).construct f (.boolean true :: .null :: args) f m := by
  let source := "function f() {} f.bind(null, true).bind(false, null)"
  have hbinds : (initial.evaluate source).machine.bindsTwice ⟨122⟩ ⟨124⟩ ⟨125⟩ = true := by
    decide +kernel
  have hconstructs : (initial.evaluate source).machine.heap.isConstructor (.object ⟨122⟩) = true := by
    decide +kernel
  have hhosted : (initial.evaluate source).machine.Hosted False fun _ => True :=
    Hosted.initial.evaluate fun _ _ => trivial
  generalize (initial.evaluate source).machine = m at hbinds hconstructs hhosted
  have hchain := boundBy_of_bindsTwice hbinds
  obtain ⟨hcalls, hconstructor, hconstruct, -⟩ := Passed.bound_chains (.hosted hhosted) hchain
  exact ⟨m, ⟨122⟩, ⟨125⟩, .hosted hhosted, hchain, hconstructor.trans hconstructs,
    fun k args => hcalls k .undefined args, hconstruct⟩

end Machine

end EcmaEval
