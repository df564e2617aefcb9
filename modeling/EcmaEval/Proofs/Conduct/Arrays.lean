import EcmaEval.Proofs.Conduct.Part
import EcmaEval.Proofs.Conduct.Names

/-!
# Receivers and arrays in a session

The constructor of a derived class has no receiver before it has called the constructor of its
parent, and from then on it has one.  No run takes it away, and no other frame ever gets another
receiver.

A second call of the parent constructor is refused, but only if the receiver is there when the
arguments are.  What the parent constructor runs may call it again, and then there is a receiver when
the outer call comes back; the outer call does not look, and its instance takes the place of the one
that was there.

No array is to have more than `maxArrayLength` elements.  Writing an index or the length, the length
given to the constructor and the length of what is no array are held against that, and throw a
`RangeError`.  What makes an array of given elements, `push`, `unshift` and `splice` are not, and an
array that has more elements got them there.

## Main definitions

* `Machine.withReceiver`: the machine with another receiver of a frame
* `Engine.constructReceiver`: lets the parent of a class construct the receiver of a frame

## Main results

* `Engine.callSuper_of_frame`: what a call of the parent constructor does with the frame it has found
* `Engine.callSuper_of_bound`, `Engine.callSuper_of_unbound`: where there is a receiver, and where not
* `Machine.Precedes.receivers_stay`: in a session receivers stay bound
* `Engine.writeOwn_of_index`, `Engine.writeOwn_of_length`: writing beyond the limit
* `Engine.newArray_overfills`, `Engine.push_overfills`, `Engine.unshift_overfills`: nothing is looked at
* `Machine.Precedes.overlong_overfilled`: where an array has become overlong
-/

namespace EcmaEval

open EcmaEval.Action Engine Discipline

/-! ## Calls of the parent constructor -/

/-- The machine with a value as the receiver of a frame. -/
def Machine.withReceiver (m : Machine) (frame : FrameId) (v : Value) : Machine :=
  { m with frames := m.frames.modify frame ({ · with this := some (.bound v) }) }

namespace Engine

variable {engine : Engine} {scope frame : FrameId} {args : Action (List Value)} {m m' m'' : Machine}
  {values : List Value}

/-- Where the receiver is there when the arguments are, nothing is constructed. -/
theorem callSuper_of_bound (hframe : m.frames.find? scope (·.superCall.isSome) = some frame)
    (hargs : args m = .ok values m') {v : Value}
    (hbound : (m'.frames.get frame).this = some (.bound v)) :
    engine.callSuper scope args m =
      .error (.thrown (.object ⟨m'.heap.size⟩)) (m'.afterFault .superTwice) := by
  unfold callSuper
  rw [readFrames_bind, hframe]
  dsimp only
  rw [bind_apply, hargs]
  dsimp only
  rw [readFrames_bind]
  generalize m'.frames.get frame = f at hbound
  obtain ⟨bindings, parent, kind, this, superCall, home⟩ := f
  cases hbound
  rfl

/-- Lets the parent of a class construct the receiver of a frame, and gives it the fields of the
class.  A receiver that is there already is an error. -/
def constructReceiver (engine : Engine) (frame : FrameId) (definition : ClassDefinition)
    (parent newTarget : ObjectId) (values : List Value) : Action Value := do
  match ← readFrames fun fs => (fs.get frame).this with
  | some (.bound _) => throwFault .superTwice
  | _ =>
    match ← engine.construct parent values newTarget with
    | .object instanceId =>
      modifyFrame frame ({ · with this := some (.bound (.object instanceId)) })
      engine.initializeFields definition instanceId
      return .object instanceId
    | _ => throwFault .superNotObject

/-- A call that has found the frame of a constructor of a derived class constructs its receiver. -/
theorem callSuper_of_frame (hframe : m.frames.find? scope (·.superCall.isSome) = some frame)
    {definition : ClassDefinition} {parent newTarget : ObjectId}
    (hparent : definition.parent = some parent)
    (hcall : ∀ values m', args m = .ok values m' →
      (m'.frames.get frame).superCall = some ⟨definition, newTarget⟩) :
    engine.callSuper scope args m =
      (args >>= engine.constructReceiver frame definition parent newTarget) m := by
  unfold callSuper
  rw [readFrames_bind, hframe]
  dsimp only
  rw [bind_apply, bind_apply]
  cases hargs : args m with
  | error e m' => rfl
  | ok values m' =>
    -- The frame is read behind the arguments, which may have bound its receiver.
    have hcall := hcall values m' hargs
    unfold constructReceiver
    dsimp only
    rw [readFrames_bind, readFrames_bind]
    generalize m'.frames.get frame = f at hcall ⊢
    obtain ⟨bindings, outer, kind, this, superCall, home⟩ := f
    dsimp only at hcall
    subst hcall
    obtain ⟨className, constructor?, classParent, prototype, fields, classScope⟩ := definition
    dsimp only at hparent
    subst hparent
    obtain _ | _ | _ := this <;> rfl

/-- Where there is no receiver when the arguments are there, what the parent constructor constructs
becomes the receiver, whatever the receiver is by then, and the fields of the class are
initialized. -/
theorem callSuper_of_unbound (hframe : m.frames.find? scope (·.superCall.isSome) = some frame)
    (hargs : args m = .ok values m')
    (hunbound : ∀ v, (m'.frames.get frame).this ≠ some (.bound v)) {definition : ClassDefinition}
    {newTarget parent : ObjectId}
    (hcall : (m'.frames.get frame).superCall = some ⟨definition, newTarget⟩)
    (hparent : definition.parent = some parent) {instanceId : ObjectId}
    (hconstruct : engine.construct parent values newTarget m' = .ok (.object instanceId) m'') :
    engine.callSuper scope args m =
      (do
        engine.initializeFields definition instanceId
        return Value.object instanceId) (m''.withReceiver frame (.object instanceId)) := by
  have hcall' (values' : List Value) (n : Machine) (hn : args m = .ok values' n) :
      (n.frames.get frame).superCall = some ⟨definition, newTarget⟩ := by
    cases hargs.symm.trans hn
    exact hcall
  rw [callSuper_of_frame hframe hparent hcall', bind_apply, hargs]
  unfold constructReceiver
  dsimp only
  rw [readFrames_bind]
  -- Only a receiver that is bound when the arguments are there is looked at.
  generalize (m'.frames.get frame).this = this at hunbound ⊢
  obtain _ | _ | _ := this
  case some.bound v => exact absurd rfl (hunbound v)
  all_goals
    dsimp only
    rw [bind_apply, hconstruct]
    rfl

end Engine

/-! ## Sessions -/

namespace Machine

variable {suites : Prop} {accepted : Program → Prop} {m m' : Machine}

/-- **Receivers stay bound.**  From one machine of a session to a later one, a frame stays the frame
of the same constructor call, or of none; a receiver that is bound stays so; and the receiver of a
frame is another one only if the frame is that of a constructor of a derived class, and the receiver
is bound now.  A call of the parent constructor from a frame whose receiver is bound when the
arguments are there throws a `ReferenceError`, constructs nothing, initializes no fields, and leaves
all frames as they are.  Else the frame gets what the parent constructor constructs as its receiver,
and the fields of the class are initialized, whatever the receiver is when that comes back. -/
theorem Precedes.receivers_stay (h : Precedes suites accepted m m') :
    (∀ id, id.index < m.frames.size →
      (m'.frames.get id).superCall = (m.frames.get id).superCall ∧
      (∀ v, (m.frames.get id).this = some (.bound v) →
        ∃ v', (m'.frames.get id).this = some (.bound v')) ∧
      ((m'.frames.get id).this ≠ (m.frames.get id).this →
        (m.frames.get id).superCall.isSome = true ∧
          ∃ v, (m'.frames.get id).this = some (.bound v))) ∧
    ∀ (engine : Engine) scope frame (args : Action (List Value)) m₁ m₂ values,
      m₁.frames.find? scope (·.superCall.isSome) = some frame → args m₁ = .ok values m₂ →
      (∀ v, (m₂.frames.get frame).this = some (.bound v) →
        engine.callSuper scope args m₁ =
          .error (.thrown (.object ⟨m₂.heap.size⟩)) (m₂.afterFault .superTwice) ∧
        (m₂.afterFault .superTwice).frames = m₂.frames ∧
        (m₂.errorOf .superTwice).prototype = some m₂.realm.referenceErrorPrototype) ∧
      ((∀ v, (m₂.frames.get frame).this ≠ some (.bound v)) →
        ∀ definition newTarget parent instanceId m₃,
          (m₂.frames.get frame).superCall = some ⟨definition, newTarget⟩ →
          definition.parent = some parent →
          engine.construct parent values newTarget m₂ = .ok (.object instanceId) m₃ →
          engine.callSuper scope args m₁ =
            (do
              engine.initializeFields definition instanceId
              return Value.object instanceId) (m₃.withReceiver frame (.object instanceId))) := by
  refine ⟨fun id hid => ?_, fun engine scope frame args m₁ m₂ values hframe hargs =>
    ⟨fun v hbound => ⟨callSuper_of_bound hframe hargs hbound, rfl, rfl⟩,
      fun hunbound definition newTarget parent instanceId m₃ hcall hparent hconstruct =>
        callSuper_of_unbound hframe hargs hunbound hcall hparent hconstruct⟩⟩
  have hpersists := h.grows.persists hid
  refine ⟨hpersists.superCall, fun v hbound => ?_, hpersists.this.resolve_left⟩
  rcases hpersists.this with hsame | ⟨-, hbound'⟩
  · exact ⟨v, hsame.trans hbound⟩
  · exact hbound'

/-- A machine in the constructor of a derived class, behind the call of the parent constructor. -/
def afterSuper : Machine :=
  { empty with frames := ⟨#[{
      parent := none
      kind := .function
      this := some (.bound (.object ⟨0⟩))
      superCall := some ⟨{
        name := "B"
        constructor? := none
        parent := some ⟨1⟩
        prototype := ⟨2⟩
        scope := ⟨0⟩
        fields := [] }, ⟨3⟩⟩ }]⟩ }

/-- A program with a derived class leaves the frame of the program what it was; and behind the call of
the parent constructor a second one is refused. -/
theorem Precedes.receivers_stay_derived : ∃ p,
    Program.ofText {} "class A {} class B extends A { constructor() { super() } } new B()" = .ok p ∧
      Precedes False Program.IsRead initial (initial.run p).machine ∧
      ((initial.run p).machine.frames.get initial.realm.programFrame).superCall =
        (initial.frames.get initial.realm.programFrame).superCall ∧
      standard.callSuper ⟨0⟩ (pure []) afterSuper =
        .error (.thrown (.object ⟨0⟩)) (afterSuper.afterFault .superTwice) := by
  obtain ⟨p, hread⟩ : ∃ p, Program.ofText {}
      "class A {} class B extends A { constructor() { super() } } new B()" = .ok p :=
    exists_of_isOk (by decide +kernel)
  have hinitial : initial.Hosted False Program.IsRead := .initial
  have hrun : Precedes False Program.IsRead initial (initial.run p).machine :=
    .run hinitial ⟨{}, _, hread⟩
  have hframe : initial.Grants (.lax False) ∅ (.frame initial.realm.programFrame) :=
    hinitial.sound_lax.realm (.inl (.inl (Set.mem_iUnion₂.mpr
      ⟨initial.realm.programFrame, by simp, rfl⟩)))
  obtain ⟨hframes, hcalls⟩ := hrun.receivers_stay
  exact ⟨p, hread, hrun, (hframes initial.realm.programFrame hframe).1,
    ((hcalls standard ⟨0⟩ ⟨0⟩ (pure []) afterSuper afterSuper [] rfl rfl).1 _ rfl).1⟩

end Machine

end EcmaEval

/-! # Arrays in a session -/

namespace EcmaEval

open EcmaEval.Action Engine

namespace Engine

variable {engine : Engine} {id : ObjectId} {m m₁ m₂ : Machine} {elements : Array Value}
  {value : Value}

/-! ## Lengths that are looked at -/

/-- An index beyond the limit is not written. -/
theorem writeOwn_of_index (harray : (m.heap.get id).isArray = true) {key : String} {i : Nat}
    (hkey : arrayIndex? key = some i) (hi : maxArrayLength ≤ i) :
    engine.writeOwn (.object id) key value m =
      .error (.thrown (.object ⟨m.heap.size⟩)) (m.afterFault .arrayLength) := by
  unfold writeOwn checkArrayWrite
  simp only [readHeap_bind, harray, if_true, hkey,
    if_neg (Object.ne_length_of_arrayIndex? hkey), if_neg (Nat.not_lt.mpr hi),
    throwFault_bind]
  rfl

/-- A length beyond the limit, or one that is no length, is not written. -/
theorem writeOwn_of_length (harray : (m.heap.get id).isArray = true) {x : Float}
    (hnumber : engine.toNumber value m = .ok x m₁)
    (hx : Object.arrayLength? (.number x) = none) :
    engine.writeOwn (.object id) "length" value m =
      .error (.thrown (.object ⟨m₁.heap.size⟩)) (m₁.afterFault .arrayLength) := by
  unfold writeOwn checkArrayWrite
  simp only [readHeap_bind, harray, if_true, bind_assoc]
  rw [Discipline.bind_apply, hnumber]
  simp only [hx, throwFault_bind]
  rfl

/-- The constructor gives no array of a length beyond the limit. -/
theorem constructArray_of_length {x : Float} (hx : Object.arrayLength? (.number x) = none) :
    constructArray [.number x] m =
      .error (.thrown (.object ⟨m.heap.size⟩)) (m.afterFault .arrayLength) := by
  unfold constructArray
  simp only [hx]
  rfl

/-- What is no array has no elements to offer if its length is beyond the limit. -/
theorem listElements_of_length (hplain : (m.heap.get id).elements? = none)
    (hlength : engine.getOf id "length" m = .ok value m₁) {x : Float}
    (hnumber : engine.toNumber value m₁ = .ok x m₂)
    (hx : Float.ofNat maxArrayLength < Number.toIntegerOrInfinity x) :
    engine.listElements id m =
      .error (.thrown (.object ⟨m₂.heap.size⟩)) (m₂.afterFault .arrayLength) := by
  unfold listElements
  simp only [readHeap_bind, hplain]
  rw [Discipline.bind_apply, hlength]
  dsimp only
  rw [Discipline.bind_apply, hnumber]
  dsimp only
  rw [if_pos hx, throwFault_bind]
  rfl

/-! ## Lengths that are not -/

/-- An array is made of whatever number of elements. -/
theorem newArray_overfills : ∃ m', newArray elements m = .ok (.object ⟨m.heap.size⟩) m' ∧
    (maxArrayLength < elements.size → m.Overfills ⟨m.heap.size⟩ m') :=
  ⟨{ m with heap := (m.heap.allocate (.new (some m.realm.arrayPrototype) (.array elements))).2 },
    rfl, fun hlong => .create ⟨elements, rfl, hlong⟩⟩

section Insert

variable (helements : (m.heap.get id).elements? = some elements) (args : List Value)
include helements

theorem receivedArray_of_elements (method : ArrayFunction) :
    receivedArray (.object id) method m = .ok id m := by
  unfold receivedArray
  simp only [readHeap_bind, Object.isArray, helements, Option.isSome_some, if_true]
  rfl

theorem lengthOf_modifyElements (change : Array Value → Array Value) :
    (do
      modifyElements id change
      return Value.ofNat (← lengthOf id)) m =
      .ok (.ofNat (change elements).size)
        { m with heap := m.heap.modify id (·.withElements change) } := by
  have hlt := m.heap.lt_size_of_elements? helements
  unfold modifyElements lengthOf
  rw [modifyObject_bind, readHeap_bind, Heap.get_modify_self _ hlt, Object.elements?_withElements,
    helements]
  rfl

/-- As many elements are put behind those of an array as there are arguments. -/
theorem push_overfills : ∃ m', engine.callArray .push (.object id) args m =
      .ok (.ofNat (elements.size + args.length)) m' ∧
    (elements.size ≤ maxArrayLength → maxArrayLength < elements.size + args.length →
      m.Overfills id m') := by
  refine ⟨{ m with heap := m.heap.modify id (·.withElements (· ++ args.toArray)) }, ?_,
    fun hshort hlong => .insert (.push args) helements hshort (by simpa using hlong)⟩
  unfold callArray
  dsimp only
  rw [Discipline.bind_apply, receivedArray_of_elements helements]
  have hmodify := lengthOf_modifyElements helements (· ++ args.toArray)
  rwa [Array.size_append, List.size_toArray] at hmodify

/-- As many elements are put in front of those of an array as there are arguments. -/
theorem unshift_overfills : ∃ m', engine.callArray .unshift (.object id) args m =
      .ok (.ofNat (args.length + elements.size)) m' ∧
    (elements.size ≤ maxArrayLength → maxArrayLength < args.length + elements.size →
      m.Overfills id m') := by
  refine ⟨{ m with heap := m.heap.modify id (·.withElements (args.toArray ++ ·)) }, ?_,
    fun hshort hlong => .insert (.unshift args) helements hshort (by simpa using hlong)⟩
  unfold callArray
  dsimp only
  rw [Discipline.bind_apply, receivedArray_of_elements helements]
  have hmodify := lengthOf_modifyElements helements (args.toArray ++ ·)
  rwa [Array.size_append, List.size_toArray] at hmodify

end Insert

end Engine

/-! ## Sessions -/

namespace Machine

variable {suites : Prop} {accepted : Program → Prop} {m m' : Machine}

/-- A heap of objects none of which is an array. -/
theorem elements?_of_all {h : Heap} (hall : h.objects.all (·.elements?.isNone) = true)
    (id : ObjectId) : (h.get id).elements? = none := by
  by_cases hid : id.index < h.objects.size
  · rw [Heap.get, Array.getD_eq_getD_getElem?, Array.getElem?_eq_getElem hid]
    exact Option.isNone_iff_eq_none.mp (Array.all_eq_true.mp hall id.index hid)
  · rw [h.get_of_size_le (Nat.le_of_not_lt hid)]
    rfl

set_option maxRecDepth 100000 in
/-- There are no arrays before the first program. -/
theorem elements?_initial (id : ObjectId) : (initial.heap.get id).elements? = none :=
  elements?_of_all (by decide +kernel) id

/-- **Arrays become overlong only where nothing looks.**  When an array of a session has more
elements than the limit allows, then it had them before, or in between it was made of so many
elements, or `push`, `unshift` or `splice` put so many into it; and there is none such before the
first program.  An index or a length beyond the limit is not written, and an array is neither
constructed with such a length nor filled from what has such a length: a `RangeError` is thrown.
But arrays are made of whatever number of elements, and `push` and `unshift` put in as many as there
are arguments. -/
theorem Precedes.overlong_overfilled (h : Precedes suites accepted m m') :
    (∀ id, m'.heap.Overlong id → m.heap.Overlong id ∨
      ∃ m₁ m₂, (Law.lax suites).Extends m m₁ ∧ m₁.Overfills id m₂ ∧
        (Law.lax suites).Extends m₂ m') ∧
    (∀ id, ¬ initial.heap.Overlong id) ∧
    (∀ (engine : Engine) n id, (n.heap.get id).isArray = true →
      (∀ key i value, arrayIndex? key = some i → maxArrayLength ≤ i →
        engine.writeOwn (.object id) key value n =
          .error (.thrown (.object ⟨n.heap.size⟩)) (n.afterFault .arrayLength)) ∧
      ∀ value x n', engine.toNumber value n = .ok x n' → Object.arrayLength? (.number x) = none →
        engine.writeOwn (.object id) "length" value n =
          .error (.thrown (.object ⟨n'.heap.size⟩)) (n'.afterFault .arrayLength)) ∧
    (∀ n x, Object.arrayLength? (.number x) = none → constructArray [.number x] n =
      .error (.thrown (.object ⟨n.heap.size⟩)) (n.afterFault .arrayLength)) ∧
    (∀ (engine : Engine) n id value n₁ x n₂, (n.heap.get id).elements? = none →
      engine.getOf id "length" n = .ok value n₁ → engine.toNumber value n₁ = .ok x n₂ →
      Float.ofNat maxArrayLength < Number.toIntegerOrInfinity x →
      engine.listElements id n =
        .error (.thrown (.object ⟨n₂.heap.size⟩)) (n₂.afterFault .arrayLength)) ∧
    (∀ n elements, ∃ n', newArray elements n = .ok (.object ⟨n.heap.size⟩) n' ∧
      (maxArrayLength < elements.size → n.Overfills ⟨n.heap.size⟩ n')) ∧
    ∀ (engine : Engine) n id elements (args : List Value),
      (n.heap.get id).elements? = some elements →
      (∃ n', engine.callArray .push (.object id) args n =
          .ok (.ofNat (elements.size + args.length)) n' ∧
        (elements.size ≤ maxArrayLength → maxArrayLength < elements.size + args.length →
          n.Overfills id n')) ∧
      ∃ n', engine.callArray .unshift (.object id) args n =
          .ok (.ofNat (args.length + elements.size)) n' ∧
        (elements.size ≤ maxArrayLength → maxArrayLength < args.length + elements.size →
          n.Overfills id n') :=
  ⟨h.grows.lengthens, fun id => Object.not_overlong (elements?_initial id),
    fun _ _ _ harray => ⟨fun _ _ _ hkey hi => writeOwn_of_index harray hkey hi,
      fun _ _ _ hnumber hx => writeOwn_of_length harray hnumber hx⟩,
    fun _ _ hx => constructArray_of_length hx,
    fun _ _ _ _ _ _ _ hplain hlength hnumber hx => listElements_of_length hplain hlength hnumber hx,
    fun _ _ => newArray_overfills,
    fun _ _ _ _ args helements => ⟨push_overfills helements args, unshift_overfills helements args⟩⟩

/-- A machine with an array that has as many elements as it may have. -/
def fullArray : Machine :=
  { empty with heap := ⟨#[.new none (.array (Array.replicate maxArrayLength .undefined))]⟩ }

/-- Behind a program every overlong array was overfilled.  The next index of a full array is not
written, but `push` gives it one element more than it may have. -/
theorem Precedes.overlong_overfilled_full : ∃ p, Program.ofText {} "[1].push(2)" = .ok p ∧
    Precedes False Program.IsRead initial (initial.run p).machine ∧
    (∀ id, (initial.run p).machine.heap.Overlong id → ∃ m₁ m₂,
      (Law.lax False).Extends initial m₁ ∧ m₁.Overfills id m₂ ∧
        (Law.lax False).Extends m₂ (initial.run p).machine) ∧
    standard.writeOwn (.object ⟨0⟩) "4194304" .null fullArray =
      .error (.thrown (.object ⟨1⟩)) (fullArray.afterFault .arrayLength) ∧
    ∃ n, standard.callArray .push (.object ⟨0⟩) [.null] fullArray =
      .ok (.ofNat (maxArrayLength + 1)) n ∧ fullArray.Overfills ⟨0⟩ n := by
  obtain ⟨p, hread⟩ : ∃ p, Program.ofText {} "[1].push(2)" = .ok p :=
    exists_of_isOk (by decide +kernel)
  have hrun : Precedes False Program.IsRead initial (initial.run p).machine :=
    .run .initial ⟨{}, _, hread⟩
  obtain ⟨hfilled, hinitial, hwrite, -, -, -, hinsert⟩ := hrun.overlong_overfilled
  have hsize : (Array.replicate maxArrayLength Value.undefined).size = maxArrayLength :=
    Array.size_replicate
  obtain ⟨⟨n, hpush, hoverfills⟩, -⟩ := hinsert standard fullArray ⟨0⟩ _ [.null] rfl
  rw [hsize] at hpush hoverfills
  exact ⟨p, hread, hrun, fun id hlong => (hfilled id hlong).resolve_left (hinitial id),
    (hwrite standard fullArray ⟨0⟩ rfl).1 "4194304" 4194304 .null (by decide +kernel) (by decide),
    n, hpush, hoverfills (Nat.le_refl _) (Nat.lt_succ_self _)⟩

end Machine

end EcmaEval
