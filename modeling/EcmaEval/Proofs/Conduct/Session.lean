import EcmaEval.Proofs.Conduct.Call
import EcmaEval.Session
import EcmaEval.Suite.Declare

/-!
# Sessions on sound machines

A host starts with the library, and then runs, calls and binds only values that are there.  So it
never has a machine that is not sound, whatever its programs do and however their runs end.

The library is installed on a machine that has nothing but the bare objects and frames of its realm.
That machine is looked at as a whole; everything behind it is a run like any other.

## Main definitions

* `Machine.bare`: the machine with the objects and the frames of one realm
* `Machine.Hosted`: the machines that a host has between its steps

## Main results

* `Machine.sound_initial`: the machine with the library is sound
* `Machine.Hosted.sound`: a host has sound machines only
-/

namespace EcmaEval

open EcmaEval.Action

variable {L : Law}

/-! ## The machine with the library -/

/-- The prototypes and the classes of the objects of a realm, in the order in which they are made. -/
def Realm.blueprint : List (Option ObjectId × ObjectClass) :=
  (none, .object) ::
    [.function, .array, .string, .number, .boolean, .bigint, .promise, .object].map (some ⟨0⟩, ·) ++
    .replicate 4 (some ⟨8⟩, .object)

/-- The object of a realm with a prototype and a class. -/
def Realm.blank (prototype : Option ObjectId) (objectClass : ObjectClass) : Object :=
  { Object.new prototype .ordinary with objectClass }

/-- The machine with the objects and the frames of one realm. -/
def Machine.bare : Machine :=
  { Machine.empty with
    heap := ⟨(Realm.blueprint.map fun part => Realm.blank part.1 part.2).toArray⟩
    frames := ⟨#[constantsFrame, { parent := some ⟨0⟩, kind := .function }]⟩
    realm := ⟨⟨0⟩, ⟨1⟩, ⟨0⟩, ⟨1⟩, ⟨2⟩, ⟨3⟩, ⟨4⟩, ⟨5⟩, ⟨6⟩, ⟨7⟩, ⟨8⟩, ⟨9⟩, ⟨10⟩, ⟨11⟩, ⟨12⟩⟩ }

namespace Machine

theorem newRealm_empty :
    newRealm Machine.empty = .ok bare.realm { bare with realm := default } := rfl

theorem bare_older : ∀ (i : Nat) (h : i < Realm.blueprint.length),
    ∀ p ∈ Realm.blueprint[i].1, p.index < i := by decide

/-- The objects of the realm are blank, and younger than their prototypes. -/
theorem bare_get (id : ObjectId) : ∃ prototype objectClass,
    bare.heap.get id = Realm.blank prototype objectClass ∧
      ∀ p, prototype = some p → p.index < id.index ∧ p.index < bare.heap.size := by
  by_cases hid : id.index < Realm.blueprint.length
  · refine ⟨Realm.blueprint[id.index].1, Realm.blueprint[id.index].2, ?_, fun p hp => ?_⟩
    · simp [Heap.get, bare, hid]
    · have hlt := bare_older _ hid p hp
      exact ⟨hlt, hlt.trans hid⟩
  · refine ⟨none, .object, ?_, fun p hp => by cases hp⟩
    rw [Heap.get_of_size_le _ (Nat.le_of_not_lt hid)]
    rfl

theorem bare_grants_object {i : Nat} (h : i < bare.heap.size) :
    facts (⟨i⟩ : ObjectId) ⊆ bare.granted L ∅ :=
  Set.insert_subset_iff.mpr ⟨⟨h, Set.notMem_empty _⟩, Set.singleton_subset_iff.mpr h⟩

theorem bare_frame (id : FrameId) : bare.frames.get id = constantsFrame ∨
    bare.frames.get id = { parent := some ⟨0⟩, kind := .function } ∧ id.index = 1 ∨
    bare.frames.get id = { parent := none, kind := .block } ∧ bare.frames.size ≤ id.index := by
  obtain ⟨i⟩ := id
  match i with
  | 0 => exact .inl rfl
  | 1 => exact .inr (.inl ⟨rfl, rfl⟩)
  | i + 2 => exact .inr (.inr ⟨rfl, Nat.le_add_left 2 i⟩)

theorem bare_isPrototype {id p : ObjectId} (hp : bare.heap.IsPrototype p id) :
    p.index < id.index ∧ p.index < bare.heap.size := by
  obtain ⟨prototype, objectClass, heq, holder⟩ := bare_get id
  rw [Heap.IsPrototype, heq] at hp
  exact holder p hp

theorem sound_bare (hfree : ∀ id name, L.free id name) : bare.Sound L ∅ where
  objects id := by
    obtain ⟨prototype, objectClass, heq, holder⟩ := bare_get id
    rw [heq]
    refine Set.union_subset (Set.union_subset (Set.empty_subset _) ?_) ?_
    · change facts prototype ⊆ _
      cases prototype with
      | none => exact Set.empty_subset _
      | some p => exact bare_grants_object (holder p rfl).2
    · rintro _ ⟨name, property, hget, -⟩
      exact nomatch hget
  frames id := by
    rcases bare_frame id with heq | ⟨heq, -⟩ | ⟨heq, -⟩ <;> rw [heq]
    · exact (inferInstance : Shown ⟨bare.granted L ∅, ∅⟩ constantsFrame).facts_subset
    · have : Shown ⟨bare.granted L ∅, ∅⟩ (⟨0⟩ : FrameId) := ⟨Set.singleton_subset_iff.mpr Nat.two_pos⟩
      exact (inferInstance : Shown ⟨bare.granted L ∅, ∅⟩
        ({ parent := some ⟨0⟩, kind := .function } : Frame)).facts_subset
    · exact (inferInstance : Shown ⟨bare.granted L ∅, ∅⟩
        ({ parent := none, kind := .block } : Frame)).facts_subset
  realm := by
    have hframes : ∀ id ∈ [bare.realm.globalFrame, bare.realm.programFrame],
        id.index < bare.frames.size := by decide
    refine Set.union_subset (Set.union_subset ?_ ?_) ?_
    · exact facts_subset_iff_forall_mem.mpr fun id hid => Set.singleton_subset_iff.mpr (hframes id hid)
    · refine facts_subset_iff_forall_mem.mpr fun id hid => bare_grants_object ?_
      revert id
      decide
    · rintro _ (rfl | rfl) <;> exact ⟨by decide, by decide⟩
  signal := Set.empty_subset _
  newTarget := Set.empty_subset _
  grounded := Subrelation.wf (fun {p id} hp => (bare_isPrototype hp).1) (measure ObjectId.index).wf
  anchored id target hbinds := by
    obtain ⟨receiver, args, hcall⟩ := hbinds
    obtain ⟨prototype, objectClass, heq, -⟩ := bare_get id
    rw [heq] at hcall
    exact nomatch hcall
  nested := {
    outward := fun id outer h => by
      rcases bare_frame id with heq | ⟨heq, hid⟩ | ⟨heq, -⟩ <;> rw [heq] at h
      · exact nomatch h
      · cases h
        exact hid ▸ Nat.one_pos
      · exact nomatch h
    rooted := fun id hid h => by
      rcases bare_frame id with heq | ⟨heq, -⟩ | ⟨-, hle⟩
      · exact heq ▸ nofun
      · exact heq ▸ nofun
      · exact absurd hid (Nat.not_lt.mpr hle) }
  concealed := nofun
  fresh _ _ _ := hfree _ _

/-- An action of the host leaves a sound machine, whatever way it ends. -/
theorem sound_after {m : Machine} {a : Action Unit} {post : Unit → Set Fact}
    (h : L.Ends ∅ m post (a m)) : (m.after a).Sound L ∅ := by
  unfold after
  generalize a m = result at h
  cases h with
  | ok hstep _ => exact hstep.sound
  | error hstep _ => exact hstep.sound

theorem initial_of_newRealm {m : Machine} {r : Realm} (h : newRealm empty = .ok r m) :
    initial = after { m with realm := r } installLibrary := by
  unfold initial after
  rw [Law.enterNewRealm_of_ok h]

/-- The machine with the library is sound. -/
theorem sound_initial (hfree : ∀ id name, L.free id name) : initial.Sound L ∅ := by
  rw [initial_of_newRealm newRealm_empty]
  have hbare : ({ { bare with realm := default } with realm := bare.realm } : Machine).Sound L ∅ :=
    sound_bare hfree
  have hlibrary : L.Installs ⟨bare.granted L ∅, ∅⟩ installLibrary := inferInstance
  exact sound_after (hlibrary.ends _ ⟨hbare, Set.Subset.rfl⟩ (hfree _))

end Machine

/-! ## What a host does -/

/-- Where calls of the parent constructor belong to constructors, the program has none outside of
them. -/
def Law.Admits (L : Law) (p : Program) : Prop := L.lexical → facts (Framed.mk none p.body) = ∅

/-- What the program calls may be called, for it calls nothing, or any call may stand anywhere. -/
theorem Law.Admits.code_subset {p : Program} (h : L.Admits p) {hidden : Set ObjectId}
    {m : Machine} : facts (Framed.mk none p.body) ⊆ m.granted L hidden := by
  by_cases hlexical : L.lexical
  · rw [h hlexical]
    exact Set.empty_subset _
  · exact Machine.code_subset_of_not_lexical hlexical _

/-- The value names no object that is not there. -/
def Value.In (h : Heap) : Value → Prop
  | .object id => id.index < h.size
  | _ => True

/-- The machines that a host has between its steps.  It runs programs that are `accepted`, and what
it hands over is there.  It lends the functions of a suite to programs only if `suites` holds. -/
inductive Machine.Hosted (suites : Prop) (accepted : Program → Prop) : Machine → Prop where
  | initial : Hosted suites accepted .initial
  | installSuite {m : Machine} (h : m.Hosted suites accepted) (hsuites : suites) :
    Hosted suites accepted (m.after Action.installSuite)
  | run {m : Machine} (h : m.Hosted suites accepted) {p : Program} (hp : accepted p) :
    Hosted suites accepted (m.run p).machine
  | call {m : Machine} (h : m.Hosted suites accepted) {callee this : Value} {args : List Value}
    (hvalues : ∀ v ∈ callee :: this :: args, v.In m.heap) :
    Hosted suites accepted (m.call callee this args).machine
  | define {m : Machine} (h : m.Hosted suites accepted) (name : String) {v : Value}
    (hv : v.In m.heap) : Hosted suites accepted (m.define name v)
  | hostFunction {m : Machine} (h : m.Hosted suites accepted) (f : HostFunction) :
    Hosted suites accepted (m.hostFunction f).machine
  | withOptions {m : Machine} (h : m.Hosted suites accepted) (options : ParseOptions) :
    Hosted suites accepted (m.withOptions options)
  | clearOutput {m : Machine} (h : m.Hosted suites accepted) : Hosted suites accepted m.clearOutput

namespace Machine

variable {m : Machine} {suites : Prop} {accepted : Program → Prop}

/-- The host reads a text and runs it, if it is a program. -/
theorem Hosted.evaluate (h : m.Hosted suites accepted) {source : String}
    (hp : ∀ p, Program.ofText m.options source = .ok p → accepted p) :
    (m.evaluate source).machine.Hosted suites accepted := by
  unfold Machine.evaluate
  split
  · next p hread => exact h.run (hp p hread)
  · exact h

/-- All that is true of a machine, known. -/
def knowledge (L : Law) (hidden : Set ObjectId) (m : Machine) : Knowledge :=
  ⟨m.granted L hidden, hidden⟩

theorem Sound.meets {hidden : Set ObjectId} (h : m.Sound L hidden) :
    m.Meets L (m.knowledge L hidden) :=
  ⟨h, Set.Subset.rfl⟩

/-- What is there is true of the machine. -/
theorem facts_subset_of_in {v : Value} (h : v.In m.heap) : facts v ⊆ m.granted L ∅ := by
  cases v with
  | object id =>
    exact Set.insert_subset_iff.mpr ⟨⟨h, Set.notMem_empty _⟩, Set.singleton_subset_iff.mpr h⟩
  | _ => exact Set.empty_subset _

/-- What the host runs leaves a sound machine, whatever way it ends. -/
theorem sound_perform {a : Action Value} {post : Value → Set Fact} (h : L.Ends ∅ m post (a m)) :
    (m.perform a).machine.Sound L ∅ := by
  have hclear {m' : Machine} {mayStop : Prop} (hstep : L.Step ∅ mayStop m m') :
      m'.clearSignal.Sound L ∅ :=
    hstep.sound.withRegisters rfl rfl hstep.sound.realm (Set.empty_subset _) hstep.sound.newTarget
  unfold perform
  generalize a m = result at h
  cases h with
  | ok hstep _ => exact hclear hstep
  | @error e _ hstep _ => cases e <;> exact hclear hstep

/-- The run of a program in its frame, to which any name may be added. -/
theorem Sound.ends_program (hfree : ∀ id name, L.free id name) {hidden : Set ObjectId}
    (hm : m.Sound L hidden) (engine : Engine) [engine.Behaves L] {p : Program}
    (hp : L.Admits p) : L.Ends hidden m facts (engine.executeProgram m.realm.programFrame p m) := by
  have : Shown (m.knowledge L hidden) m.realm := ⟨hm.realm⟩
  have (name : String) : Free (m.knowledge L hidden) m.realm.programFrame name := ⟨hfree _ _⟩
  have : Shown (m.knowledge L hidden) (Framed.mk none p.body) := ⟨hp.code_subset⟩
  exact Law.Conducts.ends (K := m.knowledge L hidden) inferInstance hm.meets

/-- A call of what is there. -/
theorem Sound.ends_callValue (hm : m.Sound L ∅) (engine : Engine) [engine.Behaves L]
    {callee receiver : Value} {args : List Value}
    (hvalues : ∀ v ∈ callee :: receiver :: args, v.In m.heap) :
    L.Ends ∅ m facts (engine.callValue callee receiver args m) := by
  have hfacts (v : Value) (hv : v ∈ callee :: receiver :: args) : facts v ⊆ m.granted L ∅ :=
    facts_subset_of_in (hvalues v hv)
  have : Shown (m.knowledge L ∅) callee := ⟨hfacts _ (by simp)⟩
  have : Shown (m.knowledge L ∅) receiver := ⟨hfacts _ (by simp)⟩
  have : Shown (m.knowledge L ∅) args :=
    ⟨facts_subset_iff_forall_mem.mpr fun v hv => hfacts v (by simp [hv])⟩
  exact Law.Conducts.ends (K := m.knowledge L ∅) inferInstance hm.meets

/-- The functions of a suite, where they may be there. -/
theorem Sound.ends_installSuite (hfree : ∀ id name, L.free id name) (hsuites : L.suites)
    (hm : m.Sound L ∅) : L.Ends ∅ m facts (Action.installSuite m) := by
  have (id : FrameId) (name : String) : Free (m.knowledge L ∅) id name := ⟨hfree _ _⟩
  have : Shown (m.knowledge L ∅) [SuiteFunction.test, .describe, .expect] := by
    refine ⟨facts_subset_iff_forall_mem.mpr fun f hf => ?_⟩
    have hmay : facts f = {.suites} := by
      simp only [List.mem_cons, List.not_mem_nil, or_false] at hf
      rcases hf with rfl | rfl | rfl <;> rfl
    exact hmay ▸ Set.singleton_subset_iff.mpr hsuites
  have : L.Conducts (m.knowledge L ∅) Action.installSuite := by
    unfold Action.installSuite
    infer_instance
  exact this.ends hm.meets

/-- A name for what is there. -/
theorem Sound.ends_define (hfree : ∀ id name, L.free id name) (hm : m.Sound L ∅) (name : String)
    {v : Value} (hv : v.In m.heap) :
    L.Ends ∅ m facts (Action.modifyFrame m.realm.programFrame (·.declareVariable name v) m) := by
  have : Shown (m.knowledge L ∅) v := ⟨facts_subset_of_in hv⟩
  have : Free (m.knowledge L ∅) m.realm.programFrame name := ⟨hfree _ _⟩
  exact Law.Conducts.ends (K := m.knowledge L ∅) inferInstance hm.meets

theorem Sound.ends_hostFunction (hm : m.Sound L ∅) (f : HostFunction) :
    L.Ends ∅ m facts (Action.newNative (.host f) m) := by
  have : Shown (m.knowledge L ∅) (Native.host f) := .of_empty rfl
  exact Law.Conducts.ends (K := m.knowledge L ∅) inferInstance hm.meets

/-- A host has sound machines only. -/
theorem Hosted.sound (hL : L.Records) (hfree : ∀ id name, L.free id name)
    (hsuites : suites → L.suites) (hadmits : ∀ p, accepted p → L.Admits p)
    (h : m.Hosted suites accepted) : m.Sound L ∅ := by
  have : Engine.standard.Behaves L := Engine.behaves_ofFuel hL _
  -- Induction on the steps of the host.
  induction h with
  | initial => exact sound_initial hfree
  | installSuite _ hinstall ih => exact sound_after (ih.ends_installSuite hfree (hsuites hinstall))
  | run _ hp ih => exact sound_perform (ih.ends_program hfree _ (hadmits _ hp))
  | call _ hvalues ih => exact sound_perform (ih.ends_callValue _ hvalues)
  | define _ name hv ih => exact sound_after (ih.ends_define hfree name hv)
  | hostFunction _ f ih => exact sound_perform (ih.ends_hostFunction f)
  | withOptions _ _ ih => exact ih.withRegisters rfl rfl ih.realm ih.signal ih.newTarget
  | clearOutput _ ih => exact ih.withRegisters rfl rfl ih.realm ih.signal ih.newTarget

end Machine

end EcmaEval
