import EcmaEval.Engine.Basic
import EcmaEval.Eval.Hoist
import EcmaEval.Proofs.Run.Discipline

/-!
# Steady actions

Most of the evaluator never looks at a register, holds no code and fails in no way of its own.  An
action is steady when it keeps to a discipline, whatever value it gives; instances find that from
the steps that it is made of.

## Main definitions

* `Discipline.Steady`: an action that keeps to a discipline

## Main results

* `Discipline.keeps_allocate`, `Discipline.keeps_modifyObject`: what the heap may take in
* `Discipline.keeps_modifyFrame`: what a frame may take in
* `Discipline.runs_attempt`: an action whose errors are caught
* `Discipline.steady_newFunction`: a function object for code that the machine may hold
-/

namespace EcmaEval

/-! ## Objects and frames that change -/

namespace Object

variable (o : Object) (key : String)

@[simp] theorem callable?_withElements (change : Array Value → Array Value) :
    (o.withElements change).callable? = o.callable? := by
  unfold withElements
  split <;> rfl

@[simp] theorem callable?_define (property : Property) :
    (o.define key property).callable? = o.callable? := by
  unfold define
  split
  · split
    · split
      · exact o.callable?_withElements _
      · rfl
    · rfl
  · rfl

@[simp] theorem callable?_insertPlain (value : Value) :
    (o.insertPlain key value).callable? = o.callable? :=
  o.callable?_define key _

@[simp] theorem callable?_insertHidden (value : Value) :
    (o.insertHidden key value).callable? = o.callable? :=
  o.callable?_define key _

@[simp] theorem callable?_writeNamed (value : Value) :
    (o.writeNamed key value).callable? = o.callable? := rfl

@[simp] theorem callable?_setOwn (value : Value) :
    (o.setOwn key value).callable? = o.callable? := by
  unfold setOwn
  split
  · split
    · exact o.callable?_withElements _
    · rfl
  · split
    · split
      · exact o.callable?_withElements _
      · rfl
    · exact o.callable?_writeNamed key value
  · exact o.callable?_writeNamed key value

@[simp] theorem callable?_remove : (o.remove key).1.callable? = o.callable? := by
  unfold remove
  split
  · exact o.callable?_withElements _
  · split <;> rfl
  · rfl

end Object

theorem Heap.get_allocate (h : Heap) (o : Object) (id : ObjectId) :
    (h.allocate o).2.get id = if id.index = h.size then o else h.get id := by
  simp only [Heap.allocate, Heap.get, Array.getD_eq_getD_getElem?, Array.getElem?_push, Heap.size]
  split <;> rfl

theorem Heap.get_modify (h : Heap) (id : ObjectId) (change : Object → Object) (id' : ObjectId) :
    (h.modify id change).get id' = h.get id' ∨
      (h.modify id change).get id' = change (h.get id') := by
  simp only [Heap.modify, Heap.get, Array.getD_eq_getD_getElem?, Array.getElem?_modify]
  split
  -- Where no object is, there is nothing to change.
  · cases h.objects[id'.index]? with
    | none => exact .inl rfl
    | some o => exact .inr rfl
  · exact .inl rfl

@[simp] theorem Heap.size_allocate (h : Heap) (o : Object) :
    (h.allocate o).2.size = h.size + 1 := by
  simp [allocate, size]

@[simp] theorem Heap.size_modify (h : Heap) (id : ObjectId) (change : Object → Object) :
    (h.modify id change).size = h.size := by
  simp [modify, size]

/-- No check function is made where none is allocated. -/
theorem Heap.KeepsChecks.allocate {h : Heap} {o : Object}
    (ho : ∀ f, o.callable? = some f → f.assertion? = none) : h.KeepsChecks (h.allocate o).2 where
  size_le := by
    rw [size_allocate]
    exact Nat.le_succ _
  kept {id a} ha := by
    rw [assertion?, get_allocate] at ha
    split at ha
    · obtain ⟨f, hf, ha⟩ := Option.bind_eq_some_iff.mp ha
      exact absurd (ha.symm.trans (ho f hf)) (Option.some_ne_none a)
    · exact ha

/-- No check function is made of another object. -/
theorem Heap.KeepsChecks.modify {h : Heap} {id : ObjectId} {change : Object → Object}
    (hchange : ∀ o f, (change o).callable? = some f → o.callable? = some f) :
    h.KeepsChecks (h.modify id change) where
  size_le := Nat.le_of_eq (h.size_modify id change).symm
  kept {id' a} ha := by
    rw [assertion?] at ha ⊢
    rcases h.get_modify id change id' with heq | heq
    · rwa [heq] at ha
    · rw [heq] at ha
      obtain ⟨f, hf, ha⟩ := Option.bind_eq_some_iff.mp ha
      exact Option.bind_eq_some_iff.mpr ⟨f, hchange _ f hf, ha⟩

theorem Heap.Orderly.allocate {h : Heap} (horderly : h.Orderly) {o : Object} (ho : o.Orderly) :
    (h.allocate o).2.Orderly := by
  intro id
  rw [get_allocate]
  split
  · exact ho
  · exact horderly id

theorem Heap.Orderly.modify {h : Heap} (horderly : h.Orderly) {id : ObjectId}
    {change : Object → Object} (hchange : ∀ o : Object, o.Orderly → (change o).Orderly) :
    (h.modify id change).Orderly := by
  intro id'
  rcases h.get_modify id change id' with heq | heq
  · exact heq ▸ horderly id'
  · exact heq ▸ hchange _ (horderly id')

theorem Frames.get_add (fs : Frames) (f : Frame) (id : FrameId) :
    (fs.add f).2.get id = if id.index = fs.size then f else fs.get id := by
  simp only [Frames.add, Frames.get, Array.getD_eq_getD_getElem?, Array.getElem?_push, Frames.size]
  split <;> rfl

theorem Frames.get_modify (fs : Frames) (id : FrameId) (change : Frame → Frame) (id' : FrameId) :
    (fs.modify id change).get id' = fs.get id' ∨
      (fs.modify id change).get id' = change (fs.get id') := by
  simp only [Frames.modify, Frames.get, Array.getD_eq_getD_getElem?, Array.getElem?_modify]
  split
  · cases fs.frames[id'.index]? with
    | none => exact .inl rfl
    | some f => exact .inr rfl
  · exact .inl rfl

theorem Frame.superCall_declareMissing (f : Frame) (names : List String) :
    (names.foldl Frame.declareMissing f).superCall = f.superCall := by
  induction names generalizing f with
  | nil => rfl
  | cons name names ih =>
    rw [List.foldl_cons, ih]
    unfold Frame.declareMissing
    split <;> rfl

namespace Discipline

open EcmaEval.Action

variable {D : Discipline} {α β : Type}

/-! ## Looking at the machine -/

theorem keeps_readHeap {f : Heap → α} {P : α → Prop} (h : ∀ m, D.Holds m → P (f m.heap)) :
    D.Keeps (readHeap f) P :=
  fun m hm hsignal => .ok hm (.refl m) ⟨hsignal, h m hm⟩

theorem keeps_readFrames {f : Frames → α} {P : α → Prop} (h : ∀ m, D.Holds m → P (f m.frames)) :
    D.Keeps (readFrames f) P :=
  fun m hm hsignal => .ok hm (.refl m) ⟨hsignal, h m hm⟩

/-! ## Changing the machine -/

/-- An object is allocated that is no check function. -/
theorem keeps_allocate {o : Object}
    (h : ∀ f, o.callable? = some f → D.AllowsCallable f ∧ f.assertion? = none)
    (horderly : o.Orderly) : D.Keeps (allocate o) fun _ => True := by
  intro m hm hsignal
  have hchecks : m.heap.KeepsChecks (m.heap.allocate o).2 :=
    .allocate fun f hf => (h f hf).2
  refine .ok ⟨fun {id f} hf => ?_, hm.superCall⟩
    ⟨⟨rfl, rfl⟩, ⟨[], .quiet rfl hchecks⟩, (·.allocate horderly)⟩ ⟨hsignal, trivial⟩
  change ((m.heap.allocate o).2.get id).callable? = some f at hf
  rw [Heap.get_allocate] at hf
  -- The object is the new one, or the machine held it before.
  split at hf
  · exact (h f hf).1
  · exact hm.callable hf

theorem keeps_modifyObject {id : ObjectId} {change : Object → Object}
    (h : ∀ o f, (change o).callable? = some f → o.callable? = some f)
    (horderly : ∀ o : Object, o.Orderly → (change o).Orderly) :
    D.Keeps (modifyObject id change) fun _ => True := by
  intro m hm hsignal
  have hchecks : m.heap.KeepsChecks (m.heap.modify id change) := .modify h
  refine .ok ⟨fun {id' f} hf => ?_, hm.superCall⟩
    ⟨⟨rfl, rfl⟩, ⟨[], .quiet rfl hchecks⟩, (·.modify horderly)⟩ ⟨hsignal, trivial⟩
  change ((m.heap.modify id change).get id').callable? = some f at hf
  -- A change may forget what the object runs, but brings nothing new.
  rcases m.heap.get_modify id change id' with heq | heq
  · exact hm.callable (heq ▸ hf)
  · exact hm.callable (h _ _ (heq ▸ hf))

theorem keeps_addFrame {f : Frame} (h : f.superCall = none) :
    D.Keeps (addFrame f) fun _ => True := by
  intro m hm hsignal
  refine .ok ⟨hm.callable, fun {id call} hcall => ?_⟩ (.of_eq ⟨rfl, rfl⟩ rfl rfl)
    ⟨hsignal, trivial⟩
  change ((m.frames.add f).2.get id).superCall = some call at hcall
  rw [Frames.get_add] at hcall
  split at hcall
  · rw [h] at hcall
    cases hcall
  · exact hm.superCall hcall

theorem keeps_modifyFrame {id : FrameId} {change : Frame → Frame}
    (h : ∀ f call, (change f).superCall = some call →
      f.superCall = some call ∨ D.AllowsClass call.definition) :
    D.Keeps (modifyFrame id change) fun _ => True := by
  intro m hm hsignal
  refine .ok ⟨hm.callable, fun {id' call} hcall => ?_⟩ (.of_eq ⟨rfl, rfl⟩ rfl rfl)
    ⟨hsignal, trivial⟩
  change ((m.frames.modify id change).get id').superCall = some call at hcall
  -- Unlike an object, a frame may take in a class, if that one is allowed.
  rcases m.frames.get_modify id change id' with heq | heq
  · exact hm.superCall (heq ▸ hcall)
  · exact (h _ _ (heq ▸ hcall)).elim (fun hold => hm.superCall hold) fun hnew => hnew

/-! ## Failures -/

variable {P : α → Prop}

theorem keeps_throwValue (v : Value) : D.Keeps (throwValue v : Action α) P :=
  fun m hm hsignal => .error hm (.refl m) hsignal trivial

theorem keeps_exhausted : D.Keeps (exhausted : Action α) P :=
  fun m hm hsignal => .error hm (.refl m) hsignal trivial

theorem keeps_breakDown {cause : Breakdown} (h : D.breakdown cause) :
    D.Keeps (breakDown cause : Action α) P :=
  fun m hm hsignal => .error hm (.refl m) hsignal h

/-! ## Attempts -/

/-- Nothing is asked for behind an error. -/
theorem runs_attempt {α : Type} {before : Option Signal} {a : Action α}
    {P : α → Option Signal → Prop} (h : D.Runs before a P) :
    D.Runs before (attempt a) fun result after =>
      (∃ x, result = .ok x ∧ P x after) ∨ after = none := by
  intro m hm hbefore
  have hend := h m hm hbefore
  unfold attempt
  generalize a m = result at hend
  -- Only what the program throws is caught.  Behind it nothing is asked for, as behind each error.
  cases hend with
  | ok hm' hsame hx => exact .ok hm' hsame (.inl ⟨_, rfl, hx⟩)
  | @error e m' hm' hsame hnone he =>
    cases e with
    | thrown v => exact .ok hm' hsame (.inr hnone)
    | broken cause => exact .error hm' hsame hnone he
    | exhausted => exact .error hm' hsame hnone he

/-- The action puts back the target that it was given, so the one around it is at hand again. -/
theorem Ends.underTarget {α : Type} {P : α → Option Signal → Prop} {a : Action α}
    {target : Option ObjectId} {m m₁ : Machine} (hsame : m₁.newTarget = m.newTarget)
    (h : D.Ends { m with newTarget := target } P (a { m₁ with newTarget := target })) :
    D.Ends m P (underTarget target a m₁) := by
  unfold Action.underTarget
  dsimp only
  generalize a { m₁ with newTarget := target } = result at h
  cases h with
  | ok hm' hfollows hx =>
    exact .ok ⟨hm'.callable, hm'.superCall⟩
      (hfollows.enclosed rfl rfl rfl rfl ⟨hsame, hfollows.joining⟩) hx
  | error hm' hfollows hnone he =>
    exact .error ⟨hm'.callable, hm'.superCall⟩
      (hfollows.enclosed rfl rfl rfl rfl ⟨hsame, hfollows.joining⟩) hnone he

/-! ## Instances -/

/-- The action keeps to the discipline. -/
class Steady (D : Discipline) (a : Action α) : Prop where
  keeps : D.Keeps a fun _ => True

/-- Behind a steady action. -/
theorem Runs.next {a : Action α} [ha : D.Steady a] {f : α → Action β}
    {Q : β → Option Signal → Prop} (hf : ∀ x, D.Runs none (f x) Q) : D.Runs none (a >>= f) Q :=
  ha.keeps.andThen fun x _ => hf x

/-- Behind a steady action. -/
theorem Keeps.next {a : Action α} [ha : D.Steady a] {f : α → Action β} {Q : β → Prop}
    (hf : ∀ x, D.Keeps (f x) Q) : D.Keeps (a >>= f) Q :=
  ha.keeps.bind fun x _ => hf x

namespace Steady

variable {a b : Action α}

theorem bind {f : α → Action β} [ha : D.Steady a] (hf : ∀ x, D.Steady (f x)) : D.Steady (a >>= f) :=
  ⟨.next fun x => (hf x).keeps⟩

theorem andThen {f : α → Action β} (ha : D.Steady a) (hf : ∀ x, D.Steady (f x)) :
    D.Steady (a >>= f) :=
  .bind hf

instance (x : α) : D.Steady (pure x : Action α) := ⟨.pure trivial⟩

instance {f : α → Action β} [D.Steady a] [∀ x, D.Steady (f x)] : D.Steady (a >>= f) :=
  .bind inferInstance

instance {p : Prop} [Decidable p] [D.Steady a] [D.Steady b] : D.Steady (if p then a else b) := by
  split <;> infer_instance

instance (f : Heap → α) : D.Steady (readHeap f) := ⟨keeps_readHeap fun _ _ => trivial⟩

instance (f : Frames → α) : D.Steady (readFrames f) := ⟨keeps_readFrames fun _ _ => trivial⟩

instance (f : Realm → α) : D.Steady (readRealm f) :=
  ⟨fun m hm hsignal => .ok hm (.refl m) ⟨hsignal, trivial⟩⟩

instance : D.Steady readTarget := ⟨fun m hm hsignal => .ok hm (.refl m) ⟨hsignal, trivial⟩⟩

instance (id : ObjectId) : D.Steady (isJoining id) :=
  ⟨fun m hm hsignal => .ok hm (.refl m) ⟨hsignal, trivial⟩⟩

instance (line : String) : D.Steady (writeLine line) :=
  ⟨fun _ hm hsignal => .ok ⟨hm.callable, hm.superCall⟩ (.of_eq ⟨rfl, rfl⟩ rfl rfl)
    ⟨hsignal, trivial⟩⟩

instance (line : String) : D.Steady (writeDiagnostic line) :=
  ⟨fun _ hm hsignal => .ok ⟨hm.callable, hm.superCall⟩ (.of_eq ⟨rfl, rfl⟩ rfl rfl)
    ⟨hsignal, trivial⟩⟩

instance (v : Value) : D.Steady (throwValue v : Action α) := ⟨keeps_throwValue v⟩

instance (kind : String) : D.Steady (breakDown (.unsupported kind) : Action α) :=
  ⟨keeps_breakDown (D.shapeless trivial)⟩

instance (stop size : Nat) : D.Steady (breakDown (.outOfBounds stop size) : Action α) :=
  ⟨keeps_breakDown (D.shapeless trivial)⟩

/-! ### Actions around actions -/

instance [ha : D.Steady a] : D.Steady (attempt a) := by
  refine ⟨(runs_attempt ha.keeps).mono ?_⟩
  rintro result after (⟨x, -, hnone, -⟩ | hnone)
  · exact ⟨hnone, trivial⟩
  · exact ⟨hnone, trivial⟩

instance (target : Option ObjectId) [ha : D.Steady a] : D.Steady (underTarget target a) :=
  ⟨fun m hm hsignal => .underTarget rfl <|
    ha.keeps { m with newTarget := target } ⟨hm.callable, hm.superCall⟩ hsignal⟩

instance (id : ObjectId) [ha : D.Steady a] : D.Steady (whileJoining id a) := by
  refine ⟨fun m hm hsignal => ?_⟩
  have hend := ha.keeps { m with joining := id :: m.joining } ⟨hm.callable, hm.superCall⟩ hsignal
  unfold whileJoining
  generalize a { m with joining := id :: m.joining } = result at hend
  cases hend with
  | ok hm' hfollows hx =>
    exact .ok ⟨hm'.callable, hm'.superCall⟩ (hfollows.enclosed rfl rfl rfl rfl
      ⟨hfollows.newTarget, congrArg List.tail hfollows.joining⟩) hx
  | error hm' hfollows hnone he =>
    exact .error ⟨hm'.callable, hm'.superCall⟩ (hfollows.enclosed rfl rfl rfl rfl
      ⟨hfollows.newTarget, congrArg List.tail hfollows.joining⟩) hnone he

instance (found : Option α) [D.Steady a] : D.Steady (orElseThrow found a) := by
  unfold orElseThrow
  split <;> infer_instance

theorem forIn_mem {γ σ : Type} {xs : List γ} {f : γ → σ → Action (ForInStep σ)}
    (hf : ∀ x ∈ xs, ∀ s, D.Steady (f x s)) (s : σ) : D.Steady (forIn xs s f) := by
  -- Induction on the list; each step starts where the step before it has ended.
  induction xs generalizing s with
  | nil =>
    rw [List.forIn_nil]
    infer_instance
  | cons x xs ih =>
    obtain ⟨hx, hxs⟩ := List.forall_mem_cons.mp hf
    have := hx s
    rw [List.forIn_cons]
    refine .bind fun step => ?_
    cases step with
    | done s => exact inferInstance
    | yield s => exact ih hxs s

instance {γ σ : Type} (xs : List γ) (s : σ) (f : γ → σ → Action (ForInStep σ))
    [hf : ∀ x s, D.Steady (f x s)] : D.Steady (forIn xs s f) :=
  forIn_mem (fun x _ => hf x) s

theorem forM_mem {γ : Type} {xs : List γ} {f : γ → Action PUnit}
    (hf : ∀ x ∈ xs, D.Steady (f x)) : D.Steady (xs.forM f) := by
  induction xs with
  | nil => exact inferInstanceAs (D.Steady (pure _))
  | cons x xs ih =>
    obtain ⟨hx, hxs⟩ := List.forall_mem_cons.mp hf
    have := ih hxs
    exact inferInstanceAs (D.Steady (f x >>= fun _ => xs.forM f))

instance {γ : Type} (xs : List γ) (f : γ → Action PUnit) [hf : ∀ x, D.Steady (f x)] :
    D.Steady (xs.forM f) :=
  forM_mem fun x _ => hf x

instance {γ : Type} (xs : List γ) (f : γ → Action α) [hf : ∀ x, D.Steady (f x)] :
    D.Steady (xs.mapM f) := by
  induction xs with
  | nil =>
    rw [List.mapM_nil]
    infer_instance
  | cons x xs ih =>
    rw [List.mapM_cons]
    infer_instance

/-! ### Objects and frames -/

theorem modifyObject {id : ObjectId} {change : Object → Object}
    (h : ∀ o, (change o).callable? = o.callable?)
    (horderly : ∀ o : Object, o.Orderly → (change o).Orderly) : D.Steady (modifyObject id change) :=
  ⟨keeps_modifyObject (fun o _ hf => h o ▸ hf) horderly⟩

instance (id : ObjectId) (key : String) (property : Property) :
    D.Steady (Action.modifyObject id (·.define key property)) :=
  modifyObject (fun o => o.callable?_define key property) fun _ h =>
    h.rearrange (.property (.define key property))

instance (id : ObjectId) (key : String) (value : Value) :
    D.Steady (Action.modifyObject id (·.insertPlain key value)) :=
  modifyObject (fun o => o.callable?_insertPlain key value) fun _ h =>
    h.rearrange (.property (.insertPlain key value))

instance (id : ObjectId) (key : String) (value : Value) :
    D.Steady (Action.modifyObject id (·.insertHidden key value)) :=
  modifyObject (fun o => o.callable?_insertHidden key value) fun _ h =>
    h.rearrange (.property (.insertHidden key value))

instance (id : ObjectId) (key : String) (value : Value) :
    D.Steady (Action.modifyObject id (·.setOwn key value)) :=
  modifyObject (fun o => o.callable?_setOwn key value) fun _ h =>
    h.rearrange (.property (.setOwn key value))

instance (id : ObjectId) (key : String) :
    D.Steady (Action.modifyObject id fun o => (o.remove key).1) :=
  modifyObject (fun o => o.callable?_remove key) fun _ h => h.rearrange (.property (.remove key))

instance (id : ObjectId) (change : Array Value → Array Value) :
    D.Steady (Action.modifyObject id (·.withElements change)) :=
  modifyObject (fun o => o.callable?_withElements change) fun _ h => h.rearrange (.elements change)

instance (id : ObjectId) (prototype : Option ObjectId) :
    D.Steady (Action.modifyObject id ({ · with prototype })) :=
  modifyObject (fun _ => rfl) fun _ h => h.rearrange (.prototype prototype)

instance (id : ObjectId) (state : PromiseState) :
    D.Steady (Action.modifyObject id ({ · with kind := .promise state })) :=
  ⟨keeps_modifyObject (fun _ _ hf => nomatch hf) fun _ _ => .of_not_array rfl⟩

instance (id : ObjectId) : D.Steady (Action.modifyObject id ({ · with kind := .error })) :=
  ⟨keeps_modifyObject (fun _ _ hf => nomatch hf) fun _ _ => .of_not_array rfl⟩

theorem modifyFrame {id : FrameId} {change : Frame → Frame}
    (h : ∀ f, (change f).superCall = f.superCall) : D.Steady (modifyFrame id change) :=
  ⟨keeps_modifyFrame fun f _ hcall => .inl (h f ▸ hcall)⟩

instance (id : FrameId) (name : String) (value : Value) :
    D.Steady (Action.modifyFrame id (·.declareVariable name value)) :=
  modifyFrame fun _ => rfl

instance (id : FrameId) (name : String) (value : Value) :
    D.Steady (Action.modifyFrame id (·.declareConstant name value)) :=
  modifyFrame fun _ => rfl

instance (id : FrameId) (names : List String) :
    D.Steady (Action.modifyFrame id fun f => names.foldl Frame.declareMissing f) :=
  modifyFrame fun f => f.superCall_declareMissing names

instance (id : FrameId) (this : Option ThisBinding) :
    D.Steady (Action.modifyFrame id ({ · with this })) :=
  modifyFrame fun _ => rfl

instance (outer : FrameId) : D.Steady (addBlock outer) := ⟨keeps_addFrame rfl⟩

instance (prototype : Option ObjectId) : D.Steady (newObjectWith prototype) :=
  ⟨keeps_allocate nofun (.of_not_array rfl)⟩

instance : D.Steady newObject := by
  unfold newObject
  infer_instance

instance (elements : Array Value) : D.Steady (newArray elements) := by
  unfold newArray
  have (prototype : Option ObjectId) : D.Steady (allocate (.new prototype (.array elements))) :=
    ⟨keeps_allocate nofun fun _ => .new prototype elements⟩
  infer_instance

instance (elements : List Value) : D.Steady (newArrayOf elements) :=
  inferInstanceAs (D.Steady (newArray elements.toArray))

instance : D.Steady newPromise := by
  unfold newPromise
  have (prototype : Option ObjectId) :
      D.Steady (allocate (.new prototype (.promise (.pending false [])))) :=
    ⟨keeps_allocate nofun (.of_not_array rfl)⟩
  infer_instance

instance (kind : ErrorKind) (message : String) : D.Steady (newError kind message) := by
  unfold newError
  refine .bind fun prototype => ⟨keeps_allocate (fun f hf => ?_) ?_⟩
  · split at hf
    · cases hf
    · rw [Object.callable?_insertHidden] at hf
      cases hf
  · have hblank : (Object.new prototype .error).Orderly := .of_not_array rfl
    split
    · exact hblank
    · exact hblank.rearrange (.property (.insertHidden "message" (.ofText message)))

instance (f : Fault) : D.Steady (newFault f) := by
  unfold newFault
  infer_instance

instance (f : Fault) : D.Steady (throwFault f : Action α) := by
  unfold throwFault
  infer_instance

end Steady

/-! ## Functions -/

/-- A function object, for what may be held and makes no check. -/
theorem steady_newFunction (body : Callable) (h : D.AllowsCallable body)
    (hcheck : body.assertion? = none) (name : String) (length : Nat) :
    D.Steady (newFunction body name length) := by
  unfold newFunction
  have (prototype : Option ObjectId) : D.Steady (allocate <|
      (Object.new prototype (.function body)).define "length" (.fixed (.ofNat length))
        |>.define "name" (.fixed (.ofText name))) := by
    -- Its length and its name do not change what the function runs.
    have hblank : (Object.new prototype (.function body)).Orderly := .of_not_array rfl
    refine ⟨keeps_allocate (fun f hf => ?_) <|
      (hblank.rearrange (.property (.define _ _))).rearrange (.property (.define _ _))⟩
    rw [Object.callable?_define, Object.callable?_define] at hf
    cases hf
    exact ⟨h, hcheck⟩
  refine .bind fun prototype => .bind fun id => ?_
  dsimp only
  split <;> infer_instance

/-- A native function other than a check. -/
theorem steady_newNative {f : Native} (h : D.AllowsCallable (.native f))
    (hcheck : Callable.assertion? (.native f) = none) : D.Steady (newNative f) := by
  have := steady_newFunction (D := D) _ h hcheck
  unfold newNative
  infer_instance

instance (f : Builtin) : D.Steady (newNative (.builtin f)) := steady_newNative trivial rfl

instance (promise : ObjectId) (fulfills : Bool) :
    D.Steady (newNative (.resolver promise fulfills)) :=
  steady_newNative trivial rfl

instance (callback : Value) (fulfills : Bool) :
    D.Steady (newNative (.afterwards callback fulfills)) :=
  steady_newNative trivial rfl

/-- A function of the program, whose code obeys the rule. -/
theorem steady_newClosure {node : FunctionNode} (h : D.AllowsFunction node) (scope : FrameId)
    (name : String) (home : Option ObjectId) : D.Steady (newClosure node scope name home) := by
  have := steady_newFunction (D := D) (.closure node scope home) h rfl
  unfold newClosure
  dsimp only
  split <;> infer_instance

end Discipline

end EcmaEval
