import EcmaEval.Proofs.Conduct.Body
import EcmaEval.Proofs.Placement.Readers
import EcmaEval.Session

/-!
# Functions that are bound before the run

The functions that stand in a list of statements are bound in the frame of the list before its first
statement is executed.  A function behind a label stands in no list: nothing binds it, and its
execution does nothing.

## Main definitions

* `FunctionNode.LastOfName`: the last function of its name in a list
* `Machine.Binds`: a frame binds a function to a closure over that frame
* `Machine.Hoists`: one machine comes out of binding what statements declare on another

## Main results

* `Action.hoists_hoist`: binding what a list declares binds its functions
* `Engine.executeBody_hoists`, `Engine.executeSwitch_hoists`: bodies and switches bind the functions
  of their lists first
* `Engine.executeLabeled_function`: a function behind labels is not executed
-/

namespace EcmaEval

open EcmaEval.Action Discipline

/-! ## What binding the declarations of a list does -/

/-- The name that the declaration of a function binds. -/
def FunctionNode.boundName (f : FunctionNode) : String := f.name.getD ""

/-- A function of a name stands in a list. -/
def DeclaresFunction (statements : List Statement) (name : String) : Prop :=
  ∃ f, .function f ∈ statements ∧ f.boundName = name

/-- The function stands in the list, and none of its name behind it. -/
def FunctionNode.LastOfName (f : FunctionNode) (statements : List Statement) : Prop :=
  ∃ front rest, statements = front ++ .function f :: rest ∧ ¬DeclaresFunction rest f.boundName

namespace Machine

/-- The frame binds the name of a function to a closure over the frame, for good. -/
def Binds (m : Machine) (scope : FrameId) (f : FunctionNode) : Prop :=
  ∃ id, id.index < m.heap.size ∧
    (m.frames.get scope).bindings.get? f.boundName = some ⟨.object id, false⟩ ∧
    (m.heap.get id).callable? = some (.closure f scope none)

/-- The second machine comes out of the first one when what statements declare is bound.  Of the
functions of one name the last one is.  All other names keep their bindings, and get one only if
`var` declares them. -/
structure Hoists (m : Machine) (scope : FrameId) (statements : List Statement) (m' : Machine) :
    Prop where
  others : ∃ heap frames, m' = { m with heap, frames }
  frames : m'.frames.size = m.frames.size
  size_le : m.heap.size ≤ m'.heap.size
  heap : ∀ id, id.index < m.heap.size → m'.heap.get id = m.heap.get id
  bound : ∀ f : FunctionNode, f.LastOfName statements → m'.Binds scope f
  kept : ∀ id name, (id = scope → ¬DeclaresFunction statements name) →
    (m'.frames.get id).bindings.get? name = (m.frames.get id).bindings.get? name ∨
      (m.frames.get id).bindings.get? name = none ∧ ∃ s ∈ statements, name ∈ s.variableNames

namespace Hoists

variable {m m' m'' : Machine} {scope : FrameId} {xs ys : List Statement}

theorem refl (m : Machine) (scope : FrameId) : m.Hoists scope [] m where
  others := ⟨m.heap, m.frames, rfl⟩
  frames := rfl
  size_le := Nat.le_refl _
  heap _ _ := rfl
  bound := by
    rintro f ⟨front, rest, h, -⟩
    simp at h
  kept _ _ _ := .inl rfl

theorem trans (h : m.Hoists scope xs m') (h' : m'.Hoists scope ys m'') :
    m.Hoists scope (xs ++ ys) m'' where
  others := by
    obtain ⟨heap, frames, rfl⟩ := h.others
    obtain ⟨heap', frames', rfl⟩ := h'.others
    exact ⟨heap', frames', rfl⟩
  frames := h'.frames.trans h.frames
  size_le := h.size_le.trans h'.size_le
  heap id hid := (h'.heap id (hid.trans_le h.size_le)).trans (h.heap id hid)
  bound := by
    rintro f ⟨front, rest, heq, hlast⟩
    rcases List.append_eq_append_iff.mp heq with ⟨as, rfl, rfl⟩ | ⟨as, rfl, hys⟩
    · exact h'.bound f ⟨as, rest, rfl, hlast⟩
    · cases as with
      | nil => exact h'.bound f ⟨[], rest, hys.symm, hlast⟩
      | cons a as =>
        -- The function stands in the first list, and the second one has none of its name.
        obtain ⟨rfl, rfl⟩ := List.cons.inj hys
        have hxs : ¬DeclaresFunction as f.boundName := fun ⟨g, hg, hname⟩ =>
          hlast ⟨g, List.mem_append_left _ hg, hname⟩
        have hys : ¬DeclaresFunction ys f.boundName := fun ⟨g, hg, hname⟩ =>
          hlast ⟨g, List.mem_append_right _ hg, hname⟩
        obtain ⟨id, hid, hbinding, hclosure⟩ := h.bound f ⟨front, as, rfl, hxs⟩
        refine ⟨id, hid.trans_le h'.size_le, ?_, (h'.heap id hid).symm ▸ hclosure⟩
        rcases h'.kept scope f.boundName fun _ => hys with hkept | ⟨hnone, -⟩
        · exact hkept.trans hbinding
        · rw [hbinding] at hnone
          cases hnone
  kept id name hname := by
    have hxs : id = scope → ¬DeclaresFunction xs name := fun hid ⟨g, hg, hg'⟩ =>
      hname hid ⟨g, List.mem_append_left _ hg, hg'⟩
    have hys : id = scope → ¬DeclaresFunction ys name := fun hid ⟨g, hg, hg'⟩ =>
      hname hid ⟨g, List.mem_append_right _ hg, hg'⟩
    rcases h.kept id name hxs with heq | ⟨hnone, s, hs, hmem⟩
    · rcases h'.kept id name hys with heq' | ⟨hnone, s, hs, hmem⟩
      · exact .inl (heq'.trans heq)
      · exact .inr ⟨heq ▸ hnone, s, List.mem_append_right _ hs, hmem⟩
    · exact .inr ⟨hnone, s, List.mem_append_left _ hs, hmem⟩

/-- A statement that is no function binds nothing in its frame. -/
theorem skip {s : Statement} (hs : s.isFunction = false) (h : m.Hoists scope xs m') :
    m.Hoists scope (s :: xs) m' := by
  have hskip : m.Hoists scope [s] m := by
    refine ⟨⟨m.heap, m.frames, rfl⟩, rfl, Nat.le_refl _, fun _ _ => rfl, ?_, fun _ _ _ => .inl rfl⟩
    rintro f ⟨front, rest, heq, -⟩
    obtain ⟨rfl, -⟩ | ⟨-, h⟩ := List.singleton_eq_append_iff.mp heq |>.imp id id
    all_goals simp_all [Statement.isFunction]
  exact hskip.trans h

end Hoists

end Machine

/-- Names that are missing are bound, and the others keep their bindings. -/
theorem Frame.get?_foldl_declareMissing (f : Frame) (names : List String) (name : String) :
    (names.foldl declareMissing f).bindings.get? name = f.bindings.get? name ∨
      f.bindings.get? name = none ∧ name ∈ names := by
  induction names generalizing f with
  | nil => exact .inl rfl
  | cons other names ih =>
    have hone : (f.declareMissing other).bindings.get? name = f.bindings.get? name ∨
        f.bindings.get? name = none ∧ name = other := by
      unfold declareMissing
      split
      · exact .inl rfl
      · next hmissing =>
        by_cases hname : name = other
        · subst hname
          rw [binds, Bindings.contains_eq] at hmissing
          exact .inr ⟨Option.not_isSome_iff_eq_none.mp hmissing, rfl⟩
        · exact .inl ((Bindings.get?_insert ..).trans (if_neg hname))
    rw [List.foldl_cons]
    rcases ih (f.declareMissing other) with heq | ⟨hnone, hmem⟩
    · rw [heq]
      rcases hone with hsame | ⟨hnone, hname⟩
      · exact .inl hsame
      · exact .inr ⟨hnone, hname ▸ .head _⟩
    · rcases hone with heq | ⟨hnone, -⟩
      · exact .inr ⟨heq ▸ hnone, .tail _ hmem⟩
      · exact .inr ⟨hnone, .tail _ hmem⟩

/-! ## Closures -/

namespace Action

/-- A new function is a new object.  The objects that were there stay as they are. -/
theorem newFunction_apply (body : Callable) (name : String) (length : Nat) (m : Machine) :
    ∃ heap : Heap, newFunction body name length m = .ok ⟨m.heap.size⟩ { m with heap } ∧
      m.heap.size < heap.size ∧ (heap.get ⟨m.heap.size⟩).callable? = some body ∧
      ∀ id, id.index < m.heap.size → heap.get id = m.heap.get id := by
  let o := (Object.new m.realm.functionPrototype (.function body)).define "length" (.fixed (.ofNat length))
    |>.define "name" (.fixed (.ofText name))
  let made := (m.heap.allocate o).2
  have hsize : made.size = m.heap.size + 1 := m.heap.size_allocate o
  have hself : (made.get ⟨m.heap.size⟩).callable? = some body := by
    rw [m.heap.get_allocate_self o, Object.callable?_define, Object.callable?_define]
    rfl
  have hothers (id : ObjectId) (hid : id.index < m.heap.size) : made.get id = m.heap.get id :=
    m.heap.get_allocate_of_lt o hid
  cases hneeds : needsPrototype body with
  | false =>
    refine ⟨made, ?_, by omega, hself, hothers⟩
    simp only [newFunction, hneeds]
    rfl
  | true =>
    -- The prototype of the instances is another new object.
    let withInstances := (made.allocate (.new (some m.realm.objectPrototype) .ordinary)).2
    let named := withInstances.modify ⟨made.size⟩
      (·.insertHidden "constructor" (.object ⟨m.heap.size⟩))
    have hnamed : named.size = m.heap.size + 2 := by
      simp [named, withInstances, hsize]
    refine ⟨named.modify ⟨m.heap.size⟩ (·.define "prototype" (.hidden (.object ⟨made.size⟩))), ?_,
      ?_, ?_, fun id hid => ?_⟩
    · simp only [newFunction, hneeds]
      rfl
    · rw [Heap.size_modify]
      omega
    · rw [named.get_modify_self (by dsimp only; omega), Object.callable?_define]
      rw [withInstances.get_modify_of_ne (by simp [hsize])]
      rw [made.get_allocate_of_lt _ (by simp [hsize]), hself]
    · have hne {i : Nat} (hi : m.heap.size ≤ i) : id ≠ ⟨i⟩ := by
        rintro rfl
        exact absurd hid (Nat.not_lt.mpr hi)
      rw [named.get_modify_of_ne (hne (Nat.le_refl _)),
        withInstances.get_modify_of_ne (hne (by omega))]
      rw [made.get_allocate_of_lt _ (by omega), hothers id hid]

theorem newClosure_apply {f : FunctionNode} (hf : f.isGenerator = false) (scope : FrameId)
    (name : String) (m : Machine) :
    ∃ heap : Heap, newClosure f scope name none m = .ok (.object ⟨m.heap.size⟩) { m with heap } ∧
      m.heap.size < heap.size ∧
      (heap.get ⟨m.heap.size⟩).callable? = some (.closure f scope none) ∧
      ∀ id, id.index < m.heap.size → heap.get id = m.heap.get id := by
  obtain ⟨heap, hnew, hheap⟩ :=
    newFunction_apply (.closure f scope none) name f.expectedArguments m
  refine ⟨heap, ?_, hheap⟩
  simp only [newClosure, hf, Bool.false_eq_true, if_false]
  rw [bind_apply, hnew]
  rfl

/-- A function is bound to a new closure. -/
theorem hoists_function {f : FunctionNode} (hf : f.isGenerator = false) {scope : FrameId}
    {m : Machine} (hscope : scope.index < m.frames.size) :
    ∃ m' : Machine, (do
        let v ← newClosure f scope f.boundName none
        modifyFrame scope (·.declareConstant f.boundName v)) m = .ok () m' ∧
      m.Hoists scope [.function f] m' := by
  obtain ⟨heap, hnew, hsize, hclosure, hheap⟩ := newClosure_apply hf scope f.boundName m
  refine ⟨{ m with
    heap
    frames := m.frames.modify scope (·.declareConstant f.boundName (.object ⟨m.heap.size⟩)) }, ?_, ?_⟩
  · rw [bind_apply, hnew]
    rfl
  have hself := m.frames.get_modify_self hscope
    (·.declareConstant f.boundName (.object ⟨m.heap.size⟩))
  refine ⟨⟨_, _, rfl⟩, m.frames.size_modify _ _, hsize.le, hheap, ?_, fun id name hname => .inl ?_⟩
  · rintro g ⟨front, rest, heq, -⟩
    obtain rfl : f = g := by
      cases front <;> simp_all
    refine ⟨⟨m.heap.size⟩, hsize, ?_, hclosure⟩
    rw [hself]
    exact (Bindings.get?_insert ..).trans (if_pos rfl)
  · by_cases hid : id = scope
    · subst hid
      have hne : name ≠ f.boundName := fun h => hname rfl ⟨f, .head _, h.symm⟩
      rw [hself]
      exact (Bindings.get?_insert ..).trans (if_neg hne)
    · exact congrArg (fun frame : Frame => frame.bindings.get? name)
        (m.frames.get_modify_of_ne hid _)

/-- The functions of a list are bound, unless one of them is a generator. -/
theorem hoists_hoistFunctions {scope : FrameId} {statements : List Statement}
    (hplain : ∀ f : FunctionNode, .function f ∈ statements → f.isGenerator = false) {m : Machine}
    (hscope : scope.index < m.frames.size) :
    ∃ m', hoistFunctions scope statements m = .ok () m' ∧ m.Hoists scope statements m' := by
  induction statements generalizing m with
  | nil => exact ⟨m, rfl, .refl m scope⟩
  | cons s rest ih =>
    have hrest : ∀ f : FunctionNode, .function f ∈ rest → f.isGenerator = false := fun f hf =>
      hplain f (.tail _ hf)
    cases s with
    | function f =>
      obtain ⟨m', hbind, hone⟩ := hoists_function (hplain f (.head _)) hscope
      obtain ⟨m'', hfunctions, hmany⟩ := ih hrest (hone.frames ▸ hscope)
      refine ⟨m'', ?_, hone.trans hmany⟩
      have hstep : hoistFunctions scope (.function f :: rest) = (do
          let v ← newClosure f scope f.boundName none
          modifyFrame scope (·.declareConstant f.boundName v)) >>= fun _ =>
            hoistFunctions scope rest :=
        (bind_assoc ..).symm
      rw [hstep, bind_apply, hbind]
      exact hfunctions
    | _ =>
      obtain ⟨m', hfunctions, hmany⟩ := ih hrest hscope
      exact ⟨m', hfunctions, hmany.skip rfl⟩

/-- A generator in the list breaks the run down. -/
theorem hoistFunctions_breaks {scope : FrameId} {statements : List Statement} {f : FunctionNode}
    (hmem : .function f ∈ statements) (hf : f.isGenerator = true) (m : Machine) :
    ∃ m', hoistFunctions scope statements m =
      .error (.broken (.unsupported "GeneratorFunction")) m' := by
  induction statements generalizing m with
  | nil => cases hmem
  | cons s rest ih =>
    cases s with
    | function g =>
      cases hg : g.isGenerator with
      | true =>
        refine ⟨m, ?_⟩
        simp [hoistFunctions, newClosure, hg, bind_apply, breakDown]
      | false =>
        have hrest : .function f ∈ rest := by
          rcases List.mem_cons.mp hmem with h | h
          · obtain rfl := Statement.function.inj h
            rw [hf] at hg
            cases hg
          · exact h
        obtain ⟨heap, hnew, -⟩ := newClosure_apply hg scope g.boundName m
        obtain ⟨m', hbreak⟩ := ih hrest { m with
          heap
          frames := m.frames.modify scope (·.declareConstant g.boundName (.object ⟨m.heap.size⟩)) }
        refine ⟨m', ?_⟩
        have hstep : hoistFunctions scope (.function g :: rest) = (do
            let v ← newClosure g scope g.boundName none
            modifyFrame scope (·.declareConstant g.boundName v)
            hoistFunctions scope rest) := rfl
        rw [hstep, bind_apply, hnew]
        exact hbreak
    | _ => exact ih (by simpa using hmem) m

theorem mem_variableNamesOfList {statements : List Statement} {name : String} :
    name ∈ variableNamesOfList statements ↔ ∃ s ∈ statements, name ∈ s.variableNames := by
  induction statements with
  | nil => simp [variableNamesOfList]
  | cons s rest ih => simp [variableNamesOfList, ih]

/-- Binding what a list declares binds its functions, unless one of them is a generator. -/
theorem hoists_hoist {scope : FrameId} {statements : List Statement}
    (hplain : ∀ f : FunctionNode, .function f ∈ statements → f.isGenerator = false) {m : Machine}
    (hscope : scope.index < m.frames.size) :
    ∃ m', hoist scope statements m = .ok () m' ∧ m.Hoists scope statements m' := by
  unfold hoist
  split
  · exact hoists_hoistFunctions hplain hscope
  -- The names that `var` declares come first.
  let names := variableNamesOfList statements
  let target := m.frames.variableScope scope
  let frames := m.frames.modify target fun f => names.foldl Frame.declareMissing f
  have hkept (id : FrameId) (name : String) :
      (frames.get id).bindings.get? name = (m.frames.get id).bindings.get? name ∨
        (m.frames.get id).bindings.get? name = none ∧ ∃ s ∈ statements, name ∈ s.variableNames := by
    rcases m.frames.get_modify target (fun f => names.foldl Frame.declareMissing f) id with h | h
    · exact .inl (congrArg (fun f : Frame => f.bindings.get? name) h)
    · rw [show frames.get id = _ from h]
      exact (Frame.get?_foldl_declareMissing _ names name).imp_right fun ⟨hnone, hname⟩ =>
        ⟨hnone, mem_variableNamesOfList.mp hname⟩
  obtain ⟨m', hfunctions, hmany⟩ := hoists_hoistFunctions (m := { m with frames }) hplain
    (by simpa [frames] using hscope)
  obtain ⟨heap, frames', rfl⟩ := hmany.others
  refine ⟨_, hfunctions, ⟨heap, frames', rfl⟩, ?_, hmany.size_le, hmany.heap, hmany.bound, ?_⟩
  · exact hmany.frames.trans (m.frames.size_modify _ _)
  · intro id name hname
    rcases hmany.kept id name hname with heq | ⟨hnone, hmem⟩
    · rw [heq]
      exact hkept id name
    · rcases hkept id name with heq | hmissing
      · exact .inr ⟨heq ▸ hnone, hmem⟩
      · exact .inr hmissing

/-- The functions of several lists that share a frame are bound, unless one of them is a
generator. -/
theorem hoists_forM {scope : FrameId} {cases : List SwitchCase}
    (hplain : ∀ f : FunctionNode, .function f ∈ cases.flatMap SwitchCase.body →
      f.isGenerator = false) {m : Machine} (hscope : scope.index < m.frames.size) :
    ∃ m', cases.forM (fun c => hoist scope c.body) m = .ok () m' ∧
      m.Hoists scope (cases.flatMap SwitchCase.body) m' := by
  induction cases generalizing m with
  | nil => exact ⟨m, rfl, .refl m scope⟩
  | cons c rest ih =>
    rw [List.flatMap_cons] at hplain ⊢
    obtain ⟨m', hfirst, hone⟩ := hoists_hoist
      (fun f hf => hplain f (List.mem_append_left _ hf)) hscope
    obtain ⟨m'', hothers, hmany⟩ := ih (fun f hf => hplain f (List.mem_append_right _ hf))
      (hone.frames ▸ hscope)
    refine ⟨m'', ?_, hone.trans hmany⟩
    change (hoist scope c.body >>= fun _ => rest.forM fun c => hoist scope c.body) m = _
    rw [bind_apply, hfirst]
    exact hothers

/-- A generator in a list breaks the run down before any of its statements. -/
theorem hoist_breaks {scope : FrameId} {statements : List Statement} {f : FunctionNode}
    (hmem : .function f ∈ statements) (hf : f.isGenerator = true) (m : Machine) :
    ∃ m', hoist scope statements m = .error (.broken (.unsupported "GeneratorFunction")) m' := by
  unfold hoist
  split
  · exact hoistFunctions_breaks hmem hf m
  · exact hoistFunctions_breaks hmem hf { m with
      frames := m.frames.modify (m.frames.variableScope scope) fun f =>
        (variableNamesOfList statements).foldl Frame.declareMissing f }

end Action

/-! ## Lists that are executed -/

/-- The machine with a new frame for a block. -/
def Machine.withBlock (m : Machine) (scope : FrameId) : Machine :=
  { m with frames := (m.frames.add { parent := some scope, kind := .block }).2 }

theorem Machine.index_lt_withBlock (m : Machine) (scope : FrameId) :
    (⟨m.frames.size⟩ : FrameId).index < (m.withBlock scope).frames.size := by
  simp [withBlock]

theorem Action.addBlock_apply (scope : FrameId) (m : Machine) :
    addBlock scope m = .ok ⟨m.frames.size⟩ (m.withBlock scope) := rfl

namespace Engine

variable (engine : Engine)

/-- A body binds the functions of its list, and executes its statements then. -/
theorem executeBody_hoists {scope : FrameId} {statements : List Statement}
    (hplain : ∀ f : FunctionNode, .function f ∈ statements → f.isGenerator = false) {m : Machine}
    (hscope : scope.index < m.frames.size) :
    ∃ m', m.Hoists scope statements m' ∧
      engine.executeBody scope statements m = engine.executeList scope statements m' := by
  obtain ⟨m', hhoist, hhoists⟩ := hoists_hoist hplain hscope
  refine ⟨m', hhoists, ?_⟩
  unfold executeBody
  rw [bind_apply, hhoist]

/-- The run of a switch from the choice of its first case on. -/
def selectCases (scope : FrameId) (value : Value) (cases : List SwitchCase) : Action Value := do
  let selected ← engine.matchingCases scope value cases
  let result ← engine.executeCases scope .undefined
    (selected.getD (cases.dropWhile fun c => c.test.isSome))
  absorb Signal.isBreak
  return result

/-- A switch binds the functions of all its cases in its own frame, before it looks for the first
case to execute. -/
theorem executeSwitch_hoists {scope : FrameId} {discriminant : Expression}
    {cases : List SwitchCase}
    (hplain : ∀ f : FunctionNode, .function f ∈ cases.flatMap SwitchCase.body →
      f.isGenerator = false) {m m₁ : Machine} {value : Value}
    (hvalue : engine.evaluate scope discriminant m = .ok value m₁) :
    ∃ m', (m₁.withBlock scope).Hoists ⟨m₁.frames.size⟩ (cases.flatMap SwitchCase.body) m' ∧
      engine.executeSwitch scope discriminant cases m =
        engine.selectCases ⟨m₁.frames.size⟩ value cases m' := by
  obtain ⟨m', hhoist, hhoists⟩ := hoists_forM hplain (m₁.index_lt_withBlock scope)
  refine ⟨m', hhoists, ?_⟩
  unfold executeSwitch
  rw [bind_apply, hvalue]
  dsimp only
  rw [bind_apply, addBlock_apply]
  dsimp only
  rw [bind_apply, hhoist]
  rfl

/-- A generator in the list of a body breaks the run down before any of its statements. -/
theorem executeBody_breaks {scope : FrameId} {statements : List Statement} {f : FunctionNode}
    (hmem : .function f ∈ statements) (hf : f.isGenerator = true) (m : Machine) :
    ∃ m', engine.executeBody scope statements m =
      .error (.broken (.unsupported "GeneratorFunction")) m' := by
  obtain ⟨m', hbreak⟩ := @hoist_breaks scope statements f hmem hf m
  refine ⟨m', ?_⟩
  unfold executeBody
  rw [bind_apply, hbreak]

/-- A function behind labels is not executed. -/
theorem executeLabeled_function (fuel : Nat) (scope : FrameId) (labels more : List String)
    (f : FunctionNode) {m : Machine} (hsignal : m.signal = none) :
    (ofFuel (fuel + 1)).executeLabeled scope labels
        (more.foldr Statement.labeled (.function f)) m = .ok .undefined m := by
  induction more generalizing labels with
  | nil =>
    change (do
      let value ← (ofFuel (fuel + 1)).execute scope (.function f)
      absorb (Signal.breaksTo labels)
      return value) m = _
    rw [bind_apply]
    change EStateM.Result.ok Value.undefined { m with signal := m.signal.filter _ } = _
    rw [hsignal]
    cases m
    cases hsignal
    rfl
  | cons label more ih => exact ih (labels ++ [label])

end Engine

/-- **What becomes of declarations of functions.**  In whatever is read as a program, they stand in
lists of statements or behind labels.  Before the first statement of a list is executed, the frame of
the list binds its functions to closures, of those of one name the last; only a generator in the list
breaks the run down before.  All cases of a switch share a frame, and bind their functions before one
of them is chosen.  A function behind labels is neither bound nor executed. -/
theorem Program.listed_functions_hoisted {options : ParseOptions} {source : String} {p : Program}
    (h : Program.ofText options source = .ok p) :
    (∀ s ∈ p.body, ∀ awaits t,
      (Node.statement s).Holds options.topLevelAwait awaits (.statement t) →
        ∀ u ∈ t.inner, u.isFunction → t.isLabeled) ∧
    (∀ (engine : Engine) (scope : FrameId) (statements : List Statement) (m : Machine),
      scope.index < m.frames.size →
        (∃ m', m.Hoists scope statements m' ∧
          engine.executeBody scope statements m = engine.executeList scope statements m') ∨
        ((∃ f : FunctionNode, .function f ∈ statements ∧ f.isGenerator) ∧
          ∃ m', engine.executeBody scope statements m =
            .error (.broken (.unsupported "GeneratorFunction")) m')) ∧
    (∀ (engine : Engine) (scope : FrameId) (discriminant : Expression) (cases : List SwitchCase)
      (m m₁ : Machine) (value : Value),
      (∀ f : FunctionNode, .function f ∈ cases.flatMap SwitchCase.body → f.isGenerator = false) →
      engine.evaluate scope discriminant m = .ok value m₁ →
        ∃ m', (m₁.withBlock scope).Hoists ⟨m₁.frames.size⟩ (cases.flatMap SwitchCase.body) m' ∧
          engine.executeSwitch scope discriminant cases m =
            engine.selectCases ⟨m₁.frames.size⟩ value cases m') ∧
    ∀ (fuel : Nat) (scope : FrameId) (label : String) (more : List String) (f : FunctionNode)
      (m : Machine), m.signal = none →
        (Engine.ofFuel (fuel + 1)).executeStatement scope
          (.labeled label (more.foldr Statement.labeled (.function f))) m = .ok .undefined m := by
  refine ⟨fun s hs awaits t hholds => ?_, fun engine scope statements m hscope => ?_,
    fun engine scope discriminant cases m m₁ value hplain => engine.executeSwitch_hoists hplain,
    fun fuel scope label more f m => Engine.executeLabeled_function fuel scope [] (label :: more) f⟩
  · have hfitting := Fitting.list_iff.mp (Program.fitting_of_ofText h) s hs
    exact Fitting.statement_iff.mp hfitting _ _ hholds
  · by_cases hgenerator : ∃ f : FunctionNode, .function f ∈ statements ∧ f.isGenerator
    · obtain ⟨f, hmem, hf⟩ := hgenerator
      exact .inr ⟨⟨f, hmem, hf⟩, engine.executeBody_breaks hmem hf m⟩
    · refine .inl (engine.executeBody_hoists (fun f hmem => ?_) hscope)
      exact Bool.eq_false_iff.mpr fun hf => hgenerator ⟨f, hmem, hf⟩

/-- Whether a program is a function behind a label, and then an expression. -/
def Program.isLabeledFunction : Program → Bool
  | ⟨[.labeled "a" (.function ⟨some "f", _, _, _, _, false⟩), .expression _]⟩ => true
  | _ => false

theorem Program.exists_of_isLabeledFunction {p : Program} (h : p.isLabeledFunction = true) :
    ∃ f e, p.body = [.labeled "a" (.function f), .expression e] := by
  unfold isLabeledFunction at h
  split at h
  · exact ⟨_, _, rfl⟩
  · cases h

open Machine in
/-- A function behind a label is not bound when the first statement of its list is executed. -/
theorem Program.labeled_function_unbound : ∃ p m',
    Program.ofText {} "a: function f() \x7b return 1 \x7d f()" = .ok p ∧
      Engine.standard.executeBody initial.realm.programFrame p.body initial =
        Engine.standard.executeList initial.realm.programFrame p.body m' ∧
      (m'.frames.get initial.realm.programFrame).bindings.get? "f" = none := by
  obtain ⟨p, hread, hp⟩ : ∃ p, Program.ofText {} "a: function f() \x7b return 1 \x7d f()" = .ok p ∧
      p.isLabeledFunction = true :=
    exists_of_any (by decide +kernel)
  obtain ⟨f, e, hbody⟩ := Program.exists_of_isLabeledFunction hp
  have hscope : initial.realm.programFrame.index < initial.frames.size := by
    decide +kernel
  have hunbound : (initial.frames.get initial.realm.programFrame).bindings.get? "f" = none :=
    Option.isNone_iff_eq_none.mp (by decide +kernel)
  -- Neither statement is a function or a declaration of variables.
  have hplain (g : FunctionNode) : .function g ∉ p.body := by simp [hbody]
  have hnames (s : Statement) (hs : s ∈ p.body) : s.variableNames = [] := by
    obtain rfl | rfl : s = _ ∨ s = _ := by simpa [hbody] using hs
    · simp [Statement.variableNames]
    · simp [Statement.variableNames]
  rcases (Program.listed_functions_hoisted hread).2.1 Engine.standard _ p.body initial hscope with
    ⟨m', hhoists, hrun⟩ | ⟨⟨g, hmem, -⟩, -⟩
  · refine ⟨p, m', hread, hrun, ?_⟩
    have hkept := hhoists.kept initial.realm.programFrame "f" fun _ h =>
      absurd h.choose_spec.1 (hplain _)
    rcases hkept with heq | ⟨-, s, hmem, hname⟩
    · exact heq.trans hunbound
    · simp [hnames s hmem] at hname
  · exact absurd hmem (hplain g)

end EcmaEval
