import Mathlib.Data.List.Forall2
import Mathlib.Data.Finmap
import EcmaEval.Eval.Reference
import EcmaEval.Proofs.Conduct.Scope
import EcmaEval.Proofs.Conduct.Store

/-!
# Lists with related elements, and frames as finite maps

The elements of two arrays are compared one by one.  These are the facts about such lists that need
to know which elements they are about.

The two mappings of a frame are one finite map from names to bindings, since they have no name in
common.  Names are then a matter of lexical lookup: the way from a frame outwards is a list of
frames, and the first one on it that has a name owns it.

The searches of the frames are each written as a walk with a bound on the number of steps.  Frames
that are made one by one stand in older ones, so the bound is never reached, and each walk is a
search in the list.

## Main definitions

* `Bindings.names`: the finite map of the two mappings
* `Frames.Made`: frames after a sequence of operations
* `Frames.Outward`: the way from a frame outwards
* `Frames.owner?`: the first frame on a way that has a name
* `Frames.Rebinds`: one binding of one frame is written
* `Frames.Lexical`: what every operation does at a frame

## Main results

* `Frames.made_lexical`: frames behave as finite maps with lexical lookup
* `Engine.assignName_eq`: the evaluator assigns names as frames do
-/

namespace EcmaEval

open List (Forall₂)

variable {α β γ : Type} {R S : α → β → Prop} {xs : List α} {ys zs : List β}

theorem forall₂_imp_of_mem (himp : ∀ x ∈ xs, ∀ y ∈ ys, R x y → S x y) (hR : Forall₂ R xs ys) :
    Forall₂ S xs ys := by
  induction hR with
  | nil => exact .nil
  | cons hxy _ ih =>
    refine .cons (himp _ List.mem_cons_self _ List.mem_cons_self hxy) (ih fun x hx y hy => ?_)
    exact himp x (List.mem_cons_of_mem _ hx) y (List.mem_cons_of_mem _ hy)

theorem forall₂_trans {S : β → γ → Prop} {zs : List γ} (hR : Forall₂ R xs ys)
    (hS : Forall₂ S ys zs) : Forall₂ (fun x z => ∃ y, R x y ∧ S y z) xs zs := by
  induction hR generalizing zs with
  | nil => cases hS; exact .nil
  | cons hxy _ ih =>
    cases hS with
    | cons hyz hrest => exact .cons ⟨_, hxy, hyz⟩ (ih hrest)

theorem eq_of_forall₂ (hy : Forall₂ R xs ys) (hz : Forall₂ R xs zs)
    (hunique : ∀ y ∈ ys, ∀ x z, R x y → R x z → y = z) : ys = zs := by
  induction hy generalizing zs with
  | nil => cases hz; rfl
  | cons hxy hrest ih =>
    cases hz with
    | cons hxz hrest' =>
      rw [hunique _ List.mem_cons_self _ _ hxy hxz,
        ih hrest' fun y hy => hunique y (List.mem_cons_of_mem _ hy)]

theorem map_eq_map_of_forall₂ {f : α → γ} {g : β → γ} (h : Forall₂ R xs ys)
    (hfg : ∀ y ∈ ys, ∀ x, R x y → f x = g y) : xs.map f = ys.map g := by
  induction h with
  | nil => rfl
  | cons hxy hrest ih =>
    rw [List.map_cons, List.map_cons, hfg _ List.mem_cons_self _ hxy,
      ih fun y hy => hfg y (List.mem_cons_of_mem _ hy)]

theorem exists_left_of_forall₂ {y : β} (h : Forall₂ R xs ys) (hy : y ∈ ys) : ∃ x ∈ xs, R x y := by
  induction h with
  | nil => cases hy
  | @cons x z xs ys hxz hrest ih =>
    rcases List.mem_cons.mp hy with rfl | hy
    · exact ⟨x, List.mem_cons_self, hxz⟩
    · obtain ⟨x', hx', hR⟩ := ih hy
      exact ⟨x', List.mem_cons_of_mem _ hx', hR⟩

end EcmaEval

/-! # Frames as finite maps -/

namespace EcmaEval

/-! ## The finite map of a frame -/

/-- The finite map of a mapping, with what `wrap` makes of its values. -/
def NameMap.toFinmap {α β : Type} (m : NameMap α) (wrap : α → β) : Finmap fun _ : String => β :=
  (m.entries.map fun entry => (⟨entry.1, wrap entry.2⟩ : Sigma fun _ : String => β)).toFinmap

theorem NameMap.lookup_toFinmap {α β : Type} (m : NameMap α) (wrap : α → β) (name : String) :
    (m.toFinmap wrap).lookup name = (m.get? name).map wrap := by
  rw [toFinmap, Finmap.dlookup_list_toFinmap, get?]
  induction m.entries with
  | nil => rfl
  | cons entry rest ih =>
    rw [List.map_cons, lookupEntry]
    split
    · next h => rw [← h, List.dlookup_cons_eq, Option.map_some]
    · next h => rw [List.dlookup_cons_ne _ _ (Ne.symm h), ih]

namespace Bindings

/-- What a frame binds: whether each name may be assigned, and its value. -/
def names (b : Bindings) : Finmap fun _ : String => Binding :=
  b.constants.toFinmap (⟨·, false⟩) ∪ b.mutables.toFinmap (⟨·, true⟩)

@[simp] theorem lookup_names (b : Bindings) (name : String) :
    b.names.lookup name = b.get? name := by
  have hconstant := b.constants.lookup_toFinmap (β := Binding) (⟨·, false⟩) name
  have hvariable := b.mutables.lookup_toFinmap (β := Binding) (⟨·, true⟩) name
  rw [names, get?]
  cases h : b.constants.get? name with
  | some value =>
    rw [h] at hconstant
    rw [Finmap.lookup_union_left (Finmap.mem_of_lookup_eq_some hconstant), hconstant]
    rfl
  | none =>
    rw [h] at hconstant
    rw [Finmap.lookup_union_right (Finmap.lookup_eq_none.mp hconstant), hvariable]

theorem names_empty : (∅ : Bindings).names = ∅ :=
  Finmap.ext_lookup fun name => by
    rw [lookup_names, Finmap.lookup_empty]
    rfl

/-- A declaration moves a name between the mappings, and writes one entry of the finite map. -/
theorem names_insert (b : Bindings) (name : String) (x : Binding) :
    (b.insert name x).names = b.names.insert name x :=
  Finmap.ext_lookup fun other => by
    rw [lookup_names, get?_insert]
    split
    · next h => rw [h, Finmap.lookup_insert]
    · next h => rw [Finmap.lookup_insert_of_ne _ h, lookup_names]

end Bindings

namespace Frames

/-- Frames that were made by adding them one by one, by declaring names and by assigning them. -/
inductive Made : Frames → Prop
  | empty : Made ⟨#[]⟩
  | new {fs : Frames} (parent : Option FrameId) (kind : FrameKind)
      (hparent : ∀ outer, parent = some outer → outer.index < fs.size) :
      Made fs → Made (fs.add { parent, kind }).2
  | declareVariable {fs : Frames} (id : FrameId) (name : String) (value : Value) :
      Made fs → Made (fs.modify id (·.declareVariable name value))
  | declareConstant {fs : Frames} (id : FrameId) (name : String) (value : Value) :
      Made fs → Made (fs.modify id (·.declareConstant name value))
  | assign {fs fs' : Frames} (id : FrameId) (name : String) (value : Value)
      (hassign : fs.assign id name value = .ok fs') : Made fs → Made fs'

/-- One binding of one frame is written.  All other frames stay, and of that one all else. -/
structure Rebinds (fs : Frames) (id : FrameId) (name : String) (x : Binding) (fs' : Frames) :
    Prop where
  size : fs'.size = fs.size
  names : (fs'.get id).bindings.names = (fs.get id).bindings.names.insert name x
  rest : fs'.get id = { fs.get id with bindings := (fs'.get id).bindings }
  others : ∀ other, other ≠ id → fs'.get other = fs.get other

/-- The way from a frame outwards is a list of frames, up to one that stands in no other. -/
inductive Outward (fs : Frames) : FrameId → List FrameId → Prop
  | root {id : FrameId} (hparent : (fs.get id).parent = none) : Outward fs id [id]
  | inside {id outer : FrameId} {way : List FrameId} (hparent : (fs.get id).parent = some outer) :
      Outward fs outer way → Outward fs id (id :: way)

/-- The first frame on a way that has a name, and the binding that it has. -/
def owner? (fs : Frames) (way : List FrameId) (name : String) : Option (FrameId × Binding) :=
  way.findSome? fun id => ((fs.get id).bindings.names.lookup name).map (id, ·)

/-- What every operation does at a frame, when `way` leads from it outwards. -/
structure Lexical (fs : Frames) (id : FrameId) (way : List FrameId) : Prop where
  outward : fs.Outward id way
  find : ∀ p, fs.find? id p = way.find? fun a => p (fs.get a)
  variableScope : fs.variableScope id =
    (way.find? fun a => (fs.get a).kind ≠ .block).getD id
  lookup : ∀ name, fs.lookup? id name = (fs.owner? way name).map fun owned => owned.2.value
  variableDeclared : ∀ name value,
    fs.Rebinds id name ⟨value, true⟩ (fs.modify id (·.declareVariable name value))
  constantDeclared : ∀ name value,
    fs.Rebinds id name ⟨value, false⟩ (fs.modify id (·.declareConstant name value))
  assigned : ∀ name owner old, fs.owner? way name = some (owner, ⟨old, true⟩) →
    ∀ value, ∃ fs', fs.assign id name value = .ok fs' ∧ fs.Rebinds owner name ⟨value, true⟩ fs'
  constant : ∀ name owner old, fs.owner? way name = some (owner, ⟨old, false⟩) →
    ∀ value, fs.assign id name value = .error .constant
  undeclared : ∀ name, fs.owner? way name = none →
    ∀ value, fs.assign id name value = .error .undeclared

variable {fs fs' : Frames} {id owner : FrameId} {way : List FrameId} {name : String}

/-! ## Frames that were made stand in older ones -/

/-- A change of what a frame binds leaves it where it stands. -/
theorem parent_modify (fs : Frames) (id : FrameId) (change : Frame → Frame)
    (hchange : ∀ f, (change f).parent = f.parent) (id' : FrameId) :
    ((fs.modify id change).get id').parent = (fs.get id').parent := by
  rcases fs.get_modify id change id' with heq | heq <;> rw [heq]
  exact hchange _

/-- An assignment writes to the frame that is its target. -/
theorem of_assign {value : Value} (h : fs.assign id name value = .ok fs') :
    ∃ owner, fs.assignmentTarget id name = .ok owner ∧
      fs' = fs.modify owner (·.declareVariable name value) := by
  rw [Frames.assign] at h
  cases htarget : fs.assignmentTarget id name with
  | error failure =>
    rw [htarget] at h
    cases h
  | ok owner =>
    rw [htarget] at h
    cases h
    exact ⟨owner, rfl, rfl⟩

/-- **A step leaves every frame inside an older one.** -/
theorem Made.outward (h : fs.Made) {id outer : FrameId}
    (hparent : (fs.get id).parent = some outer) : outer.index < id.index := by
  induction h generalizing id outer with
  | empty => cases hparent
  | new parent kind hold _ ih =>
    rw [get_add] at hparent
    split at hparent
    · next hid => exact hid ▸ hold outer hparent
    · exact ih hparent
  | declareVariable id' name value _ ih =>
    rw [parent_modify _ id' (·.declareVariable name value) fun _ => rfl] at hparent
    exact ih hparent
  | declareConstant id' name value _ ih =>
    rw [parent_modify _ id' (·.declareConstant name value) fun _ => rfl] at hparent
    exact ih hparent
  | assign id' name value hassign _ ih =>
    obtain ⟨owner, -, rfl⟩ := of_assign hassign
    rw [parent_modify _ owner (·.declareVariable name value) fun _ => rfl] at hparent
    exact ih hparent

/-- The way outwards ends, and is no longer than the frame is old. -/
theorem Made.exists_way (h : fs.Made) (id : FrameId) :
    ∃ way, fs.Outward id way ∧ way.length ≤ id.index + 1 := by
  obtain ⟨i⟩ := id
  induction i using Nat.strong_induction_on with
  | _ i ih =>
    cases hparent : (fs.get ⟨i⟩).parent with
    | none => exact ⟨_, .root hparent, Nat.succ_le_succ (Nat.zero_le _)⟩
    | some outer =>
      have hlt : outer.index < i := h.outward hparent
      obtain ⟨way, hway, hlength⟩ := ih outer.index hlt
      exact ⟨_, .inside hparent hway, Nat.succ_le_succ (hlength.trans hlt)⟩

/-! ## Walks along the way -/

theorem owner?_cons (fs : Frames) (id : FrameId) (way : List FrameId) (name : String) :
    fs.owner? (id :: way) name =
      match (fs.get id).bindings.get? name with
      | some x => some (id, x)
      | none => fs.owner? way name := by
  rw [owner?, List.findSome?_cons, Bindings.lookup_names]
  cases (fs.get id).bindings.get? name <;> rfl

namespace Outward

theorem findWithin (h : fs.Outward id way) (p : Frame → Bool) {fuel : Nat}
    (hfuel : way.length ≤ fuel) :
    fs.findWithin p fuel id = way.find? fun a => p (fs.get a) := by
  induction h generalizing fuel with
  | @root id hparent =>
    obtain _ | fuel := fuel
    · cases hfuel
    simp only [Frames.findWithin, hparent, List.find?_cons, List.find?_nil]
    cases p (fs.get id) <;> rfl
  | @inside id outer way hparent _ ih =>
    obtain _ | fuel := fuel
    · cases hfuel
    simp only [Frames.findWithin, hparent, List.find?_cons, ih (Nat.le_of_succ_le_succ hfuel)]
    cases p (fs.get id) <;> rfl

theorem lookupWithin (h : fs.Outward id way) (name : String) {fuel : Nat}
    (hfuel : way.length ≤ fuel) :
    fs.lookupWithin name fuel id = (fs.owner? way name).map Prod.snd := by
  induction h generalizing fuel with
  | @root id hparent =>
    obtain _ | fuel := fuel
    · cases hfuel
    rw [owner?_cons, Frames.lookupWithin, hparent]
    cases (fs.get id).bindings.get? name <;> rfl
  | @inside id outer way hparent _ ih =>
    obtain _ | fuel := fuel
    · cases hfuel
    rw [owner?_cons, Frames.lookupWithin, hparent]
    cases (fs.get id).bindings.get? name with
    | some x => rfl
    | none => exact ih (Nat.le_of_succ_le_succ hfuel)

/-- The walk of an assignment asks the two mappings one after the other.  It stops where the
lookup finds the name. -/
theorem assignmentTargetWithin (h : fs.Outward id way) (name : String) {fuel : Nat}
    (hfuel : way.length ≤ fuel) :
    fs.assignmentTargetWithin name fuel id =
      match fs.owner? way name with
      | some (owner, x) => if x.assignable then .ok owner else .error .constant
      | none => .error .undeclared := by
  induction h generalizing fuel with
  | @root id hparent =>
    obtain _ | fuel := fuel
    · cases hfuel
    rw [owner?_cons, Frames.assignmentTargetWithin, hparent, NameMap.contains, NameMap.contains,
      Bindings.get?]
    cases (fs.get id).bindings.constants.get? name <;>
      cases (fs.get id).bindings.mutables.get? name <;> rfl
  | @inside id outer way hparent _ ih =>
    obtain _ | fuel := fuel
    · cases hfuel
    have hwalk := ih (Nat.le_of_succ_le_succ hfuel)
    rw [owner?_cons, Frames.assignmentTargetWithin, hparent, NameMap.contains, NameMap.contains,
      Bindings.get?]
    cases (fs.get id).bindings.constants.get? name <;>
      cases (fs.get id).bindings.mutables.get? name
    case none.none => exact hwalk
    all_goals rfl

end Outward

/-- What owns a name is a frame on the way. -/
theorem mem_of_owner? {x : Binding} (h : fs.owner? way name = some (owner, x)) : owner ∈ way := by
  obtain ⟨id, hmem, hsome⟩ := List.exists_of_findSome?_eq_some h
  obtain ⟨y, -, heq⟩ := Option.map_eq_some_iff.mp hsome
  cases heq
  exact hmem

/-- The frames on the way outwards are not younger than the one where it begins. -/
theorem Made.index_le_of_mem (h : fs.Made) (hway : fs.Outward id way) {a : FrameId}
    (ha : a ∈ way) : a.index ≤ id.index := by
  induction hway with
  | root _ => rw [List.mem_singleton.mp ha]
  | inside hparent _ ih =>
    rcases List.mem_cons.mp ha with rfl | ha
    · exact Nat.le_refl _
    · exact (ih ha).trans (h.outward hparent).le

/-! ## Declarations and assignments -/

/-- A change of the bindings of one frame by one name. -/
theorem rebinds_modify (hid : id.index < fs.size) {change : Frame → Frame} {x : Binding}
    (hchange : change (fs.get id) =
      { fs.get id with bindings := (fs.get id).bindings.insert name x }) :
    fs.Rebinds id name x (fs.modify id change) := by
  have hself : (fs.modify id change).get id =
      { fs.get id with bindings := (fs.get id).bindings.insert name x } :=
    (fs.get_modify_self hid change).trans hchange
  refine ⟨fs.size_modify id change, ?_, ?_, fun other hne => fs.get_modify_of_ne hne change⟩
  · rw [hself, Bindings.names_insert]
  · rw [hself]

/-- Names are found and written at their owner, whatever frame and name it is. -/
theorem Made.exists_lexical (h : fs.Made) (hid : id.index < fs.size) :
    ∃ way, fs.Lexical id way := by
  obtain ⟨way, hway, hlength⟩ := h.exists_way id
  have hfuel : way.length ≤ fs.size := hlength.trans hid
  have hfind (p : Frame → Bool) : fs.find? id p = way.find? fun a => p (fs.get a) :=
    hway.findWithin p hfuel
  have htarget (name : String) := hway.assignmentTargetWithin name hfuel
  refine ⟨way, hway, hfind, ?_, fun name => ?_, fun name value => rebinds_modify hid rfl,
    fun name value => rebinds_modify hid rfl, fun name owner old howner value => ?_,
    fun name owner old howner value => ?_, fun name howner value => ?_⟩
  · rw [variableScope, hfind]
  · rw [lookup?, hway.lookupWithin name hfuel, Option.map_map]
    rfl
  all_goals
    have htarget := htarget name
    rw [howner] at htarget
    rw [Frames.assign, assignmentTarget, htarget]
  · have hold := (h.index_le_of_mem hway (mem_of_owner? howner)).trans_lt hid
    exact ⟨_, rfl, rebinds_modify hold rfl⟩
  · rfl
  · rfl

end Frames

/-! ## The evaluator -/

open EcmaEval.Action in
/-- An assignment of a program is one of the frames.  Where it fails, the program gets an error
object, and the frames stay. -/
theorem Engine.assignName_eq (m : Machine) (scope : FrameId) (name : String) (value : Value) :
    assignName scope name value m =
      match m.frames.assign scope name value with
      | .ok frames => .ok () { m with frames }
      | .error .constant =>
        .error (.thrown (.object ⟨m.heap.size⟩)) (m.afterFault .constantAssigned)
      | .error .undeclared =>
        .error (.thrown (.object ⟨m.heap.size⟩)) (m.afterFault (.notDeclared name)) := by
  rw [assignName, readFrames_bind, Frames.assign]
  cases m.frames.assignmentTarget scope name with
  | error failure => cases failure <;> rfl
  | ok owner => rfl

namespace Frames

variable {fs : Frames}

/-- **Frames are finite maps with lexical lookup.**  No name is in both mappings of a frame.  A new
frame has no names and leaves the others alone.  At each frame, the way outwards decides for every
operation which frame owns a name, and what is written is one binding of one frame. -/
theorem made_lexical (h : fs.Made) :
    (∀ id name, ¬((fs.get id).bindings.mutables.contains name = true ∧
      (fs.get id).bindings.constants.contains name = true)) ∧
    (∀ parent kind,
      ((fs.add { parent, kind }).2.get (fs.add { parent, kind }).1).bindings.names = ∅ ∧
      ∀ id, id.index < fs.size → (fs.add { parent, kind }).2.get id = fs.get id) ∧
    ∀ id, id.index < fs.size → ∃ way, fs.Lexical id way := by
  refine ⟨fun id name ⟨hvariable, hconstant⟩ => ?_, fun parent kind => ⟨?_, fun id hid => ?_⟩,
    fun id hid => h.exists_lexical hid⟩
  · rw [(fs.get id).bindings.apart name hvariable] at hconstant
    cases hconstant
  · exact (congrArg (·.bindings.names) (fs.get_add_self { parent, kind })).trans
      Bindings.names_empty
  · exact fs.get_add_of_lt _ hid

/-- A block with a variable, inside a function with a constant of the same name. -/
def shadowing : Frames :=
  let outer := ((⟨#[]⟩ : Frames).add { parent := none, kind := .function }).2.modify ⟨0⟩
    (·.declareConstant "a" (.boolean true))
  (outer.add { parent := some ⟨0⟩, kind := .block }).2.modify ⟨1⟩
    (·.declareVariable "a" (.boolean false))

/-- The assignment of a program in the block reaches the variable, and leaves the constant. -/
theorem shadowing_lexical : (⟨1⟩ : FrameId).index < shadowing.size ∧
    ∃ way, shadowing.Lexical ⟨1⟩ way ∧ shadowing.lookup? ⟨0⟩ "a" = some (.boolean true) ∧
      ∀ (m : Machine) (value : Value), m.frames = shadowing →
        ∃ frames, Engine.assignName ⟨1⟩ "a" value m = .ok () { m with frames } ∧
          shadowing.Rebinds ⟨1⟩ "a" ⟨value, true⟩ frames := by
  have hmade : shadowing.Made :=
    .declareVariable _ _ _ (.new _ _ (fun _ h => by cases h; decide)
      (.declareConstant _ _ _ (.new _ _ (fun _ h => by cases h) .empty)))
  have hid : (⟨1⟩ : FrameId).index < shadowing.size := by decide
  obtain ⟨way, hlexical⟩ := (made_lexical hmade).2.2 ⟨1⟩ hid
  refine ⟨hid, way, hlexical, rfl, fun m value hframes => ?_⟩
  have howner : shadowing.owner? way "a" = some (⟨1⟩, ⟨.boolean false, true⟩) := by
    have hname : (shadowing.get ⟨1⟩).bindings.names.lookup "a" = some ⟨.boolean false, true⟩ := by
      rw [Bindings.lookup_names]
      rfl
    obtain ⟨rest, rfl⟩ : ∃ rest, way = ⟨1⟩ :: rest := by
      cases hlexical.outward with
      | root hparent => exact ⟨_, rfl⟩
      | inside hparent hway => exact ⟨_, rfl⟩
    rw [owner?, List.findSome?_cons, hname]
    rfl
  obtain ⟨frames, hassign, hrebinds⟩ := hlexical.assigned _ _ _ howner value
  refine ⟨frames, ?_, hrebinds⟩
  rw [Engine.assignName_eq, hframes, hassign]

end Frames

end EcmaEval
