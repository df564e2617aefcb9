import EcmaEval.Proofs.Conduct.Ancestry
import EcmaEval.Proofs.Object.ArrayKeys

/-!
# The keys of a loop over an object

A loop over an object visits the listed keys of the object and of the prototypes behind it.  A key
is decided by the first object of the chain that shows it: it is visited if it is listed there, and
hidden otherwise.

What an object shows are its own keys.  It has no other keys, but for one: an array has a length
that is not among its own keys, unless a property of that name was defined.  So the length of an
array hides nothing, and a listed `length` of a prototype is visited.

## Main definitions

* `Object.passesOver`: the object has the key, but does not show it
* `Heap.owner?`: the first object of a chain that has a key
* `Heap.holder?`: the first object of a chain that shows a key
* `Heap.VisitsKeys`: what a loop visits

## Main results

* `Heap.visitsKeys`: what a loop over an object visits, where chains end
-/

namespace EcmaEval

/-! ## Keys that come one after the other -/

namespace Heap

variable {entries : List (String × Bool)} {seen : NameSet} {key : String}

theorem not_contains_of_mem_unseenKeys (h : key ∈ unseenKeys entries seen) :
    seen.contains key = false := by
  induction entries generalizing seen with
  | nil => cases h
  | cons entry entries ih =>
    obtain ⟨first, listed⟩ := entry
    rw [unseenKeys] at h
    split at h
    · exact ih h
    · next hnew =>
      have hlater (hmem : key ∈ unseenKeys entries (seen.insert first)) :
          seen.contains key = false :=
        (Bool.or_eq_false_iff.mp ((seen.contains_insert first key).symm.trans (ih hmem))).2
      split at h
      · rcases List.mem_cons.mp h with rfl | hmem
        · exact Bool.eq_false_of_not_eq_true hnew
        · exact hlater hmem
      · exact hlater h

/-- No key is visited twice, whatever comes. -/
theorem nodup_unseenKeys (entries : List (String × Bool)) (seen : NameSet) :
    (unseenKeys entries seen).Nodup := by
  induction entries generalizing seen with
  | nil => exact List.nodup_nil
  | cons entry entries ih =>
    rw [unseenKeys]
    split
    · exact ih seen
    · split
      · refine List.nodup_cons.mpr ⟨fun hmem => ?_, ih _⟩
        have hseen := not_contains_of_mem_unseenKeys hmem
        simp at hseen
      · exact ih _

/-- The keys of one object, when they are distinct: the listed ones that were not seen.  All of them
have been seen then. -/
theorem unseenKeys_append (hnodup : (entries.map Prod.fst).Nodup) (rest : List (String × Bool))
    (seen : NameSet) :
    ∃ seen', (∀ key, seen'.contains key = true ↔
        key ∈ entries.map Prod.fst ∨ seen.contains key = true) ∧
      unseenKeys (entries ++ rest) seen =
        (entries.filter fun entry => !seen.contains entry.1 && entry.2).map Prod.fst ++
          unseenKeys rest seen' := by
  induction entries generalizing seen with
  | nil => exact ⟨seen, fun key => by simp, rfl⟩
  | cons entry entries ih =>
    obtain ⟨first, listed⟩ := entry
    obtain ⟨hfirst, hnodup⟩ := List.nodup_cons.mp hnodup
    rw [List.cons_append, unseenKeys]
    split
    · next hseen =>
      obtain ⟨seen', hseen', heq⟩ := ih hnodup seen
      refine ⟨seen', fun key => ?_, by simp [heq, hseen]⟩
      rw [hseen', List.map_cons, List.mem_cons]
      constructor
      · exact fun h => h.imp_left .inr
      · rintro ((rfl | h) | h)
        · exact .inr hseen
        · exact .inl h
        · exact .inr h
    · next hnew =>
      obtain ⟨seen', hseen', heq⟩ := ih hnodup (seen.insert first)
      refine ⟨seen', fun key => ?_, ?_⟩
      · rw [hseen', NameSet.contains_insert, List.map_cons, List.mem_cons]
        simp [or_left_comm, or_assoc]
      · -- The other keys of the object are not the first one.
        have hsame : (entries.filter fun entry =>
              !(seen.insert first).contains entry.1 && entry.2) =
            entries.filter fun entry => !seen.contains entry.1 && entry.2 := by
          refine List.filter_congr fun entry hmem => ?_
          have hne : entry.1 ≠ first := fun h =>
            hfirst (List.mem_map.mpr ⟨entry, hmem, h⟩)
          rw [NameSet.contains_insert, decide_eq_false hne, Bool.false_or]
        rw [heq, hsame]
        cases listed <;> simp [hnew]

end Heap

/-! ## What objects show -/

namespace Object

variable {o : Object} {key : String}

/-- The object has the key, but does not show it: the length of an array, where no property of that
name was defined. -/
def passesOver (o : Object) (key : String) : Bool :=
  key == "length" && o.isArray && !o.properties.contains key

/-- An object shows what it has. -/
theorem Orderly.mem_ownKeys_iff (h : o.Orderly) (hinside : ¬ o.IsBeyond key) :
    key ∈ o.ownKeys false ↔ o.hasOwn key = true ∧ o.passesOver key = false := by
  cases harray : o.isArray with
  | false =>
    rw [(o.lists_ownKeys harray false).mem_iff, hasOwn, Option.isSome_iff_exists]
    simp [passesOver, harray]
  | true =>
    obtain ⟨elements, helements⟩ := Option.isSome_iff_exists.mp harray
    obtain ⟨prototype, first, changes, heq⟩ := h harray
    have hdivides := heq ▸ (Divides.new prototype first).rearrangeAll changes
    rw [isBeyond_iff helements] at hinside
    rw [hdivides.ownKeys_eq helements, namedKeys_false, List.mem_append, mem_indexKeys_iff,
      hasOwn_array helements]
    by_cases hlength : key = "length"
    · subst hlength
      have hindex : ¬ ∃ i < elements.size, arrayIndex? "length" = some i := by
        rintro ⟨i, -, hi⟩
        cases hi.symm.trans arrayIndex?_length
      simp only [passesOver, harray, hindex, hinside]
      simp [o.properties.agrees.mem_iff]
    · have hnone : key ∈ o.properties.names → arrayIndex? key = none := hdivides.names key
      simp only [passesOver, beq_eq_false_iff_ne.mpr hlength, hlength, hinside, Bool.false_and,
        or_false, false_or, and_true, and_iff_right_of_imp hnone]

/-- An object shows no key twice. -/
theorem Orderly.nodup_ownKeys (h : o.Orderly) (hinside : ∀ key, ¬ o.IsBeyond key) :
    (o.ownKeys false).Nodup := by
  cases harray : o.isArray with
  | false => exact (o.lists_ownKeys harray false).nodup
  | true =>
    obtain ⟨elements, helements⟩ := Option.isSome_iff_exists.mp harray
    obtain ⟨prototype, first, changes, heq⟩ := h harray
    have hdivides := heq ▸ (Divides.new prototype first).rearrangeAll changes
    rw [hdivides.ownKeys_eq helements, namedKeys_false]
    refine List.nodup_append.mpr ⟨List.nodup_range.map fun i j hij => indexKey_inj.mp hij,
      o.properties.nodup_names, ?_⟩
    rintro key hkey _ hname rfl
    rcases (mem_indexKeys_iff key).mp hkey with ⟨i, -, hi⟩ | hbeyond
    · exact nomatch hi.symm.trans (hdivides.names key hname)
    · exact hinside key ((isBeyond_iff helements key).mpr hbeyond)

end Object

/-! ## Chains -/

namespace Heap

variable {h : Heap} {id : ObjectId}

/-- The object itself lists the key. -/
def listed (h : Heap) (id : ObjectId) (key : String) : Bool :=
  ((h.get id).getOwn? key).any Property.enumerable

/-- The first object of a chain that has a key. -/
def owner? (h : Heap) (id : ObjectId) (key : String) : Option ObjectId :=
  (h.chain id).find? fun p => (h.get p).hasOwn key

/-- The first object of a chain that shows a key. -/
def holder? (h : Heap) (id : ObjectId) (key : String) : Option ObjectId :=
  (h.chain id).find? fun p => (h.get p).hasOwn key && !(h.get p).passesOver key

/-- What a loop over an object visits.  The chain has all that is reached from the object.  No key
is visited twice; those of an object come before those of the prototypes behind it, in the order in
which the object has them.  A key is visited when the first object that shows it lists it.  That is
the first object that has it, unless this one is an array whose length is passed over. -/
structure VisitsKeys (h : Heap) (id : ObjectId) : Prop where
  complete : ∀ p, p ∈ h.chain id ↔ h.Reaches id p
  nodup : (h.loopKeys id).Nodup
  ordered : h.loopKeys id = (h.chain id).flatMap fun p =>
    ((h.get p).ownKeys false).filter fun key => h.holder? id key = some p ∧ h.listed p key = true
  mem_iff : ∀ key, key ∈ h.loopKeys id ↔ ∃ p, h.holder? id key = some p ∧ h.listed p key = true
  owned : ∀ key, (∀ p, h.owner? id key = some p → (h.get p).passesOver key = false) →
    (key ∈ h.loopKeys id ↔ ∃ p, h.owner? id key = some p ∧ h.listed p key = true)

/-- An element is the first one of its kind when none before it is of that kind. -/
theorem find?_eq_some_self_iff {α : Type} (P : α → Bool) {before : List α} (behind : List α)
    {x : α} (hx : P x = true) (hout : x ∉ before) :
    (before ++ x :: behind).find? P = some x ↔ ∀ y ∈ before, ¬ P y = true := by
  rw [List.find?_append, List.find?_cons_of_pos hx, ← List.find?_eq_none]
  cases hfind : before.find? P with
  | none => simp
  | some y =>
    have hne : y ≠ x := fun heq => hout (heq ▸ List.mem_of_find?_eq_some hfind)
    simp [hne]

/-- The keys of the objects behind some others.  What the others show has been seen. -/
theorem unseenKeys_flatMap (before : List ObjectId) {behind : List ObjectId} {seen : NameSet}
    (hchain : (before ++ behind).Nodup) (hkeys : ∀ p, ((h.get p).ownKeys false).Nodup)
    (hseen : ∀ key, seen.contains key = true ↔ ∃ p ∈ before, key ∈ (h.get p).ownKeys false) :
    unseenKeys (behind.flatMap h.keysOf) seen = behind.flatMap fun p =>
      ((h.get p).ownKeys false).filter fun key =>
        (before ++ behind).find? (fun q => ((h.get q).ownKeys false).contains key) = some p ∧
          h.listed p key = true := by
  induction behind generalizing before seen with
  | nil => rfl
  | cons p behind ih =>
    have hfst : (h.keysOf p).map Prod.fst = (h.get p).ownKeys false := by
      simp [keysOf, Function.comp_def]
    obtain ⟨seen', hseen', heq⟩ :=
      unseenKeys_append (hfst ▸ hkeys p) (behind.flatMap h.keysOf) seen
    have hsplit : before ++ p :: behind = (before ++ [p]) ++ behind := by simp
    have hbehind := @ih (before ++ [p]) seen' (hsplit ▸ hchain) fun key => by
      rw [hseen', hfst, hseen]
      simp [or_and_right, exists_or, or_comm]
    have hout : p ∉ before := fun hmem =>
      (List.nodup_append.mp hchain).2.2 p hmem p List.mem_cons_self rfl
    rw [List.flatMap_cons, List.flatMap_cons, heq, hbehind, ← hsplit]
    refine congrArg (· ++ _) ?_
    -- A key that the object shows is decided there, unless it has been seen.
    rw [keysOf, List.filter_map, List.map_map]
    refine (List.map_id _).trans (List.filter_congr fun key hkey => ?_)
    have hfirst := find?_eq_some_self_iff (fun q => ((h.get q).ownKeys false).contains key) behind
      (List.contains_iff_mem.mpr hkey) hout
    have hnew : seen.contains key = false ↔
        ∀ q ∈ before, ¬ ((h.get q).ownKeys false).contains key = true := by
      rw [← Bool.not_eq_true, hseen]
      simp
    simp only [Function.comp_apply, listed, hfirst, ← hnew]
    cases seen.contains key <;> simp

/-- A condition that the first element satisfies anyway does not change which one that is. -/
theorem find?_and_of_find? {α : Type} {P Q : α → Bool} {xs : List α}
    (hQ : ∀ x, xs.find? P = some x → Q x = true) :
    xs.find? (fun x => P x && Q x) = xs.find? P := by
  induction xs with
  | nil => rfl
  | cons x xs ih =>
    rw [List.find?_cons, List.find?_cons]
    cases hP : P x with
    | true => rw [hQ x (List.find?_cons_of_pos hP)]; rfl
    | false => exact ih fun y hy => hQ y ((List.find?_cons_of_neg (by simp [hP])).trans hy)

section Visits

variable (hg : h.Grounded) (ho : h.Orderly) (hinside : ∀ id key, ¬ (h.get id).IsBeyond key)

include ho hinside

/-- The first object that shows a key is the first one that has it among its own keys. -/
theorem holder?_eq (id : ObjectId) (key : String) :
    h.holder? id key = (h.chain id).find? fun p => ((h.get p).ownKeys false).contains key := by
  refine congrArg (fun shows => (h.chain id).find? shows) (funext fun p => Bool.eq_iff_iff.mpr ?_)
  rw [List.contains_iff_mem, (ho p).mem_ownKeys_iff (hinside p key)]
  simp

include hg

theorem loopKeys_eq (id : ObjectId) : h.loopKeys id = (h.chain id).flatMap fun p =>
    ((h.get p).ownKeys false).filter fun key =>
      h.holder? id key = some p ∧ h.listed p key = true := by
  simp only [holder?_eq ho hinside]
  exact unseenKeys_flatMap [] (hg.nodup_chainWithin _ id)
    (fun p => (ho p).nodup_ownKeys (hinside p)) fun key => by simp [NameSet.contains]

/-- **Loops over the keys of objects**, where every chain of prototypes ends and arrays are what the
writing operations make of them. -/
theorem visitsKeys (hc : h.Closed) (hid : id.index < h.size) : h.VisitsKeys id := by
  have hmem (key : String) :
      key ∈ h.loopKeys id ↔ ∃ p, h.holder? id key = some p ∧ h.listed p key = true := by
    rw [loopKeys_eq hg ho hinside id, List.mem_flatMap]
    simp only [List.mem_filter, decide_eq_true_eq]
    refine ⟨fun ⟨p, _, _, hp⟩ => ⟨p, hp⟩, fun ⟨p, hp⟩ => ⟨p, ?_, ?_, hp⟩⟩
    · exact List.mem_of_find?_eq_some hp.1
    · have hshown := List.find?_some ((holder?_eq ho hinside id key).symm.trans hp.1)
      exact List.contains_iff_mem.mp hshown
  constructor
  case complete => exact fun p => mem_chain_iff hg hc hid
  case nodup => exact nodup_unseenKeys _ _
  case ordered => exact loopKeys_eq hg ho hinside id
  case mem_iff => exact hmem
  case owned =>
    intro key howner
    have hsame : h.holder? id key = h.owner? id key :=
      find?_and_of_find? fun p hp => by rw [howner p hp, Bool.not_false]
    rw [hmem, hsame]

end Visits

/-- An array without elements, behind which stands an object with a listed length. -/
def lengthBehind : Heap :=
  ⟨#[(Object.new none .ordinary).insertPlain "length" (.boolean true),
    Object.new (some ⟨0⟩) (.array #[])]⟩

theorem lengthBehind_prototype {p id : ObjectId} (hp : lengthBehind.IsPrototype p id) :
    p.index < id.index ∧ p.index < lengthBehind.size := by
  obtain ⟨_ | _ | i⟩ := id <;> cases hp
  exact ⟨by decide, by decide⟩

/-- The array has a length that is not listed, and a loop over it visits that of the prototype. -/
theorem visitsKeys_lengthBehind :
    lengthBehind.VisitsKeys ⟨1⟩ ∧
      lengthBehind.owner? ⟨1⟩ "length" = some ⟨1⟩ ∧ lengthBehind.listed ⟨1⟩ "length" = false ∧
      "length" ∈ lengthBehind.loopKeys ⟨1⟩ := by
  have hg : lengthBehind.Grounded :=
    Subrelation.wf (fun hp => (lengthBehind_prototype hp).1) (measure ObjectId.index).wf
  have ho : lengthBehind.Orderly := by
    rintro ⟨_ | _ | i⟩
    · exact .of_not_array rfl
    · exact fun _ => .new _ _
    · exact .of_not_array rfl
  have hinside (id : ObjectId) (key : String) : ¬ (lengthBehind.get id).IsBeyond key := by
    rintro ⟨elements, helements, i, hi, -⟩
    obtain ⟨_ | _ | j⟩ := id <;> cases helements
    cases hi
  have hvisits := visitsKeys hg ho hinside (fun _ _ hp => (lengthBehind_prototype hp).2)
    (show (⟨1⟩ : ObjectId).index < lengthBehind.size by decide)
  exact ⟨hvisits, by decide, by decide, (hvisits.mem_iff "length").mpr ⟨⟨0⟩, by decide, by decide⟩⟩

end Heap

end EcmaEval
