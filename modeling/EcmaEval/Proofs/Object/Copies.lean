import EcmaEval.Proofs.Construction.Constructor
import EcmaEval.Proofs.Object.KeyWrites
import EcmaEval.Proofs.Object.LoopKeys
import EcmaEval.Proofs.Session.ArrayKeys

/-!
# Copies of objects

The listed properties of an object are copied in two ways.  A spread reads the keys one by one and
defines each on the new object.  `Object.assign` reads them the same way, but writes them, and a
write looks along the prototypes of the new object for a function that stands for the key.  Where
there is none, both give the same object: one that has the keys of the source as its properties, in
the order in which the source lists them.

An object does not list its keys in the order in which they came, but with the array indices in
front.  The copy gets its keys in that order already, so it lists them as they came.

## Main definitions

* `InListedOrder`: keys as an object lists them
* `Heap.listedEntries`: the listed keys of an object with their values
* `Machine.filling`: the machine with a new object that has some listed values
* `Machine.CopiesAgree`: copies and listings of an object agree

## Main results

* `Object.ownKeys_of_names`: an object that got its keys in the listed order lists them so
* `Machine.Passed.copies_agree`: copies and listings of an object in a session
-/

namespace EcmaEval

open EcmaEval.Action EcmaEval.Engine EcmaEval.Discipline

/-! ## The order of keys -/

/-- Keys as an object lists them: array indices from the least on, then other keys, each once. -/
structure InListedOrder (keys : List String) : Prop where
  nodup : keys.Nodup
  order : ∃ (indices : List Nat) (others : List String), keys = indices.map indexKey ++ others ∧
    indices.Pairwise (· < ·) ∧ (∀ i ∈ indices, arrayIndex? (indexKey i) = some i) ∧
    ∀ key ∈ others, arrayIndex? key = none

namespace Object

variable {o : Object} {keys : List String}

/-- An object without elements whose listed names stand in the listed order lists them so. -/
theorem ownKeys_of_names (h : o.isArray = false) (hnames : o.namedKeys true = keys)
    (hkeys : InListedOrder keys) : o.ownKeys true = keys := by
  obtain ⟨indices, others, rfl, hsorted, hindices, hothers⟩ := hkeys.order
  have hindexed : (indices.map indexKey ++ others).filterMap indexed? =
      indices.map fun i => (i, indexKey i) := by
    have hfirst : (indices.map indexKey).filterMap indexed? = indices.map fun i => (i, indexKey i) := by
      rw [List.filterMap_map, ← List.filterMap_eq_map]
      exact List.filterMap_congr fun i hi => by simp [indexed?, hindices i hi]
    have hlast : others.filterMap indexed? = [] :=
      List.filterMap_eq_nil_iff.mpr fun key hkey => by rw [indexed?, hothers key hkey]; rfl
    rw [List.filterMap_append, hfirst, hlast, List.append_nil]
  have hplain : ((indices.map indexKey ++ others).filter fun key => (arrayIndex? key).isNone) =
      others := by
    have hfirst : ((indices.map indexKey).filter fun key => (arrayIndex? key).isNone) = [] := by
      refine List.filter_eq_nil_iff.mpr fun key hkey => ?_
      obtain ⟨i, hi, rfl⟩ := List.mem_map.mp hkey
      simp [hindices i hi]
    have hlast : (others.filter fun key => (arrayIndex? key).isNone) = others :=
      List.filter_eq_self.mpr fun key hkey => by rw [hothers key hkey]; rfl
    rw [List.filter_append, hfirst, hlast, List.nil_append]
  have hleast : (indices.map fun i => (i, indexKey i)).Pairwise
      fun a b => decide (a.1 ≤ b.1) = true := by
    rw [List.pairwise_map]
    exact hsorted.imp fun hlt => decide_eq_true (Nat.le_of_lt hlt)
  rw [ownKeys_of_not_array h, hnames, hindexed, hplain, sortByIndex,
    List.mergeSort_of_pairwise hleast, List.map_map]
  rfl

/-- No array has more elements than there are array indices. -/
def WithinIndices (o : Object) : Prop :=
  ∀ elements, o.elements? = some elements → elements.size ≤ arrayIndexLimit

theorem arrayIndex?_indexKey {i : Nat} (hi : i < arrayIndexLimit) : arrayIndex? (indexKey i) = some i :=
  arrayIndex?_eq_some_iff.mpr ⟨rfl, hi⟩

/-- Whatever was done to an object, it lists its keys in the listed order. -/
theorem Orderly.inListedOrder (h : o.Orderly) (hwithin : o.WithinIndices) :
    InListedOrder (o.ownKeys true) := by
  have hnamed : (o.namedKeys true).Nodup :=
    (o.namedKeys_sublist true).nodup o.properties.nodup_names
  cases harray : o.isArray with
  | false =>
    obtain ⟨hindices, hsorted⟩ := sortByIndex_indexed _ hnamed
    have hkeys := ownKeys_of_not_array harray true
    refine ⟨(o.lists_ownKeys harray true).nodup, _, _, hkeys.trans (congrArg (· ++ _) hindices),
      hsorted, fun i hi => ?_, fun key hkey => by simpa using (List.mem_filter.mp hkey).2⟩
    obtain ⟨entry, hentry, rfl⟩ := List.mem_map.mp hi
    obtain ⟨key, -, hkey⟩ := List.mem_filterMap.mp ((List.mergeSort_perm _ _).mem_iff.mp hentry)
    obtain ⟨i, hindex, rfl⟩ := Option.map_eq_some_iff.mp hkey
    exact arrayIndex?_indexKey (arrayIndex?_eq_some_iff.mp hindex).2
  | true =>
    obtain ⟨elements, helements⟩ := Option.isSome_iff_exists.mp harray
    obtain ⟨prototype, first, changes, heq⟩ := h harray
    have hdivides := heq ▸ (Divides.new prototype first).rearrangeAll changes
    have hindex (i : Nat) (hi : i ∈ List.range elements.size) : arrayIndex? (indexKey i) = some i :=
      arrayIndex?_indexKey ((List.mem_range.mp hi).trans_le (hwithin elements helements))
    have hname (key : String) (hkey : key ∈ o.namedKeys true) : arrayIndex? key = none :=
      hdivides.names key ((o.namedKeys_sublist true).subset hkey)
    rw [hdivides.ownKeys_eq helements]
    refine ⟨List.nodup_append.mpr ⟨List.nodup_range.map fun i j hij => indexKey_inj.mp hij, hnamed, ?_⟩,
      _, _, rfl, List.pairwise_lt_range, hindex, hname⟩
    rintro key hkey _ hlisted rfl
    obtain ⟨i, hi, rfl⟩ := List.mem_map.mp hkey
    exact nomatch (hindex i hi).symm.trans (hname _ hlisted)

/-- The listed properties of the object are values: no function stands for any. -/
def ListsValues (o : Object) : Prop :=
  ∀ key p, o.getOwn? key = some p → p.enumerable = true → p.isAccessor = false

/-- What is listed is there, and is a value if the listed properties are. -/
theorem ListsValues.own (hvalues : o.ListsValues) (h : o.Orderly) (hwithin : o.WithinIndices)
    {key : String} (hkey : key ∈ o.ownKeys true) :
    ∃ p, o.getOwn? key = some p ∧ p.isAccessor = false := by
  cases harray : o.isArray with
  | false =>
    obtain ⟨p, hp, henumerable⟩ := ((o.lists_ownKeys harray true).mem_iff key).mp hkey
    exact ⟨p, hp, hvalues key p hp (henumerable rfl)⟩
  | true =>
    obtain ⟨elements, helements⟩ := Option.isSome_iff_exists.mp harray
    obtain ⟨prototype, first, changes, heq⟩ := h harray
    have hdivides := heq ▸ (Divides.new prototype first).rearrangeAll changes
    rw [hdivides.ownKeys_eq helements, List.mem_append] at hkey
    have hown := getOwn?_of_elements? helements key
    rcases hkey with hindex | hname
    · obtain ⟨i, hi, rfl⟩ := List.mem_map.mp hindex
      have hlt := List.mem_range.mp hi
      rw [if_neg (length_ne_indexKey i).symm,
        arrayIndex?_indexKey (hlt.trans_le (hwithin elements helements))] at hown
      refine ⟨.plain elements[i], by simpa [hlt] using hown, rfl⟩
    · obtain ⟨p, hp, henumerable⟩ := mem_namedKeys_iff.mp hname
      by_cases hlength : key = "length"
      · exact ⟨_, hown.trans (if_pos hlength), rfl⟩
      · have hmem := o.properties.mem_names_iff.mpr (Option.isSome_of_eq_some hp)
        rw [if_neg hlength, hdivides.names key hmem] at hown
        exact ⟨p, hown.trans hp, hvalues key p (hown.trans hp) (henumerable rfl)⟩

/-- The value of the object's own under a key. -/
def valueAt (o : Object) (key : String) : Value := (o.ownValue? key).getD .undefined

/-- The listed keys of an object with their values. -/
def listedEntries (o : Object) : List (String × Value) :=
  (o.ownKeys true).map fun key => (key, o.valueAt key)

theorem keys_listedEntries (o : Object) : o.listedEntries.map Prod.fst = o.ownKeys true := by
  simp [listedEntries, Function.comp_def]

end Object

/-! ## Filling a new object -/

/-- A new object with listed values. -/
def Realm.record (r : Realm) (written : List (String × Value)) : Object :=
  (Object.new (some r.objectPrototype) .ordinary).withPlain written

/-- The machine with a new object that has some listed values. -/
def Machine.filling (m : Machine) (written : List (String × Value)) : Machine :=
  { m with heap := (m.heap.allocate (m.realm.record written)).2 }

/-- The machine with a copy of an object. -/
def Machine.withCopy (m : Machine) (o : ObjectId) : Machine := m.filling (m.heap.get o).listedEntries

theorem eraseDups_of_nodup {keys : List String} (h : keys.Nodup) : keys.eraseDups = keys := by
  induction keys with
  | nil => rfl
  | cons key rest ih =>
    obtain ⟨hkey, hrest⟩ := List.nodup_cons.mp h
    have hall : (rest.filter fun other => !other == key) = rest :=
      List.filter_eq_self.mpr fun other hother => by
        simpa using fun heq : other = key => hkey (heq ▸ hother)
    rw [List.eraseDups_cons, hall, ih hrest]

namespace Realm

variable {r : Realm} {written : List (String × Value)} {key : String} {v : Value}

theorem isArray_record : (r.record written).isArray = false := Object.isArray_withPlain rfl _

theorem prototype_record : (r.record written).prototype = some r.objectPrototype :=
  Object.prototype_withPlain rfl _

/-- What the object has are the values that were written. -/
theorem getOwn?_record :
    (r.record written).getOwn? key = (written.reverse.lookup key).map .plain := by
  rw [Object.getOwn?_of_not_array isArray_record]
  exact Object.get?_withPlain rfl rfl written

theorem names_record (hnodup : (written.map Prod.fst).Nodup) :
    (r.record written).properties.names = written.map Prod.fst :=
  (Object.names_withPlain rfl rfl written).trans (eraseDups_of_nodup hnodup)

/-- All of it is listed. -/
theorem namedKeys_record (hnodup : (written.map Prod.fst).Nodup) :
    (r.record written).namedKeys true = written.map Prod.fst := by
  rw [← names_record hnodup, Object.namedKeys]
  refine List.filter_eq_self.mpr fun key hkey => ?_
  obtain ⟨p, hp⟩ := Option.isSome_iff_exists.mp
    ((r.record written).properties.mem_names_iff.mp hkey)
  have hown := hp
  rw [← Object.getOwn?_of_not_array isArray_record, getOwn?_record, Option.map_eq_some_iff] at hown
  obtain ⟨v, -, rfl⟩ := hown
  rw [hp]
  rfl

theorem ownKeys_record (hkeys : InListedOrder (written.map Prod.fst)) :
    (r.record written).ownKeys true = written.map Prod.fst :=
  Object.ownKeys_of_names isArray_record (namedKeys_record hkeys.nodup) hkeys

/-- A value that is written under a new key comes last. -/
theorem insertPlain_record : (r.record written).insertPlain key v =
    r.record (written ++ [(key, v)]) :=
  (Object.withPlain_append written [(key, v)]).symm

end Realm

namespace Machine

variable {m : Machine} {written : List (String × Value)} {id o : ObjectId} {key : String} {v : Value}

/-- Only the object at the end of the heap is new. -/
theorem get_filling (hid : id.index < m.heap.size) :
    (m.filling written).heap.get id = m.heap.get id :=
  Heap.get_allocate_of_lt _ _ hid

theorem get_filling_self : (m.filling written).heap.get ⟨m.heap.size⟩ = m.realm.record written :=
  Heap.get_allocate_self _ _

/-- A change of the new object. -/
theorem modifyObject_filling (change : Object → Object) :
    modifyObject ⟨m.heap.size⟩ change (m.filling written) =
      .ok () { m with heap := (m.heap.allocate (change (m.realm.record written))).2 } := by
  unfold modifyObject filling Heap.allocate Heap.modify Heap.size
  have hlast : (m.heap.objects.push (m.realm.record written)).modify m.heap.objects.size change =
      m.heap.objects.push (change (m.realm.record written)) := by
    refine Array.ext_getElem? fun i => ?_
    rw [Array.getElem?_modify, Array.getElem?_push, Array.getElem?_push]
    by_cases hi : i = m.heap.objects.size
    · simp [hi]
    · simp [hi, Ne.symm hi]
  rw [hlast]

theorem insertPlain_filling : modifyObject ⟨m.heap.size⟩ (·.insertPlain key v) (m.filling written) =
    .ok () (m.filling (written ++ [(key, v)])) := by
  rw [modifyObject_filling, Realm.insertPlain_record]
  rfl

end Machine

namespace Heap

/-- A new object is found by nothing that was there. -/
theorem findWithin_allocate {h : Heap} (hc : h.Closed) (new : Object) (key : String) (fuel : Nat)
    {id : ObjectId} (hid : id.index < h.size) :
    (h.allocate new).2.findWithin key fuel id = h.findWithin key fuel id := by
  induction fuel generalizing id with
  | zero => rfl
  | succ fuel ih =>
    rw [findWithin, findWithin, h.get_allocate_of_lt new hid]
    cases hown : (h.get id).getOwn? key with
    | some p => rfl
    | none =>
      dsimp only
      cases hprototype : (h.get id).prototype with
      | none => rfl
      | some p => exact ih (hc _ _ hprototype)

end Heap

/-! ## Reading and writing keys -/

namespace Engine

variable {engine : Engine} {m : Machine} {o : ObjectId} {key : String} {v : Value}
  {written : List (String × Value)}

/-- A value of the object's own is read as it is. -/
theorem getOf_of_own (engine : Engine) (hid : o.index < m.heap.size) {p : Property}
    (hown : (m.heap.get o).getOwn? key = some p) (hvalue : p.isAccessor = false) :
    engine.getOf o key m = .ok ((m.heap.get o).valueAt key) m := by
  unfold getOf getProperty
  rw [readHeap_bind, m.heap.find?_of_own hid hown,
    readProperty_of_data (fun q hq => Option.some.inj hq ▸ hvalue), Object.valueAt,
    Object.ownValue?, hown]

/-- The objects that were there are read as before. -/
theorem getOf_filling (engine : Engine) (written : List (String × Value))
    (hid : o.index < m.heap.size) {p : Property}
    (hown : (m.heap.get o).getOwn? key = some p) (hvalue : p.isAccessor = false) :
    engine.getOf o key (m.filling written) =
      .ok ((m.heap.get o).valueAt key) (m.filling written) := by
  have hsize : o.index < (m.filling written).heap.size := by
    simpa [Machine.filling] using hid.trans (Nat.lt_succ_self _)
  have hread := getOf_of_own engine hsize
    ((congrArg (Object.getOwn? · key) (Machine.get_filling hid)).trans hown) hvalue
  rwa [Machine.get_filling hid] at hread

/-- What the new object finds under a key that it does not have. -/
theorem find?_filling (hc : m.heap.Closed) (hprototype : m.realm.objectPrototype.index < m.heap.size)
    (hnew : key ∉ written.map Prod.fst) :
    (m.filling written).heap.find? ⟨m.heap.size⟩ key = m.heap.find? m.realm.objectPrototype key := by
  have hown : (m.realm.record written).getOwn? key = none := by
    rw [Realm.getOwn?_record, List.lookup_eq_none_iff.mpr fun entry hentry => ?_]
    · rfl
    · have hmem : entry.1 ∈ written.map Prod.fst :=
        List.mem_map_of_mem (List.mem_reverse.mp hentry)
      simpa using fun heq : key = entry.1 => hnew (heq ▸ hmem)
  have hsize : (m.filling written).heap.size = m.heap.size + 1 := by
    simp [Machine.filling]
  rw [Heap.find?, hsize, Heap.findWithin, Machine.get_filling_self, hown, Realm.prototype_record]
  exact Heap.findWithin_allocate hc _ _ _ hprototype

/-- Where no function stands for a new key, a write adds a value behind the others. -/
theorem set_filling (hc : m.heap.Closed) (hprototype : m.realm.objectPrototype.index < m.heap.size)
    (hnew : key ∉ written.map Prod.fst)
    (hvalue : ∀ p, m.heap.find? m.realm.objectPrototype key = some p → p.isAccessor = false) :
    engine.set (.object ⟨m.heap.size⟩) key v (m.filling written) =
      .ok () (m.filling (written ++ [(key, v)])) := by
  have hown : (m.realm.record written).properties.get? key = none := by
    refine Option.eq_none_iff_forall_ne_some.mpr fun p hp => hnew ?_
    have hmem := (m.realm.record written).properties.mem_names_iff.mpr (Option.isSome_of_eq_some hp)
    rwa [Realm.record, Object.names_withPlain rfl rfl, List.mem_eraseDups] at hmem
  have hset : (m.realm.record written).setOwn key v = m.realm.record (written ++ [(key, v)]) := by
    rw [Object.setOwn_of_not_array Realm.isArray_record, Object.writeNamed,
      PropertyTable.write_of_absent _ hown, ← Object.define_of_not_array Realm.isArray_record]
    exact Realm.insertPlain_record
  change engine.setProperty _ key v _ _ = _
  rw [setProperty_of_data _ (by rwa [find?_filling hc hprototype hnew])]
  unfold writeOwn
  dsimp only
  rw [readHeap_bind, Machine.get_filling_self, Realm.isArray_record]
  change modifyObject _ _ _ = _
  rw [Machine.modifyObject_filling, hset]
  rfl

/-! ## Copying key by key -/

/-- The loop of a spread over some keys. -/
def copyKeys (engine : Engine) (o target : ObjectId) (keys : List String) : Action Unit := do
  for key in keys do
    let value ← engine.getOf o key
    modifyObject target (·.insertPlain key value)

/-- The loop of `Object.assign` over some keys. -/
def assignKeys (engine : Engine) (o target : ObjectId) (keys : List String) : Action Unit := do
  for key in keys do
    engine.set (.object target) key (← engine.getOf o key)

theorem copyKeys_cons (target : ObjectId) (rest : List String) :
    engine.copyKeys o target (key :: rest) = (do
      let value ← engine.getOf o key
      modifyObject target (·.insertPlain key value)
      engine.copyKeys o target rest) := by
  unfold copyKeys
  simp

theorem assignKeys_cons (target : ObjectId) (rest : List String) :
    engine.assignKeys o target (key :: rest) = (do
      let value ← engine.getOf o key
      engine.set (.object target) key value
      engine.assignKeys o target rest) := by
  unfold assignKeys
  simp

variable {keys : List String}

theorem copyKeys_filling (written : List (String × Value)) (hid : o.index < m.heap.size)
    (hown : ∀ key ∈ keys, ∃ p, (m.heap.get o).getOwn? key = some p ∧ p.isAccessor = false) :
    engine.copyKeys o ⟨m.heap.size⟩ keys (m.filling written) =
      .ok () (m.filling (written ++ keys.map fun key => (key, (m.heap.get o).valueAt key))) := by
  -- Induction on the keys that are left; the values of those before are written already.
  induction keys generalizing written with
  | nil => rw [List.map_nil, List.append_nil]; rfl
  | cons key rest ih =>
    obtain ⟨p, hp, hvalue⟩ := hown key List.mem_cons_self
    have hread := getOf_filling engine written hid hp hvalue
    have hrest := ih (written ++ [(key, (m.heap.get o).valueAt key)]) fun key hkey =>
      hown key (List.mem_cons_of_mem _ hkey)
    rw [copyKeys_cons, bind_apply, hread]
    dsimp only
    rw [bind_apply, Machine.insertPlain_filling]
    dsimp only
    rw [hrest, List.append_assoc]
    rfl

/-- Writing the keys gives the same object as defining them. -/
theorem assignKeys_filling (engine : Engine) (written : List (String × Value))
    (hc : m.heap.Closed) (hprototype : m.realm.objectPrototype.index < m.heap.size)
    (hid : o.index < m.heap.size)
    (hown : ∀ key ∈ keys, ∃ p, (m.heap.get o).getOwn? key = some p ∧ p.isAccessor = false)
    (hnodup : (written.map Prod.fst ++ keys).Nodup)
    (hfree : ∀ key ∈ keys, ∀ p, m.heap.find? m.realm.objectPrototype key = some p →
      p.isAccessor = false) :
    engine.assignKeys o ⟨m.heap.size⟩ keys (m.filling written) =
      .ok () (m.filling (written ++ keys.map fun key => (key, (m.heap.get o).valueAt key))) := by
  induction keys generalizing written with
  | nil => rw [List.map_nil, List.append_nil]; rfl
  | cons key rest ih =>
    obtain ⟨p, hp, hvalue⟩ := hown key List.mem_cons_self
    have hread := getOf_filling engine written hid hp hvalue
    have hnew : key ∉ written.map Prod.fst := fun hmem =>
      (List.nodup_append.mp hnodup).2.2 key hmem key List.mem_cons_self rfl
    have hrest := ih (written ++ [(key, (m.heap.get o).valueAt key)])
      (fun key hkey => hown key (List.mem_cons_of_mem _ hkey))
      (by simpa using hnodup) fun key hkey => hfree key (List.mem_cons_of_mem _ hkey)
    rw [assignKeys_cons, bind_apply, hread]
    dsimp only
    rw [bind_apply, set_filling hc hprototype hnew (hfree key List.mem_cons_self)]
    dsimp only
    rw [hrest, List.append_assoc]
    rfl

end Engine

/-! ## Listing keys and values -/

/-- Objects were added, and those that were there are as they were. -/
structure Heap.Adds (h h' : Heap) : Prop where
  size_le : h.size ≤ h'.size
  same : ∀ id, id.index < h.size → h'.get id = h.get id

namespace Heap.Adds

variable {h h' h'' : Heap}

theorem allocate (h : Heap) (o : Object) : h.Adds (h.allocate o).2 where
  size_le := by simp
  same _ hid := h.get_allocate_of_lt o hid

theorem trans (ha : h.Adds h') (ha' : h'.Adds h'') : h.Adds h'' where
  size_le := ha.size_le.trans ha'.size_le
  same id hid := (ha'.same id (hid.trans_le ha.size_le)).trans (ha.same id hid)

end Heap.Adds

/-- The machine with a new array. -/
def Machine.withArray (m : Machine) (elements : Array Value) : Machine :=
  { m with heap := (m.heap.allocate (.new (some m.realm.arrayPrototype) (.array elements))).2 }

/-- The value is an array of a key and its value. -/
def Heap.IsPair (h : Heap) (v : Value) (entry : String × Value) : Prop :=
  ∃ id, v = .object id ∧ (h.get id).elements? = some #[.ofText entry.1, entry.2]

namespace Machine

variable {m : Machine} {elements : Array Value}

theorem elements?_withArray :
    ((m.withArray elements).heap.get ⟨m.heap.size⟩).elements? = some elements :=
  congrArg Object.elements? (m.heap.get_allocate_self _)

theorem adds_withArray : m.heap.Adds (m.withArray elements).heap := .allocate _ _

end Machine

theorem Heap.Adds.isPair {h h' : Heap} (ha : h.Adds h') {v : Value} {entry : String × Value}
    (hpair : h.IsPair v entry) : h'.IsPair v entry := by
  obtain ⟨id, rfl, helements⟩ := hpair
  exact ⟨id, rfl, by rw [ha.same id (h.lt_size_of_elements? helements), helements]⟩

namespace Engine

variable {engine : Engine} {m : Machine} {o : ObjectId} {keys : List String}

/-- The values of keys, in the order of the keys. -/
theorem mapKeys_values (engine : Engine) (hid : o.index < m.heap.size)
    (hown : ∀ key ∈ keys, ∃ p, (m.heap.get o).getOwn? key = some p ∧ p.isAccessor = false) :
    engine.mapKeys (.object o) (fun _ v => return v) keys m =
      .ok (keys.map (m.heap.get o).valueAt) m := by
  unfold mapKeys
  induction keys with
  | nil => rfl
  | cons key rest ih =>
    obtain ⟨p, hp, hvalue⟩ := hown key List.mem_cons_self
    have hread : engine.get (.object o) key m = .ok ((m.heap.get o).valueAt key) m :=
      getOf_of_own engine hid hp hvalue
    have hrest := ih fun key hkey => hown key (List.mem_cons_of_mem _ hkey)
    rw [List.mapM_cons, bind_apply, bind_apply, hread]
    change ((do
      let rest ← rest.mapM _
      pure ((m.heap.get o).valueAt key :: rest)) : Action (List Value)) m = _
    rw [bind_apply, hrest]
    rfl

/-- A new array for each key, with the key and its value. -/
theorem mapKeys_pairs (engine : Engine) (hid : o.index < m.heap.size)
    (hown : ∀ key ∈ keys, ∃ p, (m.heap.get o).getOwn? key = some p ∧ p.isAccessor = false) :
    ∃ pairs m', engine.mapKeys (.object o) (fun key v => newArray #[.ofText key, v]) keys m =
        .ok pairs m' ∧ m.heap.Adds m'.heap ∧
      List.Forall₂ m'.heap.IsPair pairs (keys.map fun key => (key, (m.heap.get o).valueAt key)) := by
  unfold mapKeys
  -- Induction on the keys; each adds an array, and leaves the object and the arrays before it.
  induction keys generalizing m with
  | nil => exact ⟨[], m, rfl, ⟨Nat.le_refl _, fun _ _ => rfl⟩, .nil⟩
  | cons key rest ih =>
    obtain ⟨p, hp, hvalue⟩ := hown key List.mem_cons_self
    have hread : engine.get (.object o) key m = .ok ((m.heap.get o).valueAt key) m :=
      getOf_of_own engine hid hp hvalue
    let m₁ := m.withArray #[.ofText key, (m.heap.get o).valueAt key]
    have hadds : m.heap.Adds m₁.heap := Machine.adds_withArray
    have hsame : m₁.heap.get o = m.heap.get o := hadds.same o hid
    obtain ⟨pairs, m', hrest, hadds', hpairs⟩ := ih (m := m₁) (hid.trans_le hadds.size_le)
      fun key hkey => hsame.symm ▸ hown key (List.mem_cons_of_mem _ hkey)
    have hfirst : m₁.heap.IsPair (.object ⟨m.heap.size⟩) (key, (m.heap.get o).valueAt key) :=
      ⟨_, rfl, Machine.elements?_withArray⟩
    refine ⟨.object ⟨m.heap.size⟩ :: pairs, m', ?_, hadds.trans hadds',
      .cons (hadds'.isPair hfirst) (hsame ▸ hpairs)⟩
    rw [List.mapM_cons, bind_apply, bind_apply, hread]
    change ((do
      let rest ← rest.mapM _
      pure (Value.object ⟨m.heap.size⟩ :: rest)) : Action (List Value)) m₁ = _
    rw [bind_apply, hrest]
    rfl

end Engine

/-! ## Copies in a session -/

theorem lookup_map_pair {α : Type} (f : String → α) (keys : List String) (key : String) :
    (keys.map fun k => (k, f k)).lookup key = if key ∈ keys then some (f key) else none := by
  induction keys with
  | nil => rfl
  | cons first rest ih =>
    rw [List.map_cons, List.lookup_cons, ih]
    by_cases heq : key = first
    · simp [heq]
    · simp [heq, beq_false_of_ne heq]

/-- The copies of an object and the listings of its keys and values agree.  A spread into an empty
object literal and `Object.assign` to one give the same object on the same machine.  It is an
ordinary object with the prototype of such objects.  Its properties are the listed keys of the source
with their values, listed in the same order, and nothing else has changed.  `Object.keys`,
`Object.values` and `Object.entries` give new arrays of these keys, of these values and of pairs of
both, in that order. -/
structure Machine.CopiesAgree (m : Machine) (o : ObjectId) : Prop where
  empty : ∀ k name scope, (ofFuel (k + 1)).evaluateAs name scope (.object []) m =
    .ok (.object ⟨m.heap.size⟩) (m.filling [])
  spread : ∀ k name scope member, member.kind = .spread →
    (ofFuel k).evaluate scope member.value (m.filling []) = .ok (.object o) (m.filling []) →
    (ofFuel (k + 1)).evaluateAs name scope (.object [member]) m =
      .ok (.object ⟨m.heap.size⟩) (m.withCopy o)
  assign : ∀ (engine : Engine) this,
    engine.callObject .assign this [.object ⟨m.heap.size⟩, .object o] (m.filling []) =
      .ok (.object ⟨m.heap.size⟩) (m.withCopy o)
  kind : ((m.withCopy o).heap.get ⟨m.heap.size⟩).kind = .ordinary
  prototype : ((m.withCopy o).heap.get ⟨m.heap.size⟩).prototype = some m.realm.objectPrototype
  order : ((m.withCopy o).heap.get ⟨m.heap.size⟩).ownKeys true = (m.heap.get o).ownKeys true
  own : ∀ key, ((m.withCopy o).heap.get ⟨m.heap.size⟩).getOwn? key =
    if key ∈ (m.heap.get o).ownKeys true then some (.plain ((m.heap.get o).valueAt key)) else none
  unchanged : m.heap.Adds (m.withCopy o).heap
  keys : ∀ (engine : Engine) this, ∃ m',
    engine.callObject .keys this [.object o] m = .ok (.object ⟨m.heap.size⟩) m' ∧
    (m'.heap.get ⟨m.heap.size⟩).elements? =
      some (((m.heap.get o).ownKeys true).map Value.ofText).toArray ∧ m.heap.Adds m'.heap
  values : ∀ (engine : Engine) this, ∃ m',
    engine.callObject .values this [.object o] m = .ok (.object ⟨m.heap.size⟩) m' ∧
    (m'.heap.get ⟨m.heap.size⟩).elements? =
      some (((m.heap.get o).ownKeys true).map (m.heap.get o).valueAt).toArray ∧ m.heap.Adds m'.heap
  entries : ∀ (engine : Engine) this, ∃ pairs id m',
    engine.callObject .entries this [.object o] m = .ok (.object id) m' ∧
    (m'.heap.get id).elements? = some pairs.toArray ∧
    List.Forall₂ m'.heap.IsPair pairs (m.heap.get o).listedEntries ∧ m.heap.Adds m'.heap

/-! ### What each of them does -/

section Copying

variable {m : Machine} {o : ObjectId} (hid : o.index < m.heap.size)
  (hown : ∀ key ∈ (m.heap.get o).ownKeys true,
    ∃ p, (m.heap.get o).getOwn? key = some p ∧ p.isAccessor = false)

include hid hown

theorem evaluate_spread {k : Nat} (name : String) {scope : FrameId} {member : ObjectMember}
    (hmember : member.kind = .spread)
    (hoperand : (ofFuel k).evaluate scope member.value (m.filling []) =
      .ok (.object o) (m.filling [])) :
    (ofFuel (k + 1)).evaluateAs name scope (.object [member]) m =
      .ok (.object ⟨m.heap.size⟩) (m.withCopy o) := by
  have hadd : (ofFuel k).addMember scope ⟨m.heap.size⟩ member (m.filling []) =
      .ok () (m.withCopy o) := by
    unfold addMember
    rw [hmember]
    dsimp only
    rw [bind_apply, hoperand]
    dsimp only
    unfold copyProperties
    dsimp only
    rw [readHeap_bind, Machine.get_filling hid]
    exact copyKeys_filling [] hid hown
  change ((do
    (do (ofFuel k).addMember scope ⟨m.heap.size⟩ member; return ⟨⟩ : Action PUnit)
    return Value.object ⟨m.heap.size⟩) : Action Value) (m.filling []) = _
  rw [bind_apply, bind_apply, hadd]
  rfl

theorem callObject_assign {engine : Engine} (hc : m.heap.Closed)
    (hprototype : m.realm.objectPrototype.index < m.heap.size)
    (hnodup : ((m.heap.get o).ownKeys true).Nodup)
    (hfree : ∀ key ∈ (m.heap.get o).ownKeys true, ∀ p,
      m.heap.find? m.realm.objectPrototype key = some p → p.isAccessor = false) (this : Value) :
    engine.callObject .assign this [.object ⟨m.heap.size⟩, .object o] (m.filling []) =
      .ok (.object ⟨m.heap.size⟩) (m.withCopy o) := by
  have hassign : engine.assignFrom (.object ⟨m.heap.size⟩) (.object o) (m.filling []) =
      .ok () (m.withCopy o) := by
    have hkeys := assignKeys_filling engine [] hc hprototype hid hown hnodup hfree
    change ((readHeap fun h => (h.get o).ownKeys true) >>= engine.assignKeys o ⟨m.heap.size⟩)
      (m.filling []) = _
    rw [readHeap_bind, Machine.get_filling hid]
    exact hkeys
  change ((do
    for source in [Value.object o] do engine.assignFrom (.object ⟨m.heap.size⟩) source
    return Value.object ⟨m.heap.size⟩) : Action Value) (m.filling []) = _
  simp only [List.forIn_cons, List.forIn_nil, bind_assoc, pure_bind]
  rw [bind_apply, hassign]
  rfl

theorem callObject_values {engine : Engine} (this : Value) :
    engine.callObject .values this [.object o] m = .ok (.object ⟨m.heap.size⟩)
      (m.withArray (((m.heap.get o).ownKeys true).map (m.heap.get o).valueAt).toArray) := by
  have hmap := mapKeys_values engine hid hown
  change ((engine.mapKeys (.object o) _ _ >>= newArrayOf) : Action Value) m = _
  rw [bind_apply, hmap]
  rfl

theorem callObject_entries {engine : Engine} (this : Value) :
    ∃ pairs id m', engine.callObject .entries this [.object o] m = .ok (.object id) m' ∧
      (m'.heap.get id).elements? = some pairs.toArray ∧
      List.Forall₂ m'.heap.IsPair pairs (m.heap.get o).listedEntries ∧ m.heap.Adds m'.heap := by
  obtain ⟨pairs, m₁, hmap, hadds, hpairs⟩ := mapKeys_pairs engine hid hown
  have hlast : m₁.heap.Adds (m₁.withArray pairs.toArray).heap := Machine.adds_withArray
  refine ⟨pairs, ⟨m₁.heap.size⟩, m₁.withArray pairs.toArray, ?_, Machine.elements?_withArray,
    hpairs.imp fun _ _ => hlast.isPair, hadds.trans hlast⟩
  change ((engine.mapKeys (.object o) _ _ >>= newArrayOf) : Action Value) m = _
  rw [bind_apply, hmap]
  rfl

end Copying

namespace Machine

variable {suites : Prop} {accepted : Program → Prop} {m : Machine} {o : ObjectId}

/-- **Copies of objects.**  At any point of a session, for an object whose listed properties are
values, where no function stands for any of its keys on the prototype of ordinary objects or behind
it: its copies by a spread and by `Object.assign` are the same ordinary object, with the keys and the
values that `Object.keys`, `Object.values` and `Object.entries` list, in that one order; the object
itself and all others stay as they are.  An array may have as many elements as there are array
indices. -/
theorem Passed.copies_agree (h : m.Passed suites accepted) (hid : o.index < m.heap.size)
    (hwithin : (m.heap.get o).WithinIndices) (hvalues : (m.heap.get o).ListsValues)
    (hfree : ∀ key ∈ (m.heap.get o).ownKeys true, ∀ p,
      m.heap.find? m.realm.objectPrototype key = some p → p.isAccessor = false) :
    m.CopiesAgree o := by
  obtain ⟨hidden, hm⟩ := h.sound
  have horderly := h.orderly o
  have hkeys := horderly.inListedOrder hwithin
  have hown (key : String) (hkey : key ∈ (m.heap.get o).ownKeys true) :=
    hvalues.own horderly hwithin hkey
  have hlisted : InListedOrder ((m.heap.get o).listedEntries.map Prod.fst) := by
    rwa [Object.keys_listedEntries]
  refine ⟨fun k name scope => rfl, fun k name scope member => evaluate_spread hid hown name,
    fun engine => callObject_assign hid hown hm.closed hm.objectPrototype_lt hkeys.nodup hfree,
    ?_, ?_, ?_, fun key => ?_, .allocate _ _, fun engine this => ?_,
    fun engine this => ⟨_, callObject_values hid hown this, elements?_withArray, adds_withArray⟩,
    fun engine => callObject_entries hid hown⟩
  · rw [withCopy, get_filling_self, Realm.record, Object.withPlain_of_not_array rfl]
    rfl
  · rw [withCopy, get_filling_self, Realm.prototype_record]
  · rw [withCopy, get_filling_self, Realm.ownKeys_record hlisted, Object.keys_listedEntries]
  · rw [withCopy, get_filling_self, Realm.getOwn?_record, Object.listedEntries, ← List.map_reverse,
      lookup_map_pair]
    simp only [List.mem_reverse]
    split <;> rfl
  · exact ⟨m.withArray (((m.heap.get o).ownKeys true).map Value.ofText).toArray, rfl,
      elements?_withArray, adds_withArray⟩

/-- The object is no array, and no function stands for any of its properties. -/
def holdsValues (o : Object) : Bool :=
  !o.isArray && o.properties.names.all fun key =>
    (o.properties.get? key).all fun p => !p.isAccessor

theorem of_holdsValues {object : Object} (h : holdsValues object = true) :
    object.WithinIndices ∧ ∀ key p, object.getOwn? key = some p → p.isAccessor = false := by
  obtain ⟨harray, hvalues⟩ := Bool.and_eq_true_iff.mp h
  have harray : object.isArray = false := by simpa using harray
  refine ⟨fun elements helements => ?_, fun key p hp => ?_⟩
  · exact nomatch (Object.isArray_of_elements? helements).symm.trans harray
  · rw [Object.getOwn?_of_not_array harray] at hp
    have hname := object.properties.mem_names_iff.mpr (Option.isSome_of_eq_some hp)
    simpa [hp] using List.all_eq_true.mp hvalues key hname

/-- A program that makes an object with two names and an index behind them. -/
def mixedKeys : String := "const k = '0', o = { b: true, a: null, [k]: false }; o"

/-- The index comes first in the copy, and the names stand in the order in which they came. -/
theorem Passed.copies_agree_mixed : ∃ (m : Machine) (o : ObjectId),
    m.Passed False (fun _ => True) ∧ o.index < m.heap.size ∧
    (m.heap.get o).WithinIndices ∧ (m.heap.get o).ListsValues ∧
    (∀ key ∈ (m.heap.get o).ownKeys true, m.heap.find? m.realm.objectPrototype key = none) ∧
    m.CopiesAgree o ∧ ((m.withCopy o).heap.get ⟨m.heap.size⟩).ownKeys true = ["0", "b", "a"] := by
  let o : ObjectId := ⟨122⟩
  have hchecks : let m := (initial.evaluate mixedKeys).machine
      holdsValues (m.heap.get o) = true ∧ (m.heap.get o).ownKeys true = ["0", "b", "a"] ∧
        o.index < m.heap.size ∧
        ∀ key ∈ ["0", "b", "a"], m.heap.find? m.realm.objectPrototype key = none := by
    decide +kernel
  have hpassed : (initial.evaluate mixedKeys).machine.Passed False fun _ => True :=
    .hosted (Hosted.initial.evaluate fun _ _ => trivial)
  generalize (initial.evaluate mixedKeys).machine = m at hchecks hpassed
  obtain ⟨hholds, hkeys, hid, hfree⟩ := hchecks
  obtain ⟨hwithin, hvalues⟩ := of_holdsValues hholds
  rw [← hkeys] at hfree
  have hlists : (m.heap.get o).ListsValues := fun key p hp _ => hvalues key p hp
  have hcopies := Passed.copies_agree hpassed hid hwithin hlists fun key hkey p hp =>
    nomatch (hfree key hkey).symm.trans hp
  exact ⟨m, o, hpassed, hid, hwithin, hlists, hfree, hcopies, hcopies.order.trans hkeys⟩

/-- A program that puts an object with a setter behind the prototype of ordinary objects. -/
def setterBehind : String :=
  "const p = Object.setPrototypeOf({ set a(v) {} }, null);
    Object.setPrototypeOf(Object.prototype, p); const o = { a: null }; o"

/-- The keys of the copy that `Object.assign` makes of an object. -/
def assignedKeys (m : Machine) (o : ObjectId) : Option (List String) :=
  match standard.callObject .assign .undefined [.object ⟨m.heap.size⟩, .object o] (m.filling []) with
  | .ok _ m' => some ((m'.heap.get ⟨m.heap.size⟩).ownKeys true)
  | .error .. => none

/-- A setter that stands behind the prototype of ordinary objects takes what is written to the copy,
although that prototype itself has no function for any key. -/
theorem assign_setter_behind :
    let m := (initial.evaluate setterBehind).machine
    let o : ObjectId := ⟨124⟩
    m.Passed False (fun _ => True) ∧ o.index < m.heap.size ∧
      (∀ key p, (m.heap.get o).getOwn? key = some p → p.isAccessor = false) ∧
      (∀ key p, (m.heap.get m.realm.objectPrototype).getOwn? key = some p → p.isAccessor = false) ∧
      (m.heap.get o).ownKeys true = ["a"] ∧ m.assignedKeys o = some [] := by
  intro m o
  have hpassed : m.Passed False fun _ => True :=
    .hosted (Hosted.initial.evaluate fun _ _ => trivial)
  have hchecks : holdsValues (m.heap.get o) = true ∧
      holdsValues (m.heap.get m.realm.objectPrototype) = true ∧ o.index < m.heap.size ∧
      (m.heap.get o).ownKeys true = ["a"] ∧ m.assignedKeys o = some [] := by
    decide +kernel
  obtain ⟨hsource, hprototype, hid, hkeys, hassigned⟩ := hchecks
  exact ⟨hpassed, hid, (of_holdsValues hsource).2, (of_holdsValues hprototype).2, hkeys, hassigned⟩

end Machine

end EcmaEval
