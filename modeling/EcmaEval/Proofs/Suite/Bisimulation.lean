import Mathlib
import EcmaEval.Proofs.Conduct.Ancestry
import EcmaEval.Proofs.Object.PropertyOrder
import EcmaEval.Proofs.Store.Lookup
import EcmaEval.Suite.Check

/-!
# Structural equality is bisimilarity

Objects form graphs with cycles, so structural equality is no recursion over data.  It is the
greatest relation that relates values only if they agree, where the values inside objects need only
be related again.  The search for a difference takes the pairs on its way as equal; it finds every
difference all the same, and it ends, because a pair on the way is not entered a second time.

The search below some pairs decides bisimilarity *up to* these pairs.  The heart of the argument is
that a pair may be taken as related while its own parts are compared
(`Heap.bisimilarUpTo_cons_iff`).

## Main definitions

* `Heap.Agrees`: two values agree, as far as one step shows
* `Heap.Bisimilar`: two values cannot be told apart
* `Heap.Enters`: one comparison makes another one

## Main results

* `Heap.wellFounded_enters`: every comparison ends
* `Heap.structurallyEqualWithin_iff`: the search decides bisimilarity up to the pairs on its way
* `Engine.check_toEqual_iff_bisimilar`: the matcher for structural equality
-/

namespace EcmaEval

/-! ## Primitive values -/

namespace Number

open Float.Model (UnpackedFloat)

/-- A number as the equality of structures sees it, where the zeros are one. -/
def face (x : Float) : UnpackedFloat :=
  match x.toModel.unpack with
  | .zero _ => .zero .positive
  | u => u

theorem sameValueZero_iff {x y : Float} : sameValueZero x y = true ↔ face x = face y := by
  have hnan (z : Float) : z.isNaN = true ↔ z.toModel.unpack = .notANumber :=
    UnpackedFloat.isNaN_iff
  have hbeq : (x == y) = true ↔ _ :=
    UnpackedFloat.beq_iff_ne_notANumber_and_eq x.toModel.unpack y.toModel.unpack
  rw [sameValueZero, Bool.or_eq_true, Bool.and_eq_true, hnan, hnan, hbeq]
  unfold face
  generalize x.toModel.unpack = u
  generalize y.toModel.unpack = v
  cases u <;> cases v <;> simp
  next s t => cases s <;> cases t <;> simp

end Number

namespace Value

variable {v w u : Value}

theorem sameValueZero_refl (v : Value) : v.sameValueZero v = true := by
  cases v with
  | number x => exact Number.sameValueZero_iff.mpr rfl
  | _ => simp [sameValueZero, strictEqual]

theorem sameValueZero_symm (h : v.sameValueZero w = true) : w.sameValueZero v = true := by
  cases v <;> cases w <;> simp_all [sameValueZero, strictEqual, Number.sameValueZero_iff]

theorem sameValueZero_trans (h : v.sameValueZero w = true) (h' : w.sameValueZero u = true) :
    v.sameValueZero u = true := by
  cases v <;> cases w <;> cases u <;>
    simp_all [sameValueZero, strictEqual, Number.sameValueZero_iff]

theorem isObject_eq_of_sameValueZero (h : v.sameValueZero w = true) : v.isObject = w.isObject := by
  cases v <;> cases w <;> simp_all [sameValueZero, strictEqual, isObject, object?]

end Value

/-! ## Bisimulations -/

/-- The object is an ordinary one or an error, so that its properties are what it shows. -/
def Object.IsRecord (o : Object) : Prop := o.kind = .ordinary ∨ o.kind = .error

/-- The value under a listed key; an accessor counts as an undefined one. -/
def Object.shownValue (o : Object) (key : String) : Value := (o.ownValue? key).getD .undefined

/-- The values that are compared when the object is. -/
def Object.IsPart (o : Object) (v : Value) : Prop :=
  (∃ vs, o.kind = .array vs ∧ v ∈ vs) ∨
    (o.IsRecord ∧ ∃ key ∈ o.ownKeys true, v = o.shownValue key)

namespace Heap

variable {h : Heap} {R S : Value → Value → Prop} {v w u : Value} {x y : ObjectId}

/-- Two values agree, where the values inside them need only be related by `R`. -/
inductive Agrees (h : Heap) (R : Value → Value → Prop) : Value → Value → Prop where
  | primitives {v w : Value} (hv : v.isObject = false) (hw : w.isObject = false)
    (hsame : v.sameValueZero w = true) : Agrees h R v w
  | identical (x : ObjectId) : Agrees h R (.object x) (.object x)
  | arrays {x y : ObjectId} {vs ws : Array Value} (hx : (h.get x).kind = .array vs)
    (hy : (h.get y).kind = .array ws) (helements : List.Forall₂ R vs.toList ws.toList) :
    Agrees h R (.object x) (.object y)
  | records {x y : ObjectId} (hx : (h.get x).IsRecord) (hy : (h.get y).IsRecord)
    (hprototype : (h.get x).prototype = (h.get y).prototype)
    (hkeys : ∀ key, key ∈ (h.get x).ownKeys true ↔ key ∈ (h.get y).ownKeys true)
    (hvalues : ∀ key ∈ (h.get x).ownKeys true,
      R ((h.get x).shownValue key) ((h.get y).shownValue key)) :
    Agrees h R (.object x) (.object y)

/-- Related values agree. -/
def IsBisimulation (h : Heap) (R : Value → Value → Prop) : Prop :=
  ∀ v w, R v w → h.Agrees R v w

/-- A bisimulation relates the values. -/
def Bisimilar (h : Heap) (v w : Value) : Prop := ∃ R, h.IsBisimulation R ∧ R v w

/-- Only parts of the two objects need to be related. -/
theorem Agrees.mono_parts
    (hle : ∀ v w, (h.get x).IsPart v → (h.get y).IsPart w → R v w → S v w)
    (hagrees : h.Agrees R (.object x) (.object y)) : h.Agrees S (.object x) (.object y) := by
  cases hagrees with
  | primitives hv => cases hv
  | identical x => exact .identical x
  | arrays hx hy helements =>
    refine .arrays hx hy (forall₂_imp_of_mem (fun v hv w hw => ?_) helements)
    exact hle v w (.inl ⟨_, hx, Array.mem_toList_iff.mp hv⟩)
      (.inl ⟨_, hy, Array.mem_toList_iff.mp hw⟩)
  | records hx hy hprototype hkeys hvalues =>
    refine .records hx hy hprototype hkeys fun key hkey => ?_
    exact hle _ _ (.inr ⟨hx, key, hkey, rfl⟩) (.inr ⟨hy, key, (hkeys key).mp hkey, rfl⟩)
      (hvalues key hkey)

theorem Agrees.mono (hle : ∀ v w, R v w → S v w) (hagrees : h.Agrees R v w) : h.Agrees S v w := by
  cases hagrees with
  | primitives hv hw hsame => exact .primitives hv hw hsame
  | identical x => exact .identical x
  | arrays hx hy helements => exact .arrays hx hy (helements.imp hle)
  | records hx hy hprototype hkeys hvalues =>
    exact .records hx hy hprototype hkeys fun key hkey => hle _ _ (hvalues key hkey)

/-! ### Bisimilarity is an equivalence -/

theorem isBisimulation_bisimilar (h : Heap) : h.IsBisimulation h.Bisimilar :=
  fun _ _ ⟨_, hR, hvw⟩ => (hR _ _ hvw).mono fun _ _ hab => ⟨_, hR, hab⟩

theorem Bisimilar.agrees (hvw : h.Bisimilar v w) : h.Agrees h.Bisimilar v w :=
  h.isBisimulation_bisimilar v w hvw

theorem Bisimilar.refl (h : Heap) (v : Value) : h.Bisimilar v v := by
  refine ⟨Eq, ?_, rfl⟩
  rintro v _ rfl
  cases v with
  | object x => exact .identical x
  | _ => exact .primitives rfl rfl (Value.sameValueZero_refl _)

theorem Bisimilar.symm (hvw : h.Bisimilar v w) : h.Bisimilar w v := by
  refine ⟨fun a b => h.Bisimilar b a, fun a b hba => ?_, hvw⟩
  cases hba.agrees with
  | primitives hb ha hsame => exact .primitives ha hb (Value.sameValueZero_symm hsame)
  | identical x => exact .identical x
  | arrays hx hy helements => exact .arrays hy hx helements.flip
  | records hx hy hprototype hkeys hvalues =>
    exact .records hy hx hprototype.symm (fun key => (hkeys key).symm)
      fun key hkey => hvalues key ((hkeys key).mpr hkey)

theorem IsRecord.not_array {o : Object} {vs : Array Value} (ho : o.IsRecord)
    (harray : o.kind = .array vs) : False := by
  rcases ho with ho | ho <;> simp [ho] at harray

theorem Bisimilar.trans (hvw : h.Bisimilar v w) (hwu : h.Bisimilar w u) : h.Bisimilar v u := by
  refine ⟨fun a c => ∃ b, h.Bisimilar a b ∧ h.Bisimilar b c, ?_, w, hvw, hwu⟩
  rintro a c ⟨b, hab, hbc⟩
  have hleft : ∀ a c, h.Bisimilar a c → ∃ b, h.Bisimilar a b ∧ h.Bisimilar b c :=
    fun a c hac => ⟨a, .refl h a, hac⟩
  have hright : ∀ a c, h.Bisimilar a c → ∃ b, h.Bisimilar a b ∧ h.Bisimilar b c :=
    fun a c hac => ⟨c, hac, .refl h c⟩
  -- An object that is identical to the one between stands for it; all else agrees in kind.
  cases hab.agrees with
  | primitives ha hb hsame =>
    cases hbc.agrees with
    | primitives _ hc hsame' => exact .primitives ha hc (Value.sameValueZero_trans hsame hsame')
    | _ => cases hb
  | identical x => exact hbc.agrees.mono hleft
  | arrays hx hy helements =>
    cases hbc.agrees with
    | primitives hb => cases hb
    | identical => exact (Agrees.arrays hx hy helements).mono hright
    | arrays hy' hz helements' =>
      rw [hy] at hy'
      cases hy'
      exact .arrays hx hz (forall₂_trans helements helements')
    | records hy' => exact (IsRecord.not_array hy' hy).elim
  | records hx hy hprototype hkeys hvalues =>
    cases hbc.agrees with
    | primitives hb => cases hb
    | identical => exact (Agrees.records hx hy hprototype hkeys hvalues).mono hright
    | arrays hy' => exact (IsRecord.not_array hy hy').elim
    | records _ hz hprototype' hkeys' hvalues' =>
      exact .records hx hz (hprototype.trans hprototype')
        (fun key => (hkeys key).trans (hkeys' key))
        fun key hkey => ⟨_, hvalues key hkey, hvalues' key ((hkeys key).mp hkey)⟩

/-! ### Bisimilarity up to some pairs -/

/-- The pair is one of a list. -/
def Listed (visiting : List (ObjectId × ObjectId)) (v w : Value) : Prop :=
  ∃ x y, v = .object x ∧ w = .object y ∧ (x, y) ∈ visiting

/-- The values are a pair of the list, or cannot be told apart without looking into one. -/
def BisimilarUpTo (h : Heap) (visiting : List (ObjectId × ObjectId)) (v w : Value) : Prop :=
  Listed visiting v w ∨
    ∃ R : Value → Value → Prop,
      (∀ a b, R a b → h.Agrees (fun a b => Listed visiting a b ∨ R a b) a b) ∧ R v w

theorem bisimilarUpTo_nil : h.BisimilarUpTo [] v w ↔ h.Bisimilar v w := by
  have hnot (a b : Value) : ¬ Listed [] a b := fun ⟨_, _, _, _, hmem⟩ => by cases hmem
  simp [BisimilarUpTo, Bisimilar, IsBisimulation, hnot]

theorem not_listed_of_primitive {visiting : List (ObjectId × ObjectId)}
    (hv : v.isObject = false ∨ w.isObject = false) : ¬ Listed visiting v w := by
  rintro ⟨x, y, rfl, rfl, -⟩
  rcases hv with hv | hv <;> cases hv

theorem bisimilarUpTo_of_primitive {visiting : List (ObjectId × ObjectId)}
    (hv : v.isObject = false ∨ w.isObject = false) :
    h.BisimilarUpTo visiting v w ↔ v.sameValueZero w = true := by
  constructor
  · rintro (hlisted | ⟨R, hR, hvw⟩)
    · exact absurd hlisted (not_listed_of_primitive hv)
    · cases hR v w hvw with
      | primitives _ _ hsame => exact hsame
      | _ => rcases hv with hv | hv <;> cases hv
  · intro hsame
    have heq := Value.isObject_eq_of_sameValueZero hsame
    refine .inr ⟨fun a b => a = v ∧ b = w, ?_, rfl, rfl⟩
    rintro a b ⟨rfl, rfl⟩
    rcases hv with hv | hv
    · exact .primitives hv (heq ▸ hv) hsame
    · exact .primitives (heq ▸ hv) hv hsame

/-- Two objects that are not on the way are compared by their parts, and may be taken as equal
there. -/
theorem bisimilarUpTo_cons_iff {visiting : List (ObjectId × ObjectId)}
    (hnew : (x, y) ∉ visiting) :
    h.BisimilarUpTo visiting (.object x) (.object y) ↔
      h.Agrees (h.BisimilarUpTo ((x, y) :: visiting)) (.object x) (.object y) := by
  have hlisted (a b : Value) : Listed ((x, y) :: visiting) a b ↔
      (a = .object x ∧ b = .object y) ∨ Listed visiting a b := by
    constructor
    · rintro ⟨x', y', rfl, rfl, hmem⟩
      rcases List.mem_cons.mp hmem with heq | hmem
      · cases heq
        exact .inl ⟨rfl, rfl⟩
      · exact .inr ⟨x', y', rfl, rfl, hmem⟩
    · rintro (⟨rfl, rfl⟩ | ⟨x', y', rfl, rfl, hmem⟩)
      · exact ⟨x, y, rfl, rfl, List.mem_cons_self⟩
      · exact ⟨x', y', rfl, rfl, List.mem_cons_of_mem _ hmem⟩
  constructor
  · rintro (⟨x', y', hx, hy, hmem⟩ | ⟨R, hR, hxy⟩)
    · cases hx
      cases hy
      exact absurd hmem hnew
    · refine (hR _ _ hxy).mono fun a b hab => ?_
      rcases hab with hab | hab
      · exact .inl ((hlisted a b).mpr (.inr hab))
      · refine .inr ⟨R, fun a b hab => (hR a b hab).mono fun a b hab => ?_, hab⟩
        exact hab.imp_left fun hab => (hlisted a b).mpr (.inr hab)
  · intro hagrees
    -- What is bisimilar up to the longer list, together with the pair itself.
    refine .inr ⟨fun a b => (a = .object x ∧ b = .object y) ∨
      ∃ R : Value → Value → Prop,
        (∀ a b, R a b → h.Agrees (fun a b => Listed ((x, y) :: visiting) a b ∨ R a b) a b) ∧
          R a b, ?_, .inl ⟨rfl, rfl⟩⟩
    rintro a b (⟨rfl, rfl⟩ | ⟨R, hR, hab⟩)
    · refine hagrees.mono fun a b hab => ?_
      rcases hab with hab | hab
      · exact ((hlisted a b).mp hab).elim (fun hpair => .inr (.inl hpair)) .inl
      · exact .inr (.inr hab)
    · refine (hR a b hab).mono fun a b hab => ?_
      rcases hab with hab | hab
      · exact ((hlisted a b).mp hab).elim (fun hpair => .inr (.inl hpair)) .inl
      · exact .inr (.inr ⟨R, hR, hab⟩)

theorem bisimilarUpTo_self (visiting : List (ObjectId × ObjectId)) (x : ObjectId) :
    h.BisimilarUpTo visiting (.object x) (.object x) := by
  refine .inr ⟨fun a b => a = .object x ∧ b = .object x, ?_, rfl, rfl⟩
  rintro a b ⟨rfl, rfl⟩
  exact .identical x

/-! ## Shapes -/

section Shapes

variable {equal : Value → Value → Bool}

theorem equalLists_iff {vs ws : List Value} :
    equalLists equal vs ws = true ↔ List.Forall₂ (fun a b => equal a b = true) vs ws := by
  induction vs generalizing ws with
  | nil => cases ws <;> simp [equalLists]
  | cons v vs ih => cases ws <;> simp [equalLists, ih]

theorem lookupEntry_map {keys : List String} (f : String → Value) (key : String) :
    lookupEntry key (keys.map fun k => (k, f k)) = if key ∈ keys then some (f key) else none := by
  induction keys with
  | nil => rfl
  | cons k keys ih =>
    by_cases hk : k = key
    · subst hk
      simp [lookupEntry]
    · simp [lookupEntry, hk, ih, Ne.symm hk]

theorem entriesWithin_iff {keys others : List String} (f g : String → Value) :
    entriesWithin equal (keys.map fun k => (k, f k)) (others.map fun k => (k, g k)) = true ↔
      ∀ key ∈ keys, key ∈ others ∧ equal (f key) (g key) = true := by
  simp only [entriesWithin, List.all_map, List.all_eq_true, Function.comp_apply, lookupEntry_map]
  refine forall₂_congr fun key _ => ?_
  split <;> simp_all

/-- Keys that are as many as others, and among them, are the same. -/
theorem same_keys_iff {keys others : List String} (hkeys : keys.Nodup) (hothers : others.Nodup) :
    (keys.length = others.length ∧ ∀ key ∈ keys, key ∈ others) ↔
      ∀ key, key ∈ keys ↔ key ∈ others := by
  constructor
  · rintro ⟨hlength, hsubset⟩ key
    exact ((List.subperm_of_subset hkeys hsubset).perm_of_length_le hlength.ge).mem_iff
  · intro hsame
    exact ⟨((List.perm_ext_iff_of_nodup hkeys hothers).mpr hsame).length_eq,
      fun key => (hsame key).mp⟩

theorem isArray_of_isRecord {o : Object} (ho : o.IsRecord) : o.isArray = false := by
  rcases ho with ho | ho <;> simp [Object.isArray, Object.elements?, ho]

theorem same_ownKeys_iff {o o' : Object} (ho : o.IsRecord) (ho' : o'.IsRecord) :
    ((o.ownKeys true).length = (o'.ownKeys true).length ∧
        ∀ key ∈ o.ownKeys true, key ∈ o'.ownKeys true) ↔
      ∀ key, key ∈ o.ownKeys true ↔ key ∈ o'.ownKeys true :=
  same_keys_iff (Object.lists_ownKeys (isArray_of_isRecord ho) true).nodup
    (Object.lists_ownKeys (isArray_of_isRecord ho') true).nodup

theorem shape_of_array {o : Object} {vs : Array Value} (ho : o.kind = .array vs) :
    o.shape = .array vs.toList := by
  simp [Object.shape, ho]

theorem shape_of_isRecord {o : Object} (ho : o.IsRecord) :
    o.shape = .record o.prototype ((o.ownKeys true).map fun key => (key, o.shownValue key)) := by
  rcases ho with ho | ho <;> simp [Object.shape, ho, Object.shownValue]

theorem shape_cases (o : Object) :
    (∃ vs, o.kind = .array vs) ∨ o.IsRecord ∨ o.shape = .indivisible := by
  cases hkind : o.kind <;> simp [Object.IsRecord, Object.shape, hkind]

theorem equal_array_cases {vs : List Value} {shape : ObjectShape}
    (hequal : (ObjectShape.array vs).equal equal shape = true) :
    ∃ ws, shape = .array ws ∧ equalLists equal vs ws = true := by
  cases shape with
  | array ws =>
    simp only [ObjectShape.equal, Bool.and_eq_true] at hequal
    exact ⟨ws, rfl, hequal.2⟩
  | _ => cases hequal

theorem equal_record_cases {p : Option ObjectId} {entries : List (String × Value)}
    {shape : ObjectShape} (hequal : (ObjectShape.record p entries).equal equal shape = true) :
    ∃ others, shape = .record p others ∧ entries.length = others.length ∧
      entriesWithin equal entries others = true := by
  cases shape with
  | record q others =>
    simp only [ObjectShape.equal, Bool.and_eq_true, beq_iff_eq] at hequal
    obtain ⟨⟨rfl, hlength⟩, hentries⟩ := hequal
    exact ⟨others, rfl, hlength, hentries⟩
  | _ => cases hequal

/-- The shapes of two objects are equal if the objects agree. -/
theorem equal_shape_iff (hne : x ≠ y) :
    ObjectShape.equal equal (h.get x).shape (h.get y).shape = true ↔
      h.Agrees (fun a b => equal a b = true) (.object x) (.object y) := by
  constructor
  · intro hequal
    rcases shape_cases (h.get x) with ⟨vs, hx⟩ | hx | hx
    · rw [shape_of_array hx] at hequal
      obtain ⟨ws, hshape, hlists⟩ := equal_array_cases hequal
      rcases shape_cases (h.get y) with ⟨ws', hy⟩ | hy | hy
      · rw [shape_of_array hy] at hshape
        cases hshape
        exact .arrays hx hy (equalLists_iff.mp hlists)
      · rw [shape_of_isRecord hy] at hshape
        cases hshape
      · rw [hy] at hshape
        cases hshape
    · rw [shape_of_isRecord hx] at hequal
      obtain ⟨others, hshape, hlength, hentries⟩ := equal_record_cases hequal
      rcases shape_cases (h.get y) with ⟨ws', hy⟩ | hy | hy
      · rw [shape_of_array hy] at hshape
        cases hshape
      · rw [shape_of_isRecord hy, ObjectShape.record.injEq] at hshape
        obtain ⟨hprototype, rfl⟩ := hshape
        rw [entriesWithin_iff] at hentries
        rw [List.length_map, List.length_map] at hlength
        exact .records hx hy hprototype.symm
          ((same_ownKeys_iff hx hy).mp ⟨hlength, fun key hkey => (hentries key hkey).1⟩)
          fun key hkey => (hentries key hkey).2
      · rw [hy] at hshape
        cases hshape
    · rw [hx] at hequal
      cases hequal
  · intro hagrees
    cases hagrees with
    | primitives hv => cases hv
    | identical => exact absurd rfl hne
    | arrays hx hy helements =>
      rw [shape_of_array hx, shape_of_array hy]
      simp [ObjectShape.equal, equalLists_iff.mpr helements, helements.length_eq]
    | records hx hy hprototype hkeys hvalues =>
      obtain ⟨hlength, -⟩ := (same_ownKeys_iff hx hy).mpr hkeys
      rw [shape_of_isRecord hx, shape_of_isRecord hy]
      simp only [ObjectShape.equal, Bool.and_eq_true, beq_iff_eq, List.length_map,
        entriesWithin_iff]
      exact ⟨⟨hprototype, hlength⟩, fun key hkey => ⟨(hkeys key).mp hkey, hvalues key hkey⟩⟩

end Shapes

/-! ## Termination -/

/-- The pairs of objects that are not on the way. -/
def fresh (h : Heap) (visiting : List (ObjectId × ObjectId)) : Nat :=
  (((Finset.range h.size) ×ˢ (Finset.range h.size)).filter fun p =>
    (⟨p.1⟩, ⟨p.2⟩) ∉ visiting).card

theorem fresh_le (h : Heap) (visiting : List (ObjectId × ObjectId)) :
    h.fresh visiting ≤ h.size * h.size := by
  refine (Finset.card_filter_le _ _).trans ?_
  rw [Finset.card_product, Finset.card_range]

/-- A pair of objects on the way is one less. -/
theorem fresh_cons_lt {visiting : List (ObjectId × ObjectId)} (hx : x.index < h.size)
    (hy : y.index < h.size) (hnew : (x, y) ∉ visiting) :
    h.fresh ((x, y) :: visiting) < h.fresh visiting := by
  refine Finset.card_lt_card (Finset.ssubset_iff_of_subset ?_ |>.mpr ?_)
  · intro p hp
    rw [Finset.mem_filter] at hp ⊢
    exact ⟨hp.1, fun hmem => hp.2 (List.mem_cons_of_mem _ hmem)⟩
  · refine ⟨(x.index, y.index), ?_, ?_⟩
    · rw [Finset.mem_filter, Finset.mem_product, Finset.mem_range, Finset.mem_range]
      exact ⟨⟨hx, hy⟩, hnew⟩
    · simp [Finset.mem_filter]

theorem index_lt_of_isPart (hv : (h.get x).IsPart v) : x.index < h.size := by
  by_contra hsize
  rw [h.get_of_size_le (Nat.le_of_not_lt hsize)] at hv
  rcases hv with ⟨vs, hkind, -⟩ | ⟨-, key, hkey, -⟩
  · cases hkind
  · obtain ⟨p, hp, -⟩ := ((Object.lists_ownKeys (o := default) rfl true).mem_iff key).mp hkey
    cases hp

/-- A comparison of two objects inside some pairs makes a comparison of their parts, if the objects
differ and are no such pair. -/
inductive Enters (h : Heap) :
    List (ObjectId × ObjectId) × Value × Value → List (ObjectId × ObjectId) × Value × Value → Prop
  where
  | intro {visiting : List (ObjectId × ObjectId)} {x y : ObjectId} {v w : Value} (hne : x ≠ y)
    (hnew : (x, y) ∉ visiting) (hv : (h.get x).IsPart v) (hw : (h.get y).IsPart w) :
    Enters h ((x, y) :: visiting, v, w) (visiting, .object x, .object y)

/-- Every comparison ends. -/
theorem wellFounded_enters (h : Heap) : WellFounded h.Enters := by
  refine Subrelation.wf ?_ (measure fun state => h.fresh state.1).wf
  rintro _ _ ⟨-, hnew, hv, hw⟩
  exact fresh_cons_lt (index_lt_of_isPart hv) (index_lt_of_isPart hw) hnew

/-! ## The search -/

theorem structurallyEqualWithin_of_primitive {fuel : Nat} {visiting : List (ObjectId × ObjectId)}
    (hv : v.isObject = false ∨ w.isObject = false) :
    h.structurallyEqualWithin (fuel + 1) visiting v w = v.sameValueZero w := by
  cases v <;> cases w <;> first | rfl | (rcases hv with hv | hv <;> cases hv)

/-- The search below some pairs decides bisimilarity up to these pairs, if it has a step for every
other pair of objects. -/
theorem structurallyEqualWithin_iff {fuel : Nat} {visiting : List (ObjectId × ObjectId)}
    (hfuel : h.fresh visiting < fuel) (v w : Value) :
    h.structurallyEqualWithin fuel visiting v w = true ↔ h.BisimilarUpTo visiting v w := by
  -- Induction on the steps; a comparison inside another one has one fresh pair less.
  induction fuel generalizing visiting v w with
  | zero => cases hfuel
  | succ fuel ih =>
    by_cases hprimitive : v.isObject = false ∨ w.isObject = false
    · rw [structurallyEqualWithin_of_primitive hprimitive, bisimilarUpTo_of_primitive hprimitive]
    · obtain ⟨x, y, rfl, rfl⟩ : ∃ x y, v = .object x ∧ w = .object y := by
        cases v <;> cases w <;> simp_all [Value.isObject, Value.object?]
      rw [structurallyEqualWithin, Bool.or_eq_true, Bool.or_eq_true, beq_iff_eq,
        List.contains_iff_mem]
      by_cases hne : x = y
      · subst hne
        simp [bisimilarUpTo_self]
      by_cases hnew : (x, y) ∈ visiting
      · exact ⟨fun _ => .inl ⟨x, y, rfl, rfl, hnew⟩, fun _ => .inl (.inr hnew)⟩
      rw [or_iff_right (not_or_intro hne hnew), equal_shape_iff hne, bisimilarUpTo_cons_iff hnew]
      have hpart (v w : Value) (hv : (h.get x).IsPart v) (hw : (h.get y).IsPart w) :=
        ih ((fresh_cons_lt (index_lt_of_isPart hv)
          (index_lt_of_isPart hw) hnew).trans_le (Nat.le_of_lt_succ hfuel)) v w
      exact ⟨Agrees.mono_parts fun v w hv hw => (hpart v w hv hw).mp,
        Agrees.mono_parts fun v w hv hw => (hpart v w hv hw).mpr⟩

theorem structurallyEqual_iff_bisimilar (h : Heap) (v w : Value) :
    h.structurallyEqual v w = true ↔ h.Bisimilar v w := by
  unfold structurallyEqual
  rw [structurallyEqualWithin_iff (Nat.lt_succ_of_le (h.fresh_le [])), bisimilarUpTo_nil]

/-- More steps than there are pairs of objects find nothing else. -/
theorem structurallyEqualWithin_of_lt {fuel : Nat} (hfuel : h.size * h.size < fuel)
    (v w : Value) : h.structurallyEqualWithin fuel [] v w = h.structurallyEqual v w := by
  rw [Bool.eq_iff_iff, structurallyEqual_iff_bisimilar,
    structurallyEqualWithin_iff ((h.fresh_le []).trans_lt hfuel), bisimilarUpTo_nil]

theorem equivalence_structurallyEqual (h : Heap) :
    Equivalence fun v w => h.structurallyEqual v w = true := by
  simp only [structurallyEqual_iff_bisimilar]
  exact ⟨.refl h, .symm, .trans⟩

end Heap

/-- The matcher for structural equality ends on every heap, whatever cycles it has, and passes
exactly if a bisimulation relates the values: its comparisons follow a well-founded order, and more
steps than it takes change nothing.  So it is an equivalence. -/
theorem Engine.check_toEqual_iff_bisimilar (engine : Engine) (m : Machine) :
    WellFounded m.heap.Enters ∧
      (∀ fuel v w, m.heap.size * m.heap.size < fuel →
        m.heap.structurallyEqualWithin fuel [] v w = m.heap.structurallyEqual v w) ∧
      (∀ v args, engine.check .toEqual v args m =
        .ok (m.heap.structurallyEqual v (Value.argument args 0)) m) ∧
      (∀ v w, m.heap.structurallyEqual v w = true ↔ m.heap.Bisimilar v w) ∧
      Equivalence fun v w => m.heap.structurallyEqual v w = true :=
  ⟨m.heap.wellFounded_enters, fun _ v w hfuel => Heap.structurallyEqualWithin_of_lt hfuel v w,
    fun _ _ => rfl, m.heap.structurallyEqual_iff_bisimilar, m.heap.equivalence_structurallyEqual⟩

end EcmaEval
