import EcmaEval.Library.Realm
import EcmaEval.Proofs.Conduct.Class

/-!
# Realms on sound machines

A new realm is made of new objects and new frames, so its frames may be given any names while its
library is installed.  A run in a realm of its own comes back to the one that it left.

## Main definitions

* `realmFacts`: what is known of a new realm
* `Law.Installs`: an action that adds to the library

## Main results

* `Law.leaves_newRealm`: a new realm
* `Law.installs_installLibrary`: the library of a realm
* `Law.ends_inNewRealm`: a run in a realm of its own
-/

namespace EcmaEval

variable {L : Law} {K : Knowledge}

/-! ## New realms -/

/-- What is known of a new realm: its frames take any names. -/
def realmFacts (r : Realm) : Set Fact :=
  facts r ∪ {f | ∃ name, f = .free r.globalFrame name ∨ f = .free r.programFrame name}

instance shown_realm (globalFrame programFrame : FrameId)
    (o₁ o₂ o₃ o₄ o₅ o₆ o₇ o₈ o₉ o₁₀ o₁₁ o₁₂ o₁₃ : ObjectId)
    [hframes : Shown K [globalFrame, programFrame]] [hglobal : Rooted K globalFrame]
    [hprogram : Rooted K programFrame]
    [hobjects : Shown K [o₁, o₂, o₃, o₄, o₅, o₆, o₇, o₈, o₉, o₁₀, o₁₁, o₁₂, o₁₃]] :
    Shown K (Realm.mk globalFrame programFrame o₁ o₂ o₃ o₄ o₅ o₆ o₇ o₈ o₉ o₁₀ o₁₁ o₁₂ o₁₃) :=
  .union rfl (Set.union_subset hframes.facts_subset hobjects.facts_subset)
    (Set.insert_subset_iff.mpr ⟨hglobal.known, Set.singleton_subset_iff.mpr hprogram.known⟩)

namespace Law

open EcmaEval.Action

instance (K : Knowledge) : Shown K constantsFrame := by
  unfold constantsFrame
  infer_instance

/-- A new realm. -/
theorem leaves_newRealm : L.Leaves K newRealm realmFacts := by
  have hderived (K : Knowledge) (p : ObjectId) (c : ObjectClass) [Shown K p] : L.Conducts K
      (Action.allocate { Object.new (some p) .ordinary with objectClass := c }) :=
    .allocate _ nofun
  unfold newRealm
  refine .after inferInstance fun objectPrototype => ?_
  dsimp only
  refine .after (hderived _ _ _) fun _ => .after (hderived _ _ _) fun _ =>
    .after (hderived _ _ _) fun _ => .after (hderived _ _ _) fun _ =>
    .after (hderived _ _ _) fun _ => .after (hderived _ _ _) fun _ =>
    .after (hderived _ _ _) fun _ => .after inferInstance fun _ =>
    .after inferInstance fun _ => .after inferInstance fun _ => .after inferInstance fun _ =>
    .after inferInstance fun _ => ?_
  refine (leaves_addFrame constantsFrame nofun).bind fun globalFrame => ?_
  change L.Leaves (Knowledge.inFrame _ globalFrame) _ _
  refine (leaves_addFrame { parent := some globalFrame, kind := .function } nofun).bind
    fun programFrame => ?_
  change L.Leaves (Knowledge.inFrame _ programFrame) _ _
  refine .pure (Set.union_subset (shown_realm ..).facts_subset ?_)
  rintro _ ⟨name, rfl | rfl⟩
  · exact (inferInstance : Free _ globalFrame name).known
  · exact (inferInstance : Free _ programFrame name).known

/-! ## Libraries -/

/-- The action conducts itself well while any name may be added to the library. -/
class Installs {α : Type} [HasFacts α] (L : Law) (K : Knowledge) (a : Action α) : Prop where
  ends : ∀ m, m.Meets L K → (∀ name, L.free m.realm.globalFrame name) →
    L.Ends K.hidden m facts (a m)

namespace Installs

variable {α β : Type} [HasFacts α] [HasFacts β] {a : Action α}

instance (priority := low) of_conducts [ha : L.Conducts K a] : L.Installs K a :=
  ⟨fun _ hm _ => ha.ends hm⟩

theorem bind {f : α → Action β} [ha : L.Installs K a] (hf : ∀ x, L.Installs (K.and x) (f x)) :
    L.Installs K (a >>= f) :=
  ⟨fun m hm hfree => (ha.ends m hm hfree).bind hm fun x m' hm' hstep =>
    (hf x).ends m' hm' (hstep.grows.realm ▸ hfree)⟩

instance {f : α → Action β} [L.Installs K a] [∀ x, L.Installs (K.and x) (f x)] :
    L.Installs K (a >>= f) :=
  bind inferInstance

theorem mono {K' : Knowledge} (h : L.Installs K a) (hknown : K.known ⊆ K'.known)
    (hhidden : K'.hidden = K.hidden) : L.Installs K' a := by
  obtain ⟨known', hidden'⟩ := K'
  cases hhidden
  exact ⟨fun m hm hfree => h.ends m ⟨hm.sound, hknown.trans hm.known⟩ hfree⟩

instance {γ : Type} (xs : List γ) (f : γ → Action (ForInStep PUnit))
    [hf : ∀ x, L.Installs K (f x)] : L.Installs K (forIn xs PUnit.unit fun x _ => f x) := by
  induction xs generalizing K with
  | nil =>
    rw [List.forIn_nil]
    infer_instance
  | cons x xs ih =>
    rw [List.forIn_cons]
    refine bind fun step => ?_
    cases step with
    | done s => exact inferInstanceAs (L.Installs _ (pure s))
    | yield s =>
      have (y : γ) : L.Installs (K.and (ForInStep.yield s)) (f y) :=
        (hf y).mono Set.subset_union_left rfl
      exact ih

/-! ### Parts of the library -/

instance (name : String) (value : Value) [Shown K value] :
    L.Installs K (declareGlobal name value) :=
  ⟨fun _ hm hfree => .ok (.declareVariable hm (.inr (hfree name)) value)
    (Conducts.subset_of_plain _ _)⟩

instance (target : ObjectId) (fs : List Builtin) [Shown K target] :
    L.Conducts K (installMethods target fs) := by
  unfold installMethods
  infer_instance

instance (constants : List (String × Float)) : Object.Tame fun o =>
    constants.foldl (fun o (name, x) => o.define name (.fixed (.number x))) o := by
  constructor
  · intro o
    induction constants generalizing o with
    | nil => exact .refl o
    | cons c rest ih => exact (Object.Like.define o c.1 _).trans (ih _)
  · intro o hlong
    induction constants generalizing o with
    | nil => exact hlong
    | cons c rest ih => exact (ih hlong).of_define

instance (constants : List (String × Float)) (o : Object) [ho : Shown K o] : Shown K
    (constants.foldl (fun o (name, x) => o.define name (.fixed (.number x))) o) := by
  induction constants generalizing o with
  | nil => exact ho
  | cons c rest ih => exact ih _

instance (target : ObjectId) (constants : List (String × Float)) :
    L.Conducts K (installConstants target constants) := by
  unfold installConstants
  infer_instance

instance (f : Builtin) (prototype : ObjectId) [Shown K prototype] :
    L.Installs K (installConstructor f prototype) := by
  unfold installConstructor
  infer_instance

instance (key key' : String) (value value' : Value) :
    Object.Tame fun o => (o.insertHidden key value).insertHidden key' value' :=
  ⟨fun o => (Object.Like.define o key _).trans (Object.Like.define _ key' _),
    fun h => h.of_define.of_define⟩

instance (kind : ErrorKind) : L.Installs K (installError kind) := by
  unfold installError
  infer_instance

/-- The constructor of a kind of errors is a new object. -/
theorem installError_new (kind : ErrorKind) (m : Machine) :
    ∃ id m', installError kind m = .ok id m' ∧ m.heap.size ≤ id.index ∧
      m.heap.Spares m'.heap := by
  refine ⟨_, _, rfl, ?_, ?_⟩
  · exact (m.heap.size_modify _ _).ge
  · refine .trans (.modify m.heap _ _) (.trans (.allocate _ _) (.trans (.modify _ _ _) (.modify _ _ _)))

/-- The constructor of a special kind of errors inherits from the general one, which is older. -/
theorem installDerivedError (kind : ErrorKind) (base : ObjectId) [Shown K base] :
    L.Installs K (do
      let id ← installError kind
      modifyObject id ({ · with prototype := some base })) := by
  refine ⟨fun m hm hfree => ?_⟩
  have hend : L.Ends K.hidden m facts (installError kind m) :=
    (inferInstance : L.Installs K (installError kind)).ends m hm hfree
  obtain ⟨id, m', hrun, hid, hspares⟩ := installError_new kind m
  rw [Discipline.bind_apply, hrun]
  rw [hrun] at hend
  obtain ⟨hstep, hx⟩ := hend
  have hbase : _ ∧ _ := hm.facts_subset base (.inl rfl)
  have hmono := Machine.granted_mono hm.sound hstep.grows
  exact .of_step hstep (.ok (.setPrototype_of_spares hstep.sound hm.sound.closed hspares hid hbase.1
    ((hm.facts_subset base).trans hmono)) (Conducts.subset_of_plain _ _))

instance : L.Installs K installErrors := by
  unfold installErrors
  refine bind fun base => bind fun prototype => bind fun u => ?_
  have (kind : ErrorKind) : L.Installs (((K.and base).and prototype).and u) (do
      let id ← installError kind
      modifyObject id ({ · with prototype := some base })
      return ForInStep.yield PUnit.unit) := by
    have := installDerivedError (L := L) (K := ((K.and base).and prototype).and u) kind base
    rw [← bind_assoc]
    infer_instance
  infer_instance

/-! ### The library -/

instance : L.Installs K installObject := by
  unfold installObject
  infer_instance

instance : L.Installs K installFunction := by
  unfold installFunction
  infer_instance

instance : L.Installs K installArray := by
  unfold installArray
  infer_instance

instance : L.Installs K installString := by
  unfold installString
  infer_instance

instance : L.Installs K installNumber := by
  unfold installNumber
  infer_instance

instance : L.Installs K installBoolean := by
  unfold installBoolean
  infer_instance

instance : L.Installs K installInteger := by
  unfold installInteger
  infer_instance

instance : L.Installs K installMath := by
  unfold installMath
  infer_instance

instance : L.Installs K installGlobals := by
  unfold installGlobals
  infer_instance

instance : L.Installs K installPromise := by
  unfold installPromise
  infer_instance

instance : L.Installs K installConsole := by
  unfold installConsole
  infer_instance

instance : L.Installs K installLibrary := by
  unfold installLibrary
  infer_instance

end Installs

end Law

/-! ## Runs in a realm of their own -/

/-- The machine may enter a realm that is there. -/
theorem Machine.Sound.enter {hidden : Set ObjectId} {m : Machine} (hm : m.Sound L hidden)
    {realm : Realm} (hrealm : facts realm ⊆ m.granted L hidden) :
    ({ m with realm } : Machine).Sound L hidden :=
  hm.withRegisters rfl rfl hrealm hm.signal hm.newTarget

/-- A step that was made in another realm, behind one that led there. -/
theorem Law.Step.inRealm {hidden : Set ObjectId} {m m₁ m' : Machine} {mayStop : Prop} {r : Realm}
    (hm : m.Sound L hidden) (h : L.Step hidden mayStop m m₁)
    (h' : L.Step hidden mayStop { m₁ with realm := r } m') :
    L.Step hidden mayStop m { m' with realm := m.realm } := by
  have henter : L.Extends m₁ { m₁ with realm := r } := .of_eq rfl rfl
  have hleave : L.Extends { m₁ with realm := r } { m' with realm := m.realm } :=
    h'.grows.toExtends.trans (.of_eq rfl rfl)
  have hlengthens : L.Lengthens { m₁ with realm := r } { m' with realm := m.realm } :=
    .trans h'.grows.toExtends (.of_eq rfl rfl) h'.grows.lengthens (.of_eq rfl)
  have hgrows : L.Grows m { m' with realm := m.realm } := by
    refine ⟨h.grows.toExtends.trans (henter.trans hleave), fun hid => ?_, rfl,
      .trans h.grows.toExtends (henter.trans hleave) h.grows.lengthens
        (.trans henter hleave (.of_eq rfl) hlengthens), h.grows.arrays.trans h'.grows.arrays,
      h.grows.functions.trans h'.grows.functions⟩
    exact (h.grows.persists hid).trans (h'.grows.persists (hid.trans_le h.grows.frames.size_le))
  have hrealm : facts m.realm ⊆ m'.granted L hidden :=
    (hm.realm.trans (Machine.granted_mono hm hgrows)).trans (Machine.granted_eq rfl rfl).subset
  exact ⟨h'.sound.enter hrealm, hgrows,
    .trans h.grows.leads h'.grows.leads h.settles h'.settles⟩

namespace Law

open EcmaEval.Action

section Enter

variable {α : Type} {a : Action α} {m m₁ : Machine}

theorem enterNewRealm_bind_of_ok {r : Realm} (h : newRealm m = .ok r m₁) :
    (enterNewRealm >>= fun _ => a) m = (installLibrary >>= fun _ => a) { m₁ with realm := r } := by
  simp only [enterNewRealm, Discipline.bind_apply, h]
  -- The library is not looked into.
  generalize installLibrary = library
  rfl

theorem enterNewRealm_of_ok {r : Realm} (h : newRealm m = .ok r m₁) :
    enterNewRealm m = installLibrary { m₁ with realm := r } := by
  have hbind := enterNewRealm_bind_of_ok (a := pure ()) h
  rwa [bind_pure_unit, bind_pure_unit] at hbind

theorem enterNewRealm_bind_of_error {e : Abrupt} (h : newRealm m = .error e m₁) :
    (enterNewRealm >>= fun _ => a) m = .error e m₁ := by
  simp only [enterNewRealm, Discipline.bind_apply, h]

end Enter

/-- An action that runs in a new realm with its library. -/
theorem ends_inNewRealm {α : Type} [HasFacts α] {a : Action α} {m : Machine} (hm : m.Meets L K)
    (ha : ∀ m', m'.Meets L (K.plus (realmFacts m'.realm)) → L.Ends K.hidden m' facts (a m')) :
    L.Ends K.hidden m facts (inNewRealm a m) := by
  let inner : Machine :=
    { m with options := {}, signal := none, newTarget := none, joining := [], tests := {} }
  have hinner : inner.Meets L K :=
    ⟨hm.sound.withRegisters rfl rfl hm.sound.realm (Set.empty_subset _) (Set.empty_subset _),
      hm.known⟩
  have hback {mayStop : Prop} {m' : Machine}
      (h : L.Step K.hidden mayStop inner { m' with realm := m.realm }) :
      L.Step K.hidden mayStop m { m' with
        realm := m.realm, options := m.options, signal := m.signal, newTarget := m.newTarget,
        joining := m.joining, tests := m.tests } :=
    .putBack hm.sound h rfl rfl rfl rfl rfl (hm.sound.signal.trans Set.subset_union_left)
      (hm.sound.newTarget.trans Set.subset_union_left)
  have hrealm : L.Ends K.hidden inner realmFacts (newRealm inner) := leaves_newRealm inner hinner
  unfold inNewRealm
  dsimp only
  cases hnew : newRealm inner with
  | error e m₁ =>
    rw [hnew] at hrealm
    rw [enterNewRealm_bind_of_error hnew]
    obtain ⟨hstep, he⟩ | ⟨hstep, he⟩ := hrealm
    exact .error (hback (hstep.trans (.withRegisters hstep.sound rfl rfl hstep.grows.realm.symm
      hstep.sound.signal hstep.sound.newTarget))) he
  | ok r m₁ =>
    rw [hnew] at hrealm
    rw [enterNewRealm_bind_of_ok hnew]
    obtain ⟨hstep, hr⟩ := hrealm
    have hm₁ : ({ m₁ with realm := r } : Machine).Meets L (K.plus (realmFacts r)) :=
      ⟨hstep.sound.enter (Set.subset_union_left.trans hr), (hinner.plus hstep hr).known⟩
    have hfree (name : String) : L.free r.globalFrame name := hr (.inr ⟨name, .inl rfl⟩)
    have hlibrary : L.Installs (K.plus (realmFacts r)) installLibrary := inferInstance
    have hend := (hlibrary.ends _ hm₁ hfree).bind hm₁ (f := fun _ => a) fun _ m₂ hm₂ hstep₂ => by
      have hsame : m₂.realm = r := hstep₂.grows.realm
      exact ha m₂ (hsame.symm ▸ ⟨hm₂.sound, Set.subset_union_left.trans hm₂.known⟩)
    generalize (installLibrary >>= fun _ => a) { m₁ with realm := r } = result at hend ⊢
    cases hend with
    | ok hstep' hx => exact .ok (hback (.inRealm hinner.sound hstep hstep')) hx
    | error hstep' he => exact .error (hback (.inRealm hinner.sound (hstep.mono .inl) hstep')) he

end Law

end EcmaEval
