import EcmaEval.Proofs.Syntax.Admitted

/-!
# Patterns, functions, classes and literals

What the readers of patterns, functions, classes and compound literals give, when the readers of the
phrases inside give admitted trees.

## Main results

* `Grammar.gives_pattern`, `Grammar.gives_parameters`: patterns are admitted
* `Grammar.gives_functionRest`: a function is admitted in the surroundings of its own
* `Grammar.gives_classNode`: a class is admitted, and has at most one constructor
* `Grammar.gives_template`: a template has one text more than substitutions
-/

namespace EcmaEval.Grammar

open Parse

variable {inner : Phrases} (h : inner.Sound) (c : Context)
include h

/-! ## Patterns and keys -/

theorem gives_propertyKey : (propertyKey inner).Gives c fun key =>
    Site.All Site.Read (c.surroundings.propertyKey key) := by
  unfold propertyKey
  refine .next fun token => ?_
  split
  -- A computed key; each other key is a name or a number.
  case h_1 =>
    refine .next fun _ => (Gives.withIn (h.assignment _)).bind fun key hkey => ?_
    exact .next fun _ => .pure (Site.all_singleton.mpr hkey)
  case h_9 => exact .unexpected
  all_goals exact .next fun _ => .pure Site.all_nil

theorem gives_defaulted {target : Pattern} (htarget : c.Admits (.pattern target)) :
    (defaulted inner target).Gives c fun p => c.Admits (.pattern p) := by
  refine .next fun assigned => ?_
  split
  · refine (Gives.withIn (h.assignment _)).bind fun value hvalue => ?_
    exact .pure (htarget.withDefault hvalue)
  · exact .pure htarget

theorem gives_patternElement : (patternElement inner).Gives c fun element =>
    ∀ p ∈ element, c.Admits (.pattern p) := by
  unfold patternElement
  refine .next fun empty => ?_
  split
  · exact .pure fun _ hp => absurd hp (Option.not_mem_none _)
  refine .next fun spread => ?_
  split
  · refine (h.pattern c).bind fun target htarget => .next fun last => ?_
    split
    · exact .pure fun _ hp => Option.some.inj hp ▸ htarget.rest
    · exact .unexpected_bind
  · refine (h.pattern c).bind fun target htarget => ?_
    refine (gives_defaulted h c htarget).bind fun p hp => ?_
    exact .next fun _ => .pure fun _ hq => Option.some.inj hq ▸ hp

theorem gives_patternMember : (patternMember inner).Gives c fun m =>
    Site.All Site.Read (c.surroundings.patternMember m) := by
  unfold patternMember
  refine .next fun spread => ?_
  split
  · exact .fail_bind
  refine .next fun shorthand => (gives_propertyKey h c).bind fun key hkey => .next fun colon => ?_
  -- The target may come from a pattern or from the key itself.
  have hmember : ∀ target, c.Admits (.pattern target) →
      Gives (do separator .rightBrace; pure ⟨key, target⟩) c fun m =>
        Site.All Site.Read (c.surroundings.patternMember m) := fun target htarget =>
    .next fun _ => .pure (Site.all_append.mpr ⟨hkey, Site.all_singleton.mpr htarget⟩)
  split
  · exact (h.pattern c).bind fun target htarget => (gives_defaulted h c htarget).bind hmember
  · split
    · exact (gives_defaulted h c (.identifierPattern _)).bind hmember
    · exact .unexpected_bind

/-- A binding target. -/
theorem gives_pattern : (pattern inner).Gives c fun p => c.Admits (.pattern p) := by
  unfold pattern
  refine .next fun name => ?_
  split
  · exact .pure (.identifierPattern _)
  refine .next fun array => ?_
  split
  · exact ((gives_patternElement h c).untilMark _).bind fun _ hps => .pure (.arrayPattern hps)
  refine .next fun object => ?_
  split
  · exact ((gives_patternMember h c).untilMark _).bind fun _ hms => .pure (.objectPattern hms)
  · exact .unexpected

theorem gives_parameter : (parameter inner).Gives c fun p => c.Admits (.pattern p) := by
  unfold parameter
  refine .next fun spread => ?_
  split
  · refine (h.pattern c).bind fun target htarget => .next fun last => ?_
    split
    · exact .pure htarget.rest
    · exact .fail_bind
  · refine (h.pattern c).bind fun target htarget => ?_
    refine (gives_defaulted h c htarget).bind fun p hp => ?_
    exact .next fun _ => .pure hp

/-- The parameters of a function. -/
theorem gives_parameters : (parameters inner).Gives c fun ps =>
    ∀ p ∈ ps, c.Admits (.pattern p) :=
  .next fun _ => (gives_parameter h c).untilMark _

/-! ## Functions -/

theorem gives_block : (block inner).Gives c fun body =>
    ∀ s ∈ body, c.Admits (.statement s) :=
  .next fun _ => (h.item c).untilMark _

theorem gives_bodyBlock : (bodyBlock inner).Gives c fun body =>
    ∀ s ∈ body, c.Admits (.statement s) :=
  .withIn (gives_block h _)

/-- A function that is not an arrow, in the surroundings of its own. -/
theorem gives_functionRest (name : Option String)
    (isAsync isGenerator superProperty superCall : Bool) :
    (functionRest inner name isAsync isGenerator superProperty superCall).Gives c fun f =>
      Site.All Site.Read (c.surroundings.ownFunction superProperty superCall f) := by
  refine .within ((gives_parameters h _).bind fun params hparams => ?_)
  refine (gives_bodyBlock h _).bind fun body hbody => .pure (Site.all_append.mpr ?_)
  exact ⟨Site.all_map.mpr hparams, Site.all_map.mpr hbody⟩

theorem gives_functionDeclaration (isAsync : Bool) :
    (functionDeclaration inner isAsync).Gives c fun s =>
      c.Admits (.statement s) ∧ s.isLoop = false ∧ s.declared = [] := by
  refine .next fun _ => .next fun isGenerator => .next fun name => ?_
  refine (gives_functionRest h c _ _ _ _ _).bind fun f hf => ?_
  exact .pure ⟨.leaf ⟨trivial, trivial⟩ hf rfl, rfl, rfl⟩

theorem gives_functionExpression (isAsync : Bool) :
    (functionExpression inner isAsync).Gives c fun e => c.Admits (.expression e) := by
  refine .next fun _ => .next fun isGenerator => .next fun name => ?_
  refine (gives_functionRest h c _ _ _ _ _).bind fun f hf => ?_
  exact .pure (.intro ⟨trivial, trivial⟩ hf)

omit h in
instance : Passes isModifier := by
  unfold isModifier
  infer_instance

omit h in
/-- No word announces a constructor, which has its key only. -/
theorem gives_skipAccessor : skipAccessor.Gives c (· ≠ .constructor) := by
  refine .next fun token => ?_
  split
  · next kind hkind =>
    have hkind : kind ≠ .constructor := by
      rintro rfl
      unfold accessorWord? at hkind
      split at hkind <;> cases hkind
    refine .next fun modifier => ?_
    split
    · exact .next fun _ => .pure hkind
    · exact .pure nofun
  · exact .pure nofun

/-! ## Classes -/

theorem gives_fieldValue : (fieldValue inner).Gives c fun e =>
    ((c.surroundings.ownBody true false).expression e).Every Site.Read :=
  .within (.withIn (h.assignment _))

theorem gives_staticBlock (derived : Bool) : (staticBlock inner).Gives c fun element =>
    Site.All Site.Read (c.surroundings.classElement derived element) :=
  .within ((gives_bodyBlock h _).bind fun _ hbody => .pure (Site.all_map.mpr hbody))

theorem gives_classMethod (derived isStatic isAsync isGenerator : Bool) {kind : MethodKind}
    (hkind : kind ≠ .constructor) {key : PropertyKey}
    (hkey : Site.All Site.Read (c.surroundings.propertyKey key)) :
    (classMethod inner derived isStatic isAsync isGenerator kind key).Gives c fun element =>
      Site.All Site.Read (c.surroundings.classElement derived element) := by
  unfold classMethod
  extract_lets constructed checked
  -- A constructor may call the parent only if there is one.
  have hconstructed : (constructed ()).Gives c fun element =>
      Site.All Site.Read (c.surroundings.classElement derived element) := by
    refine (gives_functionRest h c _ _ _ _ _).bind fun f hf => .pure ?_
    exact Site.all_append.mpr ⟨hkey, by simpa using hf⟩
  have hchecked : (checked ()).Gives c fun element =>
      Site.All Site.Read (c.surroundings.classElement derived element) := by
    unfold checked
    split
    · exact .fail_bind
    · exact hconstructed
  split
  · split
    · exact hchecked
    · exact .fail_bind
  · refine (gives_functionRest h c _ _ _ _ _).bind fun f hf => .pure ?_
    exact Site.all_append.mpr ⟨hkey, by simpa [hkind] using hf⟩

theorem gives_classField (derived isStatic : Bool) {key : PropertyKey}
    (hkey : Site.All Site.Read (c.surroundings.propertyKey key)) :
    (classField inner isStatic key).Gives c fun element =>
      Site.All Site.Read (c.surroundings.classElement derived element) := by
  unfold classField
  extract_lets close named
  -- A field ends alike with a value and without one.
  have hclose : ∀ value : Option Expression,
      (∀ e ∈ value, ((c.surroundings.ownBody true false).expression e).Every Site.Read) →
      (close value).Gives c fun element =>
        Site.All Site.Read (c.surroundings.classElement derived element) := fun value hvalue =>
    .next fun _ => .pure (Site.all_append.mpr ⟨hkey, by simpa using hvalue⟩)
  split
  · exact .fail_bind
  · refine .next fun assigned => ?_
    split
    · exact Gives.some_bind (gives_fieldValue h c) hclose
    · exact Gives.none_bind hclose

omit h in
instance : Passes skipAsync := by
  unfold skipAsync
  infer_instance

theorem gives_classMember (derived isStatic : Bool) :
    (classMember inner derived isStatic).Gives c fun element =>
      Site.All Site.Read (c.surroundings.classElement derived element) := by
  refine .next fun isAsync => .next fun isGenerator => ?_
  extract_lets keyed
  -- The key follows whatever words have announced the kind.
  have hkeyed : ∀ kind, kind ≠ .constructor → (keyed kind).Gives c fun element =>
      Site.All Site.Read (c.surroundings.classElement derived element) := by
    intro kind hkind
    refine (gives_propertyKey h c).bind fun key hkey => .next fun called => ?_
    split
    · exact gives_classMethod h c _ _ _ _ hkind hkey
    · split
      · exact .unexpected
      · exact gives_classField h c _ _ hkey
  split
  · exact Gives.bind (.pure nofun) hkeyed
  · exact (gives_skipAccessor c).bind hkeyed

theorem gives_classElement (derived : Bool) :
    (classElement inner derived).Gives c fun element =>
      Site.All Site.Read (c.surroundings.classElement derived element) := by
  unfold classElement
  refine .next fun isStatic => ?_
  split
  · refine .next fun modifier => ?_
    split
    · refine .next fun _ => .next fun block => ?_
      split
      · exact gives_staticBlock h c _
      · exact gives_classMember h c _ _
    · exact gives_classMember h c _ _
  · exact gives_classMember h c _ _

/-- The elements behind a constructor have none. -/
theorem gives_classElements (derived hasConstructor : Bool) (fuel : Nat) :
    (classElements inner derived hasConstructor fuel).Gives c fun elements =>
      (∀ element ∈ elements,
        Site.All Site.Read (c.surroundings.classElement derived element)) ∧
      (elements.filter isConstructor).length ≤ if hasConstructor then 0 else 1 := by
  -- Induction on the number of elements that may still come, with what was seen before them.
  induction fuel generalizing hasConstructor with
  | zero => exact .fail
  | succ fuel ih =>
    unfold classElements
    refine .next fun close => ?_
    split
    · exact .pure ⟨List.forall_mem_nil _, Nat.zero_le _⟩
    refine .next fun empty => ?_
    split
    · exact ih hasConstructor
    refine (gives_classElement h c derived).bind fun element helement => ?_
    extract_lets rest
    have hrest : ¬(isConstructor element && hasConstructor) = true →
        (rest ()).Gives c fun elements => (∀ element ∈ elements,
          Site.All Site.Read (c.surroundings.classElement derived element)) ∧
        (elements.filter isConstructor).length ≤ if hasConstructor then 0 else 1 := by
      intro hfirst
      refine (ih _).bind fun others hothers => .pure ?_
      refine ⟨List.forall_mem_cons.mpr ⟨helement, hothers.1⟩, ?_⟩
      -- If this element is the constructor, then none was seen before and none may follow.
      have hcount := hothers.2
      cases hasConstructor <;> cases hc : isConstructor element <;> simp_all
    split
    · exact .fail_bind
    · next hfirst => exact hrest hfirst

/-- A class. -/
theorem gives_classNode (isDeclaration : Bool) :
    (classNode inner isDeclaration).Gives c fun k => c.Admits (.class k) := by
  refine .next fun _ => ?_
  extract_lets headed
  have hheaded : ∀ name, (headed name).Gives c fun k => c.Admits (.class k) := by
    intro name
    unfold headed
    refine .next fun derived => ?_
    extract_lets elements
    have helements : ∀ heritage : Option Expression,
        (∀ e ∈ heritage, c.Admits (.expression e)) →
        (elements heritage).Gives c fun k => c.Admits (.class k) := by
      intro heritage hheritage
      refine .next fun _ => (gives_classElements h c _ false _).bind fun body hbody => .pure ?_
      refine .intro ⟨hbody.2, trivial⟩ (Site.all_append.mpr ⟨?_, Site.all_flatMap.mpr hbody.1⟩)
      exact Site.all_map.mpr fun e he => hheritage e (by simpa using he)
    split
    · exact .next fun _ => Gives.some_bind (h.operand c) helements
    · exact Gives.none_bind helements
  split
  · exact .next hheaded
  · exact .next hheaded

/-! ## Compound literals -/

theorem gives_spreadable : (spreadable inner).Gives c c.AdmitsElement := by
  unfold spreadable
  refine .next fun spread => ?_
  split
  · exact (h.assignment c).bind fun e he => .pure he
  · exact (h.assignment c).mono fun e he => he.element

/-- The arguments of a call. -/
theorem gives_arguments : (arguments inner).Gives c fun args =>
    ∀ e ∈ args, c.AdmitsElement e := by
  refine .next fun _ => .withIn (Gives.untilMark ?_ _)
  exact (gives_spreadable h _).bind fun e he => .next fun _ => .pure he

theorem gives_arrayElement : (arrayElement inner).Gives c fun element =>
    ∀ e ∈ element, c.AdmitsElement e := by
  unfold arrayElement
  refine .next fun empty => ?_
  split
  · exact .pure nofun
  · exact (gives_spreadable h c).bind fun e he => .next fun _ =>
      .pure fun e' he' => Option.some.inj he' ▸ he

theorem gives_arrayLiteral : (arrayLiteral inner).Gives c fun e => c.Admits (.expression e) := by
  refine .next fun _ => Gives.bind (.withIn ((gives_arrayElement h _).untilMark _)) ?_
  refine fun elements helements => .pure (.intro ⟨trivial, trivial⟩ ?_)
  refine Site.all_map.mpr fun e he => ?_
  obtain ⟨element, hmem, rfl⟩ := List.mem_filterMap.mp he
  exact helements _ hmem e rfl

/-- A member of an object literal whose value has the shape that its kind asks for. -/
def MemberAdmitted (c : Context) (m : ObjectMember) : Prop :=
  Site.All Site.Read (c.surroundings.objectMember m) ∧
    (m.kind = .value ∨ m.kind = .spread ∨ ∃ f, m.value = .function f)

theorem gives_keyedMember (isAsync isGenerator : Bool) (kind : MethodKind) :
    (keyedMember inner isAsync isGenerator kind).Gives c (MemberAdmitted c) := by
  unfold keyedMember
  refine .next fun shorthand => (gives_propertyKey h c).bind fun key hkey => .next fun called => ?_
  have hvalue : ∀ e b, c.Admits (.expression e) → MemberAdmitted c ⟨.value, key, e, b⟩ :=
    fun e b he => ⟨Site.all_append.mpr ⟨hkey, Site.all_singleton.mpr he⟩, .inl rfl⟩
  split
  · refine (gives_functionRest h c _ _ _ _ _).bind fun f hf => .pure ?_
    refine ⟨Site.all_append.mpr ⟨hkey, ?_⟩, .inr (.inr ⟨f, rfl⟩)⟩
    cases kind <;> exact hf
  extract_lets plain
  have hplain : (plain ()).Gives c (MemberAdmitted c) := by
    refine .next fun colon => ?_
    split
    · exact (h.assignment c).bind fun e he => .pure (hvalue e _ he)
    · split
      · exact .unexpected
      · refine .next fun assigned => ?_
        split
        · exact .fail_bind
        · exact .pure (hvalue _ _ (.identifier _))
  split
  · exact .unexpected_bind
  · exact hplain

theorem gives_objectMember : (objectMember inner).Gives c (MemberAdmitted c) := by
  unfold objectMember
  refine .next fun spread => ?_
  split
  · refine (h.assignment c).bind fun e he => .pure ⟨?_, .inr (.inl rfl)⟩
    exact Site.all_append.mpr ⟨Site.all_nil, Site.all_singleton.mpr he⟩
  refine .next fun async => ?_
  extract_lets modified
  have hmodified : ∀ isAsync, (modified isAsync).Gives c (MemberAdmitted c) := by
    intro isAsync
    unfold modified
    extract_lets starred
    have hstarred : (starred ()).Gives c (MemberAdmitted c) := by
      refine .next fun isGenerator => ?_
      extract_lets keyed
      have hkeyed : ∀ kind, (keyed kind).Gives c (MemberAdmitted c) :=
        gives_keyedMember h c _ _
      split
      · exact .next hkeyed
      · exact (gives_skipAccessor c).bind fun kind _ => hkeyed kind
    split
    · exact .next fun _ => hstarred
    · exact hstarred
  split
  · exact .next hmodified
  · exact .next hmodified

theorem gives_objectLiteral : (objectLiteral inner).Gives c fun e => c.Admits (.expression e) := by
  have hmember (c : Context) : Gives (do
      let m ← objectMember inner
      separator .rightBrace
      return m) c (MemberAdmitted c) :=
    (gives_objectMember h c).bind fun m hm => .next fun _ => .pure hm
  refine .next fun _ => Gives.bind (.withIn ((hmember _).untilMark _)) fun members hmembers => ?_
  refine .pure (.intro ⟨trivial, fun m hm => (hmembers m hm).2⟩ ?_)
  exact Site.all_flatMap.mpr fun m hm => (hmembers m hm).1

theorem gives_substitutions (fuel : Nat) : (substitutions inner fuel).Gives c fun (texts, values) =>
    texts.length = values.length ∧ ∀ e ∈ values, c.Admits (.expression e) := by
  induction fuel with
  | zero => exact .fail
  | succ fuel ih =>
    refine .next fun _ => (Gives.withIn (h.expression _)).bind fun value hvalue => ?_
    refine .next fun closed => ?_
    extract_lets continued
    -- Behind the closing brace the text goes on, up to the next substitution or the end.
    have hcontinued : (continued ()).Gives c fun (texts, values) =>
        texts.length = values.length ∧ ∀ e ∈ values, c.Admits (.expression e) := by
      refine (gives_special fun _ _ _ => Lexer.lexed_readTemplateContinuation).bind
        fun token htoken => ?_
      split
      · refine (gives_replaceCurrent htoken).bind fun _ _ => ih.bind fun (texts, values) hrest => ?_
        exact .pure ⟨by simp [hrest.1], List.forall_mem_cons.mpr ⟨hvalue, hrest.2⟩⟩
      · exact .next fun _ => .pure ⟨rfl, List.forall_mem_cons.mpr ⟨hvalue, nofun⟩⟩
      · exact .unexpected
    split
    · exact hcontinued
    · exact .unexpected_bind

/-- A template has one text more than substitutions. -/
theorem gives_template : (template inner).Gives c fun (texts, values) =>
    texts.length = values.length + 1 ∧ ∀ e ∈ values, c.Admits (.expression e) := by
  unfold template
  refine .next fun token => ?_
  split
  · exact .next fun _ => .pure ⟨rfl, List.forall_mem_nil _⟩
  · refine (gives_substitutions h c _).bind fun found hfound => ?_
    exact .pure ⟨by simp [hfound.1], hfound.2⟩
  · exact .unexpected

end EcmaEval.Grammar
