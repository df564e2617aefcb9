import EcmaEval.Proofs.Placement.Fitting
import EcmaEval.Proofs.Syntax.Parts
import EcmaEval.Grammar.Statement
import EcmaEval.Proofs.Syntax.Pairing

/-!
# Returns outside of all functions

A `return` is stray if it is neither in the body of a function nor in a static block.  A tree that a
stray `return` is read as a part of has that `return` in it, however deep it stands, so that what is
read around it can tell.

A context is relaxed by letting programs return.  A reader relaxes with it if it reads in the relaxed
context what it reads in the context, and reads nothing else there unless a stray `return` is in it.
Inside of a function it reads the same in both.

A reader goes on behind a stray `return` that was read before.  So the judgement is about what
may have been read already, and says that it is in what the reader gives.

## Main definitions

* `Bearer`: values that hold statements
* `Stray`: a value has a stray `return` in it
* `Stray.Bears`: a value has a stray `return` in it if something is so
* `Program.ReturnsInside`: a program without stray `return`s
* `Context.relaxed`: the context where programs may return
* `Parse.Relaxes`: a reader reads the same in the relaxed context, up to stray `return`s
* `Parse.ReadsAlike`: a reader inside of a function reads the same in the relaxed context
* `Phrases.Relaxing`: the readers of all phrases relax

## Main results

* `Parse.Relaxes.bind`: readers in sequence relax
-/

namespace EcmaEval

/-- The site is a `return` outside of all functions and static blocks. -/
def Site.IsStrayReturn (t : Site) : Prop :=
  t.Outside ∧ ∃ value, t.node = .statement (.return value)

/-- A stray `return` is at the site or below it. -/
def Site.Strays (t : Site) : Prop := ∃ u, t.Contains u ∧ u.IsStrayReturn

theorem Site.Strays.of_part {t u : Site} (part : u ∈ t.parts) (h : u.Strays) : t.Strays :=
  let ⟨v, hv, hstray⟩ := h
  ⟨v, .step part hv, hstray⟩

/-- Each `return` is in the body of a function or in a static block. -/
def Program.ReturnsInside (p : Program) : Prop :=
  p.Every { returnOutsideFunction := false } fun t => ¬t.IsStrayReturn

/-! ## Values that hold statements -/

/-- Values that hold statements which are in no function of the value. -/
class Bearer (α : Type) where
  sites : Surroundings → α → List Site

namespace Bearer

/-- Most values hold no statements at all.  The statements of an expression are in its functions. -/
instance (priority := low) none {α : Type} : Bearer α := ⟨fun _ _ => []⟩

instance : Bearer Statement := ⟨fun c s => [c.statement s]⟩
instance : Bearer CatchClause := ⟨Surroundings.handler⟩
instance : Bearer SwitchCase := ⟨Surroundings.switchCase⟩
instance : Bearer Program := ⟨fun c p => p.body.map c.statement⟩

variable {α : Type} [Bearer α]

instance : Bearer (List α) := ⟨fun c => List.flatMap (sites c)⟩
instance : Bearer (Option α) := ⟨fun c x => x.toList.flatMap (sites c)⟩

end Bearer

/-- A stray `return` is in the value, wherever the value stands outside of all functions. -/
def Stray {α : Type} [Bearer α] (x : α) : Prop :=
  ∀ c : Surroundings, c.mayReturn = false → ∃ t ∈ Bearer.sites c x, t.Strays

/-- Values that hold no statements. -/
class Barren (α : Type) [Bearer α] : Prop where
  sites_eq_nil : ∀ c, ∀ x : α, Bearer.sites c x = []

namespace Barren

instance (priority := low) none {α : Type} : @Barren α .none :=
  @Barren.mk α .none fun _ _ => rfl

variable {α : Type} [Bearer α] [h : Barren α]

instance : Barren (List α) :=
  ⟨fun c _ => List.flatMap_eq_nil_iff.mpr fun x _ => h.sites_eq_nil c x⟩

instance : Barren (Option α) :=
  ⟨fun c _ => List.flatMap_eq_nil_iff.mpr fun x _ => h.sites_eq_nil c x⟩

theorem not_stray (x : α) : ¬Stray x := by
  intro hx
  obtain ⟨t, ht, -⟩ := hx {} rfl
  rw [h.sites_eq_nil] at ht
  cases ht

end Barren

namespace Stray

variable {α β : Type} [Bearer α] [Bearer β] {stray : Prop}

/-- What is right inside of a statement, in surroundings that are in no more functions. -/
theorem statement {x : α} {s : Statement} (change : Surroundings → Surroundings)
    (hparts : ∀ c, Bearer.sites (change c) x ⊆ Site.parts (c.statement s))
    (hchange : ∀ c, (change c).mayReturn = c.mayReturn) (h : Stray x) : Stray s := by
  intro c hc
  obtain ⟨t, ht, hstrays⟩ := h (change c) ((hchange c).trans hc)
  exact ⟨_, .head _, hstrays.of_part (hparts c ht)⟩

/-- What is held by what a value holds. -/
theorem holder {x : α} {y : β} (hsites : ∀ c, Bearer.sites c x ⊆ Bearer.sites c y) (h : Stray x) :
    Stray y := by
  intro c hc
  obtain ⟨t, ht, hstrays⟩ := h c hc
  exact ⟨t, hsites c ht, hstrays⟩

theorem «return» (value : Option Expression) : Stray (Statement.return value) :=
  fun c hc => ⟨_, .head _, c.statement (.return value), .refl _, hc, value, rfl⟩

/-! ## Values that are stray if others are -/

/-- The value is stray if something is so. -/
class Bears (stray : Prop) (x : α) : Prop where
  stray : stray → Stray x

namespace Bears

instance (priority := high) never (x : α) : Bears False x := ⟨False.elim⟩

instance (priority := high) either {stray' : Prop} (x : α) [h : Bears stray x] [h' : Bears stray' x] :
    Bears (stray ∨ stray') x :=
  ⟨fun hor => hor.elim h.stray h'.stray⟩

instance itself (x : α) : Bears (Stray x) x := ⟨id⟩

/-! ### Lists and values that may be missing -/

instance some (x : α) [h : Bears stray x] : Bears stray (some x) :=
  ⟨fun hs => holder (fun _ => List.subset_append_left _ []) (h.stray hs)⟩

instance head (x : α) (xs : List α) [h : Bears stray x] : Bears stray (x :: xs) :=
  ⟨fun hs => holder (fun _ => List.subset_append_left _ _) (h.stray hs)⟩

instance tail (x : α) (xs : List α) [h : Bears stray xs] : Bears stray (x :: xs) :=
  ⟨fun hs => holder (fun _ => List.subset_append_right _ _) (h.stray hs)⟩

/-! ### Statements in statements -/

section Statements

variable {s t : Statement} {body : List Statement} {test : Expression}

theorem sites_subset (c : Surroundings) (body : List Statement) :
    Bearer.sites c body ⊆ body.map c.statement := by
  rw [List.map_eq_flatMap]
  exact List.Subset.refl _

/-- A part of a statement that is in the same loops. -/
theorem part {x : α} (hparts : ∀ c, Bearer.sites c x ⊆ Site.parts (c.statement s))
    (h : Bears stray x) : Bears stray s :=
  ⟨fun hs => statement id hparts (fun _ => rfl) (h.stray hs)⟩

/-- The body of a loop. -/
theorem loop (hparts : ∀ c : Surroundings, c.loop.statement t ∈ Site.parts (c.statement s))
    (h : Bears stray t) : Bears stray s :=
  ⟨fun hs => statement Surroundings.loop (fun c => List.cons_subset.mpr ⟨hparts c, List.nil_subset _⟩)
    (fun _ => rfl) (h.stray hs)⟩

instance returned (value : Option Expression) : Bears stray (Statement.return value) :=
  ⟨fun _ => .return value⟩

instance block [h : Bears stray body] : Bears stray (Statement.block body) :=
  part (fun c => sites_subset c body) h

instance consequent (alternate : Option Statement) [h : Bears stray s] :
    Bears stray (Statement.if test s alternate) :=
  part (fun c => by simp [Bearer.sites, Site.parts, Site.statementParts]) h

instance alternate (consequent : Statement) (alternate : Option Statement)
    [h : Bears stray alternate] : Bears stray (Statement.if test consequent alternate) :=
  part (fun c => by cases alternate <;> simp [Bearer.sites, Site.parts, Site.statementParts]) h

instance whileLoop [h : Bears stray s] : Bears stray (Statement.while test s) :=
  loop (fun c => by simp [Site.parts, Site.statementParts]) h

instance doLoop [h : Bears stray s] : Bears stray (Statement.doWhile s test) :=
  loop (fun c => by simp [Site.parts, Site.statementParts]) h

instance forLoop (init : Option ForInit) (test update : Option Expression) [h : Bears stray s] :
    Bears stray (Statement.for init test update s) :=
  loop (fun c => by simp [Site.parts, Site.statementParts]) h

instance forIn (bound : ForHead) (e : Expression) [h : Bears stray s] :
    Bears stray (Statement.forIn bound e s) :=
  loop (fun c => by simp [Site.parts, Site.statementParts]) h

instance forOf (bound : ForHead) (e : Expression) [h : Bears stray s] :
    Bears stray (Statement.forOf bound e s) :=
  loop (fun c => by simp [Site.parts, Site.statementParts]) h

instance guarded (handler : Option CatchClause) (finalizer : Option (List Statement))
    [h : Bears stray body] : Bears stray (Statement.try body handler finalizer) :=
  part (fun c _ ht => List.mem_append_left _ (List.mem_append_left _ (sites_subset c body ht))) h

instance handler (handler : Option CatchClause) (finalizer : Option (List Statement))
    [h : Bears stray handler] : Bears stray (Statement.try body handler finalizer) :=
  part (fun _ _ ht => List.mem_append_left _ (List.mem_append_right _ ht)) h

instance finalizer (handler : Option CatchClause) (finalizer : Option (List Statement))
    [h : Bears stray finalizer] : Bears stray (Statement.try body handler finalizer) := by
  refine part (fun c t ht => List.mem_append_right _ ?_) h
  cases finalizer with
  | none => cases ht
  | some statements =>
    have ht : t ∈ Bearer.sites c statements ++ [] := ht
    rw [List.append_nil] at ht
    exact sites_subset c statements ht

instance caught (param : Option Pattern) [h : Bears stray body] :
    Bears stray (CatchClause.mk param body) :=
  ⟨fun hs => holder (fun c _ ht => List.mem_append_right _ (sites_subset c body ht)) (h.stray hs)⟩

instance case (test : Option Expression) [h : Bears stray body] :
    Bears stray (SwitchCase.mk test body) :=
  ⟨fun hs => holder (fun c _ ht => List.mem_append_right _ (sites_subset c body ht)) (h.stray hs)⟩

instance switch (discriminant : Expression) (cases : List SwitchCase) [h : Bears stray cases] :
    Bears stray (Statement.switch discriminant cases) :=
  ⟨fun hs => statement Surroundings.switch (fun _ => List.subset_cons_self _ _) (fun _ => rfl)
    (h.stray hs)⟩

instance labeled (label : String) [h : Bears stray s] : Bears stray (Statement.labeled label s) :=
  ⟨fun hs => statement (fun c => c.labeled label s.isLoop) (fun _ => List.Subset.refl _)
    (fun _ => rfl) (h.stray hs)⟩

instance «with» (object : Expression) [h : Bears stray s] : Bears stray (Statement.with object s) :=
  part (fun _ => List.subset_cons_self _ _) h

instance program [h : Bears stray body] : Bears stray (Program.mk body) :=
  ⟨fun hs => holder (fun c => sites_subset c body) (h.stray hs)⟩

end Statements

end Bears

end Stray

/-- A program with a stray `return` does not have all of its `return`s inside. -/
theorem Program.ReturnsInside.not_stray {p : Program} (h : p.ReturnsInside) : ¬Stray p := by
  intro hstray
  obtain ⟨t, ht, u, hu, hreturn⟩ := hstray (.top { returnOutsideFunction := false }) rfl
  exact h t ht u hu hreturn

end EcmaEval

/-! # Readers where programs may return -/

namespace EcmaEval

/-- The same phrases are around, in a program that may return. -/
def Context.relaxed (c : Context) : Context :=
  { c with options := { c.options with returnOutsideFunction := true } }

namespace Parse

variable {α β : Type} [Bearer α] [Bearer β] {stray : Prop} {p q : Parse α} {f : α → Parse β}

/-- The reader reads in the relaxed context what it reads in the context.  What else it reads there
is stray and in no function.  Everything that it reads is stray if something is so. -/
class Relaxes (stray : Prop) (p : Parse α) : Prop where
  keeps : ∀ {c r x s}, p c r = .ok (x, s) → p c.relaxed r = .ok (x, s)
  restricts : ∀ {c r x s}, p c.relaxed r = .ok (x, s) →
    p c r = .ok (x, s) ∨ c.inFunction = false ∧ Stray x
  bears : stray → ∀ {c r x s}, p c r = .ok (x, s) → Stray x

/-- A change of contexts that relaxing does not interfere with, and that leaves no function. -/
class Commutes (change : Context → Context) : Prop where
  relaxed : ∀ c, change c.relaxed = (change c).relaxed
  inFunction : ∀ c, (change c).inFunction = false → c.inFunction = false

namespace Commutes

instance noIn (b : Bool) : Commutes fun c => { c with noIn := b } := ⟨fun _ => rfl, fun _ => id⟩

instance inLoop : Commutes fun c => { c with inLoop := true } := ⟨fun _ => rfl, fun _ => id⟩

instance inSwitch : Commutes fun c => { c with inSwitch := true } := ⟨fun _ => rfl, fun _ => id⟩

instance labels (label : String × Bool) : Commutes fun c => { c with labels := label :: c.labels } :=
  ⟨fun _ => rfl, fun _ => id⟩

instance inBody (isAsync isGenerator : Bool) : Commutes (·.inBody isAsync isGenerator) :=
  ⟨fun _ => rfl, nofun⟩

instance inOwnBody (isAsync isGenerator superProperty superCall : Bool) :
    Commutes (·.inOwnBody isAsync isGenerator superProperty superCall) :=
  ⟨fun _ => rfl, nofun⟩

end Commutes

namespace Relaxes

/-! ### Sequences and branches -/

/-- What is stray in what the first reader reads has to be in what the second one gives. -/
theorem bind (hp : Relaxes False p) (hf : ∀ x, Relaxes (stray ∨ Stray x) (f x)) :
    Relaxes stray (p >>= f) where
  keeps {c r y s} h := by
    obtain ⟨x, s', hx, hy⟩ := exists_of_bind_eq_ok h
    rw [bind_apply, hp.keeps hx]
    exact (hf x).keeps hy
  restricts {c r y s} h := by
    obtain ⟨x, s', hx, hy⟩ := exists_of_bind_eq_ok h
    rcases hp.restricts hx with hx | ⟨hc, hx⟩
    · rw [bind_apply, hx]
      exact (hf x).restricts hy
    · exact .inr ⟨hc, (hf x).bears (.inr hx) hy⟩
  bears hstray {c r y s} h := by
    obtain ⟨x, s', -, hy⟩ := exists_of_bind_eq_ok h
    exact (hf x).bears (.inl hstray) hy

instance [hp : Relaxes False p] [hf : ∀ x, Relaxes (stray ∨ Stray x) (f x)] :
    Relaxes stray (p >>= f) :=
  bind hp hf

theorem imp {stray' : Prop} (h : Relaxes stray p) (himp : stray' → stray) : Relaxes stray' p :=
  ⟨h.keeps, h.restricts, fun hs => h.bears (himp hs)⟩

/-- Behind a step that reads no statements. -/
theorem next [Barren α] [hp : Relaxes False p] (hf : ∀ x, Relaxes stray (f x)) :
    Relaxes stray (p >>= f) :=
  bind hp fun x => (hf x).imp fun h => h.elim id fun hx => absurd hx (Barren.not_stray x)

instance (priority := high) [Barren α] [Relaxes False p] [hf : ∀ x, Relaxes stray (f x)] :
    Relaxes stray (p >>= f) :=
  next hf

instance (x : α) [h : Stray.Bears stray x] : Relaxes stray (pure x : Parse α) where
  keeps h := h
  restricts h := .inl h
  bears hs {_ _ _ _} hx := by
    cases hx
    exact h.stray hs

instance {g : α → β} [Relaxes False p] [∀ x, Stray.Bears (stray ∨ Stray x) (g x)] :
    Relaxes stray (g <$> p) :=
  inferInstanceAs (Relaxes stray (p >>= fun x => pure (g x)))

instance (priority := high) [Barren α] {g : α → β} [Relaxes False p]
    [∀ x, Stray.Bears stray (g x)] : Relaxes stray (g <$> p) :=
  inferInstanceAs (Relaxes stray (p >>= fun x => pure (g x)))

instance {b : Prop} [Decidable b] [Relaxes stray p] [Relaxes stray q] :
    Relaxes stray (if b then p else q) := by
  split <;> infer_instance

instance (cause : SyntaxCause) : Relaxes stray (fail cause : Parse α) :=
  ⟨nofun, nofun, fun _ => nofun⟩

instance : Relaxes stray (unexpected : Parse α) := ⟨nofun, nofun, fun _ => nofun⟩

/-! ### The context -/

/-- A look at what of the context does not depend on whether programs may return. -/
theorem context {f : Context → Parse β} (hf : ∀ c, f c.relaxed = f c)
    (h : ∀ c, Relaxes stray (f c)) : Relaxes stray (Parse.context >>= f) where
  keeps {c r _ _} hy := (congrFun₂ (hf c) c.relaxed r).trans ((h c).keeps hy)
  restricts {c r _ _} hy := (h c).restricts ((congrFun₂ (hf c) c.relaxed r).symm.trans hy)
  bears hs {c _ _ _} hy := (h c).bears hs hy

instance {change : Context → Context} [hchange : Commutes change] [h : Relaxes stray p] :
    Relaxes stray (within change p) where
  keeps {c _ _ _} hx := by
    have hrelaxed := h.keeps hx
    rwa [← hchange.relaxed] at hrelaxed
  restricts {c _ _ _} hx :=
    (h.restricts (hchange.relaxed c ▸ hx)).imp_right fun hc => hc.imp_left (hchange.inFunction c)
  bears hs {_ _ _ _} hx := h.bears hs hx

instance [h : Relaxes stray p] : Relaxes stray (withIn p) :=
  inferInstanceAs (Relaxes stray (within (fun c => { c with noIn := false }) p))

/-! ### Tokens -/

/-- A reader that does not look at whether programs may return. -/
theorem of_eq [Barren α] (h : ∀ c r, p c.relaxed r = p c r) : Relaxes False p where
  keeps hx := (h _ _).trans hx
  restricts hx := .inl ((h _ _).symm.trans hx)
  bears := False.elim

instance : Relaxes False current := of_eq fun _ _ => rfl
instance : Relaxes False afterLineEnd := of_eq fun _ _ => rfl
instance (read : Cursor → Scan.Result Token) : Relaxes False (special read) := of_eq fun _ _ => rfl
instance : Relaxes False peek := of_eq fun _ _ => rfl
instance : Relaxes False advance := of_eq fun _ _ => rfl
instance (token : Token) : Relaxes False (replaceCurrent token) := of_eq fun _ _ => rfl
instance : Relaxes False name? := of_eq fun _ _ => rfl
instance (mark : Punctuator) : Relaxes False (atMark mark) := of_eq fun _ _ => rfl
instance (word : Keyword) : Relaxes False (atWord word) := of_eq fun _ _ => rfl

instance (mark : Punctuator) : Relaxes False (expect mark) := by
  unfold expect
  infer_instance

instance (word : Keyword) : Relaxes False (expectWord word) := by
  unfold expectWord
  infer_instance

instance (mark : Punctuator) : Relaxes False (skipMark mark) := by
  unfold skipMark
  infer_instance

instance : Relaxes False expectName :=
  next fun name => by cases name <;> infer_instance

instance : Relaxes False skipName :=
  next fun name => by cases name <;> infer_instance

instance : Relaxes False endStatement := by
  unfold endStatement
  infer_instance

instance (close : Punctuator) : Relaxes False (separator close) := by
  unfold separator
  infer_instance

/-! ### Phrases one behind the other -/

theorem untilToken {closes : Token → Bool} (h : Relaxes False p) (fuel : Nat) :
    Relaxes False (untilToken closes p fuel) := by
  -- Induction on the number of phrases that may still come.
  induction fuel with
  | zero => exact inferInstanceAs (Relaxes False (fail _ : Parse (List α)))
  | succ fuel ih =>
    unfold Parse.untilToken
    infer_instance

instance {closes : Token → Bool} [h : Relaxes False p] (fuel : Nat) :
    Relaxes False (Parse.untilToken closes p fuel) :=
  h.untilToken fuel

instance {close : Punctuator} [h : Relaxes False p] (fuel : Nat) :
    Relaxes False (untilMark close p fuel) := by
  unfold untilMark
  infer_instance

end Relaxes

/-! ## Inside of functions -/

/-- Inside of a function the reader reads the same in the relaxed context. -/
class ReadsAlike {α : Type} (p : Parse α) : Prop where
  iff : ∀ {c r x s}, c.inFunction = true → (p c.relaxed r = .ok (x, s) ↔ p c r = .ok (x, s))

namespace ReadsAlike

instance (priority := low) [h : Relaxes False p] : ReadsAlike p := by
  refine ⟨fun {c r x s} hc => ⟨fun hx => ?_, h.keeps⟩⟩
  rcases h.restricts hx with hx | ⟨hout, -⟩
  · exact hx
  · cases hc.symm.trans hout

omit [Bearer α] [Bearer β]

instance (x : α) : ReadsAlike (pure x : Parse α) := ⟨fun _ => Iff.rfl⟩

instance [hp : ReadsAlike p] [hf : ∀ x, ReadsAlike (f x)] : ReadsAlike (p >>= f) := by
  refine ⟨fun {c r y s} hc => ⟨fun h => ?_, fun h => ?_⟩⟩
  · obtain ⟨x, s', hx, hy⟩ := exists_of_bind_eq_ok h
    rw [bind_apply, (hp.iff hc).mp hx]
    exact ((hf x).iff hc).mp hy
  · obtain ⟨x, s', hx, hy⟩ := exists_of_bind_eq_ok h
    rw [bind_apply, (hp.iff hc).mpr hx]
    exact ((hf x).iff hc).mpr hy

instance {g : α → β} [ReadsAlike p] : ReadsAlike (g <$> p) :=
  inferInstanceAs (ReadsAlike (p >>= fun x => pure (g x)))

instance {b : Prop} [Decidable b] [ReadsAlike p] [ReadsAlike q] :
    ReadsAlike (if b then p else q) := by
  split <;> infer_instance

end ReadsAlike

/-- The code of a function.  A `return` in it is not stray. -/
theorem Relaxes.code {change : Context → Context} [hchange : Commutes change]
    (hin : ∀ c, (change c).inFunction = true) (h : ReadsAlike p) : Relaxes False (within change p) where
  keeps {c r x s} hx := by
    have hrelaxed := (h.iff (hin c)).mpr hx
    rwa [← hchange.relaxed] at hrelaxed
  restricts {c r x s} hx := .inl ((h.iff (hin c)).mp (hchange.relaxed c ▸ hx))
  bears := False.elim

end Parse

end EcmaEval
