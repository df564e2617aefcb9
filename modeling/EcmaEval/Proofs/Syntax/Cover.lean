import EcmaEval.Proofs.Syntax.InFunction
import EcmaEval.Proofs.Syntax.Target

/-!
# Expressions that cover patterns

The parameters of an arrow function are read as expressions and then taken as patterns; those of
other functions are read as patterns at once.  Both ways give the same patterns, with exceptions on
either side.  An object literal gives no value to a shorthand, and `new.target` is no expression
outside of functions.  An expression may stand in brackets, which are not seen in the pattern, and
something may stand behind a spread element where nothing may stand behind a rest element.

## Main definitions

* `Parse.Covering`: what one reader gives is, when converted, what another one gives

## Main results

* `Parse.Covering.bind`: readers in sequence
* `Grammar.covers_target`: expressions and the patterns that they are converted to
* `Grammar.covers_grouped`, `Grammar.covers_argument`: the parts of a list of parameters
-/

namespace EcmaEval

/-! ## Exceptions -/

namespace SyntaxCause

/-- Why the parameters of an arrow function may be refused where another function may have them: an
object literal gives no value to a shorthand, and `new.target` needs a function around it. -/
def refusesArrow : SyntaxCause → Bool
  | .shorthandWithValue | .misplacedTarget => true
  | _ => false

/-- Why the parameters of a function may be refused where an arrow function may have them: a bracket
stands around a target, or a comma or a value behind a rest element.  If both are asynchronous, then
this may also be a rest parameter. -/
def refusesFunction (isAsync : Bool) : SyntaxCause → Bool
  | .unexpected (.punctuator mark) =>
    match mark with
    | .leftParen | .comma | .assign => true
    | _ => false
  | .restNotLast => isAsync
  | _ => false

theorem refusesFunction_weaken {cause : SyntaxCause} (isAsync : Bool)
    (h : cause.refusesFunction false = true) : cause.refusesFunction isAsync = true := by
  unfold refusesFunction at h ⊢
  split at h <;> first | exact h | cases h

end SyntaxCause

namespace Parse

variable {α β γ δ : Type} {i : Bool} {G : α → Option β} {H : γ → Option δ}
  {ends ends' : Token → Bool} {c c' : Context} {r : Reading}

/-- Results of two readers of one text.  Where the second one ends before a token of a class, the
first one ends there too, with what is converted to the same value.  Where the first one gives
something that can be converted, the second one gives that.  Each of them may also be refused. -/
structure Covering (i : Bool) (G : α → Option β) (ends : Token → Bool)
    (a : Except SyntaxError (α × Reading)) (b : Except SyntaxError (β × Reading)) : Prop where
  covered : ∀ {y : β} {s : Reading}, b = .ok (y, s) → ends s.current = true →
    (∃ x, a = .ok (x, s) ∧ G x = some y) ∨ ∃ e, a = .error e ∧ e.cause.refusesArrow = true
  converted : ∀ {x : α} {y : β} {s : Reading}, a = .ok (x, s) → G x = some y →
    b = .ok (y, s) ∨ ∃ e, b = .error e ∧ e.cause.refusesFunction i = true

namespace Covering

variable {a : Except SyntaxError (α × Reading)} {b : Except SyntaxError (β × Reading)}

theorem weaken (h : Covering false G ends a b) : Covering i G ends a b where
  covered := h.covered
  converted ha hx := (h.converted ha hx).imp_right fun ⟨e, he, hcause⟩ =>
    ⟨e, he, SyntaxCause.refusesFunction_weaken i hcause⟩

theorem ok {x : α} {y : β} {s : Reading} (h : G x = some y) :
    Covering i G ends (.ok (x, s)) (.ok (y, s)) where
  covered hb _ := by
    cases hb
    exact .inl ⟨x, rfl, h⟩
  converted ha hx := by
    cases ha
    rw [h] at hx
    cases hx
    exact .inl rfl

/-- The second reader fails, and the first one gives nothing that can be converted. -/
theorem of_error {e : SyntaxError} (ha : ∀ x s, a = .ok (x, s) → G x = none) :
    Covering i G ends a (.error e) where
  covered hb _ := nomatch hb
  converted h hx := by
    rw [ha _ _ h] at hx
    cases hx

theorem refused {e : SyntaxError} (he : e.cause.refusesArrow = true) :
    Covering i G ends (.error e) b where
  covered _ _ := .inr ⟨e, rfl, he⟩
  converted ha _ := nomatch ha

theorem refuses {e : SyntaxError} (he : e.cause.refusesFunction i = true) :
    Covering i G ends a (.error e) where
  covered hb _ := nomatch hb
  converted _ _ := .inr ⟨e, rfl, he⟩

/-- Readers in sequence.  What stands behind the first ones tells that the second of them was not
at an end too early, and that the first of them gave something that can be converted. -/
theorem bind_of_ends {p : Parse α} {q : Parse β} {f : α → Parse γ} {g : β → Parse δ}
    (h : Covering i G ends' (p c r) (q c' r))
    (hends : ∀ {y s z s'}, q c' r = .ok (y, s) → g y c' s = .ok (z, s') →
      ends s'.current = true → ends' s.current = true)
    (hconvert : ∀ {x s z w s'}, f x c s = .ok (z, s') → H z = some w → ∃ y, G x = some y)
    (hf : ∀ {x y s}, p c r = .ok (x, s) → q c' r = .ok (y, s) → G x = some y →
      Covering i H ends (f x c s) (g y c' s)) :
    Covering i H ends ((p >>= f) c r) ((q >>= g) c' r) where
  covered hb hs := by
    obtain ⟨y, s, hq, hg⟩ := exists_of_bind_eq_ok hb
    rcases h.covered hq (hends hq hg hs) with ⟨x, hp, hx⟩ | ⟨e, he, hcause⟩
    · rcases (hf hp hq hx).covered hg hs with ⟨z, hz, hw⟩ | ⟨e, he, hcause⟩
      · exact .inl ⟨z, (bind_of_ok hp).trans hz, hw⟩
      · exact .inr ⟨e, (bind_of_ok hp).trans he, hcause⟩
    · exact .inr ⟨e, bind_of_error he, hcause⟩
  converted ha hz := by
    obtain ⟨x, s, hp, hfz⟩ := exists_of_bind_eq_ok ha
    obtain ⟨y, hx⟩ := hconvert hfz hz
    rcases h.converted hp hx with hq | ⟨e, he, hcause⟩
    · rcases (hf hp hq hx).converted hfz hz with hg | ⟨e, he, hcause⟩
      · exact .inl ((bind_of_ok hq).trans hg)
      · exact .inr ⟨e, (bind_of_ok hq).trans he, hcause⟩
    · exact .inr ⟨e, bind_of_error he, hcause⟩

/-- Readers in sequence, of which the first ones end alike before all tokens. -/
theorem bind {p : Parse α} {q : Parse β} {f : α → Parse γ} {g : β → Parse δ}
    (h : Covering i G (fun _ => true) (p c r) (q c' r))
    (hconvert : ∀ {x s z w s'}, f x c s = .ok (z, s') → H z = some w → ∃ y, G x = some y)
    (hf : ∀ {x y s}, p c r = .ok (x, s) → q c' r = .ok (y, s) → G x = some y →
      Covering i H ends (f x c s) (g y c' s)) :
    Covering i H ends ((p >>= f) c r) ((q >>= g) c' r) :=
  h.bind_of_ends (fun _ _ _ => rfl) hconvert hf

/-- Both readers pass the token at hand. -/
theorem advance_bind {f : Unit → Parse α} {g : Unit → Parse β}
    (h : ∀ {s}, advance c r = .ok ((), s) → Covering i G ends (f () c s) (g () c' s)) :
    Covering i G ends ((advance >>= f) c r) ((advance >>= g) c' r) := by
  cases hadvance : advance c r with
  | ok found =>
    obtain ⟨_, s⟩ := found
    have hadvance' : advance c' r = .ok ((), s) := hadvance
    rw [bind_of_ok hadvance, bind_of_ok hadvance']
    exact h hadvance
  | error e =>
    have hadvance' : advance c' r = .error e := hadvance
    rw [bind_of_error hadvance, bind_of_error hadvance']
    exact .of_error fun _ _ h => nomatch h

/-- A phrase that both readers read. -/
theorem same {start : Reading} {n : Nat} {fresh takes : Bool} {p q : Parse α}
    (h : InStep (.moved start) false n fresh .univ takes p q) (hc : c.Moved start c') (hr : start.Reaches r)
    (hlt : r.left < bound n fresh) : Covering i some ends (p c r) (q c' r) := by
  rcases h.cases_moved hc hr hlt with ⟨x, s, hp, hq, -⟩ | ⟨e, hp, hcause | hq⟩
  · rw [hp, hq]
    exact .ok rfl
  · rw [hp]
    exact .refused (by rw [hcause]; rfl)
  · rw [hp, hq]
    exact .of_error fun _ _ h => nomatch h

/-- Phrases one behind the other. -/
theorem untilToken {start : Reading} {n : Nat} {p : Parse α} {q : Parse β}
    (hp : InStep (.moved start) false n false .univ true p p)
    (hpq : ∀ {r}, start.Reaches r → r.left < n → Covering i G (fun _ => true) (p c r) (q c' r))
    (closes : Token → Bool) (fuel : Nat) (hr : start.Reaches r) (hlt : r.left < n) :
    Covering i (List.mapM G) (fun _ => true) (untilToken closes p fuel c r)
      (untilToken closes q fuel c' r) := by
  -- Induction on the number of phrases that may still come.
  induction fuel generalizing r with
  | zero => exact .of_error fun _ _ h => nomatch h
  | succ fuel ih =>
    unfold Parse.untilToken
    rw [current_bind, current_bind]
    split
    · exact .ok rfl
    refine .bind (hpq hr hlt) (fun {x s z w s'} hz hw => ?_)
      fun {x y s} hx _ hxy => ?_
    · obtain ⟨xs, _, -, hz⟩ := exists_of_bind_eq_ok hz
      cases hz
      rw [List.mapM_cons] at hw
      obtain ⟨y, hy, -⟩ := Option.bind_eq_some_iff.mp hw
      exact ⟨y, hy⟩
    · obtain ⟨hs, hless⟩ := hp.reaches_of_ok hr hlt hx
      refine .bind (ih hs (hless.trans hlt)) (fun {xs s z w s'} hz hw => ?_)
        fun {xs ys s} _ _ hxs => ?_
      · cases hz
        rw [List.mapM_cons] at hw
        obtain ⟨_, -, hw⟩ := Option.bind_eq_some_iff.mp hw
        obtain ⟨ys, hys, -⟩ := Option.bind_eq_some_iff.mp hw
        exact ⟨ys, hys⟩
      · refine .ok ?_
        rw [List.mapM_cons, hxy, hxs]
        rfl

theorem untilMark {start : Reading} {n : Nat} {p : Parse α} {q : Parse β}
    (hp : InStep (.moved start) false n false .univ true p p)
    (hpq : ∀ {r}, start.Reaches r → r.left < n → Covering i G (fun _ => true) (p c r) (q c' r))
    (close : Punctuator) (fuel : Nat) (hr : start.Reaches r) (hlt : r.left < n) :
    Covering i (List.mapM G) (fun _ => true) (untilMark close p fuel c r)
      (untilMark close q fuel c' r) := by
  refine .bind (.untilToken hp hpq _ fuel hr hlt) (fun {xs s z w s'} hz hw => ?_)
    fun _ _ hxs => .advance_bind fun _ => .ok hxs
  obtain ⟨_, _, -, hz⟩ := exists_of_bind_eq_ok hz
  cases hz
  exact ⟨w, hw⟩

end Covering

end Parse

/-! ## Targets -/

namespace Grammar

open Parse

variable {start : Reading} {i : Bool} {k : Nat} {c c' : Context} {r s : Reading} {x : Expression}
  {t : Pattern} {inner : Phrases}

/-- Nothing but a separator or a closing bracket can follow an element that ends before the
token. -/
def closesElement (token : Token) : Bool :=
  token.closesOperand && !token.isMark .assign

theorem assignmentOperator?_of_closesElement {token : Token} (h : closesElement token = true) :
    assignmentOperator? token = none := by
  unfold assignmentOperator?
  split <;> first | rfl | cases h

/-- A target has neither a default value nor dots in front. -/
theorem ne_of_pattern (h : pattern inner c r = .ok (t, s)) :
    (∀ u v, t ≠ .withDefault u v) ∧ ∀ u, t ≠ .rest u := by
  obtain ⟨name, r₁, -, h⟩ := exists_of_bind_eq_ok h
  cases name with
  | some name =>
    cases h
    exact ⟨nofun, nofun⟩
  | none =>
    obtain ⟨bracket, r₂, -, h⟩ := exists_of_bind_eq_ok h
    cases bracket with
    | true =>
      obtain ⟨elements, r₃, -, h⟩ := exists_of_bind_eq_ok h
      cases h
      exact ⟨nofun, nofun⟩
    | false =>
      obtain ⟨brace, r₃, -, h⟩ := exists_of_bind_eq_ok h
      cases brace with
      | true =>
        obtain ⟨members, r₄, -, h⟩ := exists_of_bind_eq_ok h
        cases h
        exact ⟨nofun, nofun⟩
      | false => cases h

/-- What is converted to a target may be assigned to. -/
theorem isTarget_of_toPattern? (h : pattern inner c r = .ok (t, s)) (hx : x.toPattern? = some t) :
    isTarget false x = true := by
  obtain ⟨hdefault, hrest⟩ := ne_of_pattern h
  cases x with
  | identifier | array | object => rfl
  | assign op target value =>
    cases op with
    | plain =>
      rw [Expression.toPattern?_assign] at hx
      obtain ⟨u, -, hu⟩ := Option.map_eq_some_iff.mp hx
      exact absurd hu.symm (hdefault _ _)
    | compound => cases hx
    | logical => cases hx
  | spread =>
    rw [Expression.toPattern?_spread] at hx
    obtain ⟨u, -, hu⟩ := Option.map_eq_some_iff.mp hx
    exact absurd hu.symm (hrest _)
  | _ => cases hx

/-- Expressions of a depth cover the targets of that depth. -/
def CoversTargets (start : Reading) (c c' : Context) (k : Nat) : Prop :=
  ∀ ⦃r : Reading⦄, start.Reaches r → r.left ≤ k → Covering false Expression.toPattern?
    Token.closesOperand (conditional (.ofDepth k) c r) (pattern (.ofDepth k) c' r)

/-- The value of a default is the same in both. -/
theorem covers_value (hc : c.Moved start c') (hr : start.Reaches r) (hlt : r.left < k) (ends : Token → Bool) :
    Covering i some ends ((Phrases.ofDepth k).assignment c r)
      (withIn (Phrases.ofDepth (k + 1)).assignment c' r) := by
  rw [withIn_of_noIn (hc.alike.noIn.trans hc.noIn)]
  have hphrases : Phrases.InStep (.moved start) k (.ofDepth k) (.ofDepth (k + 1)) :=
    Phrases.inStep_ofDepth (Nat.le_refl k) (Nat.le_succ k)
  exact .same hphrases.assignment hc hr hlt

theorem defaulted_of_not (h : r.current.isMark .assign = false) :
    defaulted inner t c r = .ok (t, r) := by
  rw [defaulted, skipMark_of_not h]
  rfl

/-- A target with the default value that may follow it. -/
theorem covers_defaulted (hc : c.Moved start c') (htargets : CoversTargets start c c' k) (hr : start.Reaches r)
    (hlt : r.left ≤ k) : Covering false Expression.toPattern? closesElement
      (assignment (.ofDepth k) c r)
      ((pattern (.ofDepth k) >>= defaulted (.ofDepth (k + 1))) c' r) := by
  rw [assignment_eq_of_not_inGenerator hc.inGenerator]
  have hphrases : Phrases.InStep (.moved start) r.left (.ofDepth k) (.ofDepth k) :=
    Phrases.inStep_ofDepth hlt hlt
  have hpattern : InStep (.moved start) false r.left true .univ true (pattern (.ofDepth k))
    (pattern (.ofDepth k)) := inferInstance
  refine .bind_of_ends (htargets hr hlt) (fun {t s z s'} _ hz hs' => ?_) (fun {x s z w s'} hz hw => ?_)
    fun {x t s} _ ht hx => ?_
  · cases hassign : s.current.isMark .assign with
    | true => rw [Token.eq_of_isMark hassign]; rfl
    | false =>
      rw [defaulted_of_not hassign] at hz
      cases hz
      exact (Bool.and_eq_true_iff.mp hs').1
  · rcases assignmentTo_cases hz hw with ⟨rfl, -⟩ | ⟨-, hx⟩
    · exact ⟨w, hw⟩
    · exact hx
  · obtain ⟨hs, hless⟩ := hpattern.reaches_of_ok hr (Nat.lt_succ_self _) ht
    cases hassign : s.current.isMark .assign with
    | true =>
      rw [assignmentTo_of_isMark hassign (isTarget_of_toPattern? ht hx), defaulted,
        skipMark_of_isMark hassign]
      refine .advance_bind fun {s'} hadvance => ?_
      have hend : s.current.isEnd = false := by rw [Token.eq_of_isMark hassign]; rfl
      obtain ⟨hs', hless'⟩ := reaches_of_advance hs hend hadvance
      refine .bind (covers_value hc hs' (by omega) fun _ => true) (fun _ _ => ⟨_, rfl⟩)
        fun {value value' s} _ _ hvalue => ?_
      cases hvalue
      exact .ok (by rw [Expression.toPattern?_assign, hx]; rfl)
    | false =>
      rw [defaulted_of_not hassign]
      refine ⟨fun hb hs => ?_, fun ha hz => ?_⟩
      · cases hb
        exact .inl ⟨x, assignmentTo_of_none (assignmentOperator?_of_closesElement hs), hx⟩
      · rcases assignmentTo_cases ha hz with ⟨rfl, rfl, -⟩ | ⟨hassign', -⟩
        · rw [hx] at hz
          cases hz
          exact .inl rfl
        · rw [hassign'] at hassign
          cases hassign

/-! ## Elements -/

section Elements

variable {γ δ : Type} {H : γ → Option δ} (close : Punctuator)

theorem closesElement_of_separator {close : Punctuator} (hclose : closesElement (.punctuator close) = true)
    (h : separator close c r = .ok ((), s)) : closesElement r.current = true := by
  rcases separator_cases h with ⟨hmark, -⟩ | ⟨-, hmark, -⟩
  · rw [Token.eq_of_isMark hmark]
    exact hclose
  · rw [Token.eq_of_isMark hmark]
    rfl

/-- An element with the separator behind it. -/
theorem covers_separated {α β : Type} {G : α → Option β} {p : Parse α} {q : Parse β}
    (h : Covering i G closesElement (p c r) (q c' r))
    (hclose : closesElement (.punctuator close) = true) {f : α → γ} {g : β → δ}
    (hH : ∀ x, H (f x) = (G x).map g) (ends : Token → Bool) :
    Covering i H ends ((p >>= fun x => separator close >>= fun _ => pure (f x)) c r)
      ((q >>= fun y => separator close >>= fun _ => pure (g y)) c' r) := by
  refine .bind_of_ends h (fun {y s z s'} _ hz _ => ?_) (fun {x s z w s'} hz hw => ?_)
    fun {x y s} _ _ hx => ?_
  · obtain ⟨_, _, hseparator, -⟩ := exists_of_bind_eq_ok hz
    exact closesElement_of_separator hclose hseparator
  · obtain ⟨_, _, -, hz⟩ := exists_of_bind_eq_ok hz
    cases hz
    rw [hH] at hw
    obtain ⟨y, hy, -⟩ := Option.map_eq_some_iff.mp hw
    exact ⟨y, hy⟩
  · have hsame := separator_congr close c c' s
    cases hseparator : separator close c' s with
    | ok found =>
      rw [bind_of_ok hseparator, bind_of_ok (hsame.trans hseparator)]
      exact .ok (by rw [hH, hx]; rfl)
    | error e =>
      rw [bind_of_error hseparator, bind_of_error (hsame.trans hseparator)]
      exact .of_error fun _ _ h => nomatch h

/-- What stands behind a target that an expression with dots in front is converted to.  The bracket
has to close there, or `stop` tells that it does not. -/
theorem covers_rest (hc : c.Moved start c') (htargets : CoversTargets start c c' k) (hr : start.Reaches r)
    (hlt : r.left ≤ k) (hclose : closesElement (.punctuator close) = true)
    (hcomma : close ≠ .comma) {f : Expression → γ} {g : Pattern → δ}
    (hH : ∀ e, H (f e) = e.toPattern?.map g) {stop : Pattern → Parse δ}
    (hstop : ∀ t s, ∃ e, stop t c' s = .error e ∧
      (s.current.isMark .comma = true ∨ s.current.isMark .assign = true →
        e.cause.refusesFunction i = true)) (ends : Token → Bool) :
    Covering i H ends
      ((assignment (.ofDepth k) >>= fun e => separator close >>= fun _ => pure (f e)) c r)
      ((pattern (.ofDepth k) >>= fun t => atMark close >>= fun b =>
        if b then pure (g t) else stop t) c' r) := by
  have hcovers := htargets hr hlt
  refine ⟨fun {y s} hb _ => ?_, fun {z y s} ha hz => ?_⟩
  · obtain ⟨t, s', ht, hb⟩ := exists_of_bind_eq_ok hb
    rw [atMark_bind] at hb
    split at hb
    · next hmark =>
      cases hb
      have hs : closesElement s.current = true := by
        rw [Token.eq_of_isMark hmark]
        exact hclose
      rcases hcovers.covered ht (Bool.and_eq_true_iff.mp hs).1 with ⟨x, hx, htarget⟩ | ⟨e, he, hcause⟩
      · refine .inl ⟨f x, ?_, by rw [hH, htarget]; rfl⟩
        rw [bind_of_ok (assignment_of_conditional hc.inGenerator hx
          (assignmentOperator?_of_closesElement hs)), separator_of_isMark hmark]
        rfl
      · exact .inr ⟨e, bind_of_error (assignment_of_conditional_error hc.inGenerator he), hcause⟩
    · obtain ⟨e, he, -⟩ := hstop t s'
      rw [he] at hb
      cases hb
  · obtain ⟨x, s', hx, ha⟩ := exists_of_bind_eq_ok ha
    obtain ⟨_, s'', hseparator, ha⟩ := exists_of_bind_eq_ok ha
    cases ha
    rw [hH] at hz
    obtain ⟨t, ht, rfl⟩ := Option.map_eq_some_iff.mp hz
    rw [assignment_eq_of_not_inGenerator hc.inGenerator] at hx
    obtain ⟨target, s₁, htarget, hx⟩ := exists_of_bind_eq_ok hx
    -- A comma or a value behind the target is no end of it.
    have hstopped {t : Pattern} (ht : pattern (.ofDepth k) c' r = .ok (t, s₁))
        (hmark : s₁.current.isMark .comma = true ∨ s₁.current.isMark .assign = true) :
        ∃ e, (pattern (.ofDepth k) >>= fun t => atMark close >>= fun b =>
          if b then pure (g t) else stop t) c' r = .error e ∧
            e.cause.refusesFunction i = true := by
      obtain ⟨e, he, hcause⟩ := hstop t s₁
      refine ⟨e, ?_, hcause hmark⟩
      have hclosed : s₁.current.isMark close = false := by
        rcases hmark with hmark | hmark
        · exact isMark_of_isMark hmark hcomma.symm
        · refine isMark_of_isMark hmark fun heq => ?_
          rw [← heq] at hclose
          cases hclose
      rw [bind_of_ok ht, atMark_bind, hclosed]
      exact he
    rcases assignmentTo_cases hx ht with ⟨rfl, rfl, -⟩ | ⟨hassign, t', ht'⟩
    · rcases hcovers.converted htarget ht with hpattern | ⟨e, he, hcause⟩
      · rcases separator_cases hseparator with ⟨hmark, rfl⟩ | ⟨-, hmark, -⟩
        · refine .inl ?_
          rw [bind_of_ok hpattern, atMark_bind, hmark]
          rfl
        · exact .inr (hstopped hpattern (.inl hmark))
      · exact .inr ⟨e, bind_of_error he, SyntaxCause.refusesFunction_weaken i hcause⟩
    · rcases hcovers.converted htarget ht' with hpattern | ⟨e, he, hcause⟩
      · exact .inr (hstopped hpattern (.inr (by rw [hassign]; rfl)))
      · exact .inr ⟨e, bind_of_error he, SyntaxCause.refusesFunction_weaken i hcause⟩

theorem spreadable_of_isMark (h : r.current.isMark .ellipsis = true) (f : Expression → Parse γ) :
    (spreadable inner >>= f) c r =
      (advance >>= fun _ => inner.assignment >>= fun e => f (.spread e)) c r := by
  rw [spreadable, bind_assoc, skipMark_of_isMark h]
  simp only [if_true, bind_assoc, pure_bind]

theorem spreadable_of_not (h : r.current.isMark .ellipsis = false) (f : Expression → Parse γ) :
    (spreadable inner >>= f) c r = (inner.assignment >>= f) c r := by
  rw [spreadable, bind_assoc, skipMark_of_not h]
  rfl

/-- The error at a token that does not continue the parameters of a function. -/
theorem refusesFunction_of_unexpected {β : Type} {p : Unit → Parse β} :
    ∃ e, (unexpected >>= p) c r = .error e ∧
      (r.current.isMark .comma = true ∨ r.current.isMark .assign = true →
        e.cause.refusesFunction false = true) := by
  refine ⟨_, rfl, fun hmark => ?_⟩
  rcases hmark with hmark | hmark <;>
  · rw [Token.eq_of_isMark hmark]
    rfl

/-- An element of an array literal covers one of an array pattern. -/
theorem covers_element (hc : c.Moved start c') (htargets : CoversTargets start c c' k) (hr : start.Reaches r)
    (hlt : r.left ≤ k) : Covering false elementPattern? (fun _ => true)
      (arrayElement (.ofDepth (k + 1)) c r) (patternElement (.ofDepth (k + 1)) c' r) := by
  have hplain (e : Expression) : elementPattern? (some e) = e.toPattern?.map some := rfl
  have hspread (e : Expression) : elementPattern? (some (.spread e)) =
      e.toPattern?.map fun target => some (.rest target) := by
    rw [elementPattern?, Expression.toPattern?_spread, Option.map_map]
    rfl
  rw [arrayElement, patternElement]
  cases hcomma : r.current.isMark .comma with
  | true =>
    rw [skipMark_of_isMark hcomma, skipMark_of_isMark hcomma]
    exact .advance_bind fun _ => .ok rfl
  | false =>
    rw [skipMark_of_not hcomma, skipMark_of_not hcomma, if_neg Bool.false_ne_true,
      if_neg Bool.false_ne_true]
    cases hdots : r.current.isMark .ellipsis with
    | true =>
      rw [spreadable_of_isMark hdots, skipMark_of_isMark hdots]
      refine .advance_bind fun hadvance => ?_
      have hend : r.current.isEnd = false := by rw [Token.eq_of_isMark hdots]; rfl
      obtain ⟨hs, hless⟩ := reaches_of_advance hr hend hadvance
      exact covers_rest .rightBracket hc htargets hs (by omega) rfl (by decide) hspread
        (fun _ _ => refusesFunction_of_unexpected) _
    | false =>
      rw [spreadable_of_not hdots, skipMark_of_not hdots, if_neg Bool.false_ne_true,
        ← bind_assoc]
      exact covers_separated .rightBracket (covers_defaulted hc htargets hr hlt) rfl
        hplain _

/-! ### Members -/

/-- What a member of an object literal is behind its key, if it is no method. -/
theorem covers_memberValue (hc : c.Moved start c') (htargets : CoversTargets start c c' k)
    (hr : start.Reaches r) (hlt : r.left ≤ k) (hdots : r.current.isMark .ellipsis = false) :
    Covering false memberPattern? (fun _ => true)
      ((keyedMember (.ofDepth (k + 1)) false false .method >>= fun m =>
        separator .rightBrace >>= fun _ => pure m) c r)
      (patternMember (.ofDepth (k + 1)) c' r) := by
  have hphrases : Phrases.InStep (.moved start) (k + 1) (.ofDepth (k + 1)) (.ofDepth (k + 1)) :=
    Phrases.inStep_ofDepth (Nat.le_refl _) (Nat.le_refl _)
  have hkey : InStep (.moved start) false (k + 1) false .univ true (propertyKey (.ofDepth (k + 1)))
    (propertyKey (.ofDepth (k + 1))) := inferInstance
  rw [keyedMember, bind_assoc, name?_bind, bind_assoc, patternMember, atMark_bind, hdots,
    if_neg Bool.false_ne_true]
  dsimp only
  rw [name?_bind, hc.alike.name?_eq ⟨rfl, hr⟩]
  refine .bind (.same hkey hc hr (Nat.lt_succ_of_le hlt)) (fun _ _ => ⟨_, rfl⟩)
    fun {key key' s} hread _ heq => ?_
  cases heq
  obtain ⟨hs, hless⟩ := hkey.reaches_of_ok hr (Nat.lt_succ_of_le hlt) hread
  rw [bind_assoc, atMark_bind]
  have hvalue (shorthand : Bool) (e : Expression) : memberPattern? ⟨.value, key, e, shorthand⟩ =
      e.toPattern?.map fun target => ⟨key, target⟩ := rfl
  cases hparen : s.current.isMark .leftParen with
  | true =>
    -- A bracket behind the key begins a method, and ends the member of a pattern too early.
    have hmark {mark : Punctuator} (hne : .leftParen ≠ mark) : s.current.isMark mark = false :=
      isMark_of_isMark hparen hne
    rw [skipMark_of_not (hmark (by decide)), if_pos rfl, if_neg Bool.false_ne_true]
    have hmethod {m : ObjectMember} {s' : Reading} (h : ((method (.ofDepth (k + 1)) false false false >>=
        fun node => pure ⟨methodMemberKind .method, key, .function node, false⟩) >>=
        fun m => separator .rightBrace >>= fun _ => pure m) c s = .ok (m, s')) :
        memberPattern? m = none := by
      obtain ⟨_, _, hm, h⟩ := exists_of_bind_eq_ok h
      obtain ⟨_, _, -, hm⟩ := exists_of_bind_eq_ok hm
      obtain ⟨_, _, -, h⟩ := exists_of_bind_eq_ok h
      cases hm
      cases h
      rfl
    cases c.name? r.current with
    | none => exact .of_error fun _ _ => hmethod
    | some name =>
      dsimp only
      rw [bind_of_ok (defaulted_of_not (hmark (by decide))), separator_of_not (hmark (by decide)),
        expect_of_not (hmark (by decide))]
      exact .of_error fun _ _ => hmethod
  | false =>
    rw [if_neg Bool.false_ne_true, if_neg (by decide), bind_assoc]
    cases hcolon : s.current.isMark .colon with
    | true =>
      rw [skipMark_of_isMark hcolon, skipMark_of_isMark hcolon]
      refine .advance_bind fun hadvance => ?_
      have hend : s.current.isEnd = false := by rw [Token.eq_of_isMark hcolon]; rfl
      obtain ⟨hs', hless'⟩ := reaches_of_advance hs hend hadvance
      rw [if_pos rfl, if_pos rfl, bind_assoc]
      simp only [pure_bind]
      rw [← bind_assoc]
      exact covers_separated .rightBrace (covers_defaulted hc htargets hs' (by omega)) rfl
        (hvalue false) _
    | false =>
      rw [skipMark_of_not hcolon, skipMark_of_not hcolon, if_neg Bool.false_ne_true,
        if_neg Bool.false_ne_true]
      cases c.name? r.current with
      | none => exact .of_error fun _ _ h => nomatch h
      | some name =>
        dsimp only
        rw [bind_assoc, atMark_bind]
        cases hassign : s.current.isMark .assign with
        | true => exact .refused rfl
        | false =>
          rw [bind_of_ok (defaulted_of_not hassign), if_neg Bool.false_ne_true, pure_bind]
          have hname : Covering false Expression.toPattern? closesElement
              ((pure (.identifier name) : Parse Expression) c s)
              ((pure (.identifier name) : Parse Pattern) c' s) := .ok rfl
          exact covers_separated .rightBrace hname rfl (hvalue true) _

/-- A member behind a modifier is a method. -/
theorem memberPattern?_of_keyedMember {isAsync isGenerator : Bool} {kind : MethodKind}
    (hmodified : (kind ≠ .method || isAsync || isGenerator) = true) {m : ObjectMember}
    (h : keyedMember inner isAsync isGenerator kind c r = .ok (m, s)) :
    memberPattern? m = none := by
  rw [keyedMember, name?_bind] at h
  obtain ⟨key, s₁, -, h⟩ := exists_of_bind_eq_ok h
  rw [atMark_bind] at h
  cases hparen : s₁.current.isMark .leftParen with
  | true =>
    rw [hparen, if_pos rfl] at h
    obtain ⟨node, _, -, h⟩ := exists_of_bind_eq_ok h
    cases h
    cases kind <;> rfl
  | false =>
    rw [hparen, if_neg Bool.false_ne_true] at h
    dsimp only at h
    rw [if_pos hmodified] at h
    cases h

/-- A word with something else behind it than what ends a key is no member of a pattern. -/
theorem patternMember_error_of_word {key : PropertyKey}
    (hdots : r.current.isMark .ellipsis = false)
    (hkey : propertyKey inner c r = (advance >>= fun _ => pure key) c r)
    (hnext : ∀ s, advance c r = .ok ((), s) → endsMemberName s.current = false) :
    ∃ e, patternMember inner c r = .error e := by
  rw [patternMember, atMark_bind, hdots, if_neg Bool.false_ne_true]
  dsimp only
  rw [name?_bind]
  cases hadvance : advance c r with
  | error e =>
    refine ⟨e, bind_of_error ?_⟩
    rw [hkey, bind_of_error hadvance]
  | ok found =>
    obtain ⟨_, s⟩ := found
    rw [bind_of_ok (hkey.trans (bind_of_ok hadvance))]
    have hmark {mark : Punctuator} (hends : endsMemberName (.punctuator mark) = true) :
        s.current.isMark mark = false := by
      refine Bool.eq_false_iff.mpr fun hmark => ?_
      have hs := hnext s hadvance
      rw [Token.eq_of_isMark hmark, hends] at hs
      cases hs
    rw [skipMark_of_not (hmark rfl), if_neg Bool.false_ne_true]
    cases c.name? r.current with
    | none => exact ⟨_, rfl⟩
    | some name =>
      dsimp only
      rw [bind_of_ok (defaulted_of_not (hmark rfl)), separator_of_not (hmark rfl),
        expect_of_not (hmark rfl)]
      exact ⟨_, rfl⟩

/-- A look ahead at what stands behind a word. -/
theorem isModifier_cases (c : Context) (r : Reading) :
    (∃ e, advance c r = .error e ∧ isModifier c r = .error e) ∨
    ∃ s, advance c r = .ok ((), s) ∧ isModifier c r = .ok (!endsMemberName s.current, r) := by
  cases hadvance : advance c r with
  | error e => exact .inl ⟨e, rfl, bind_of_error (peek_of_advance_error hadvance)⟩
  | ok found =>
    obtain ⟨_, s⟩ := found
    exact .inr ⟨s, rfl, bind_of_ok (peek_of_advance hadvance)⟩

/-- A word is the key of a member, or a modifier that no pattern has. -/
theorem modifier_cases {key : PropertyKey} {f : Bool → Parse ObjectMember}
    (hdots : r.current.isMark .ellipsis = false)
    (hkey : propertyKey inner c' r = (advance >>= fun _ => pure key) c' r)
    (hmodified : ∀ m s, f true c r = .ok (m, s) → memberPattern? m = none) :
    (isModifier >>= f) c r = f false c r ∨
    (∀ m s, (isModifier >>= f) c r = .ok (m, s) → memberPattern? m = none) ∧
      ∃ e, patternMember inner c' r = .error e := by
  rcases isModifier_cases c r with ⟨e, hadvance, hread⟩ | ⟨s, hadvance, hread⟩
  · rw [bind_of_error hread]
    refine .inr ⟨nofun, patternMember_error_of_word hdots hkey fun s h => ?_⟩
    have hadvance' : advance c' r = .error e := hadvance
    rw [hadvance'] at h
    cases h
  · rw [bind_of_ok hread]
    cases hends : endsMemberName s.current with
    | true => exact .inl rfl
    | false =>
      refine .inr ⟨hmodified, patternMember_error_of_word hdots hkey fun s' h => ?_⟩
      have hadvance' : advance c' r = .ok ((), s) := hadvance
      rw [hadvance'] at h
      cases h
      exact hends

theorem accessor_cases (hdots : r.current.isMark .ellipsis = false) :
    (skipAccessor >>= keyedMember inner false false) c r =
      keyedMember inner false false .method c r ∨
    (∀ m s, (skipAccessor >>= keyedMember inner false false) c r = .ok (m, s) →
      memberPattern? m = none) ∧ ∃ e, patternMember inner c' r = .error e := by
  rw [skipAccessor_bind, current_bind]
  cases hword : accessorWord? r.current with
  | none => exact .inl rfl
  | some kind =>
    obtain ⟨name, hname⟩ := exists_of_accessorWord? hword
    have hkey : propertyKey inner c' r = (advance >>= fun _ => pure (.identifier name)) c' r := by
      rw [propertyKey, current_bind, hname]
    refine modifier_cases hdots hkey fun m s h => ?_
    obtain ⟨_, _, -, h⟩ := exists_of_bind_eq_ok h
    refine memberPattern?_of_keyedMember ?_ h
    unfold accessorWord? at hword
    split at hword <;> cases hword <;> rfl

/-- A member of an object literal has no modifier, or it is no member of a pattern. -/
theorem objectMember_cases (hdots : r.current.isMark .ellipsis = false) :
    objectMember inner c r = keyedMember inner false false .method c r ∨
    (∀ m s, objectMember inner c r = .ok (m, s) → memberPattern? m = none) ∧
      ∃ e, patternMember inner c' r = .error e := by
  rw [objectMember, skipMark_of_not hdots, if_neg Bool.false_ne_true, atWord_bind]
  dsimp only
  cases hasync : r.current.isWord .asyncWord with
  | true =>
    have htoken := Token.eq_of_isWord hasync
    have hkey : propertyKey inner c' r = (advance >>= fun _ => pure (.identifier "async")) c' r := by
      rw [propertyKey, current_bind, htoken]
      rfl
    have hplain : (skipMark .star >>= fun isGenerator =>
        if (false || isGenerator) = true then
          pure .method >>= keyedMember inner false isGenerator
        else skipAccessor >>= keyedMember inner false isGenerator) c r =
          keyedMember inner false false .method c r := by
      rw [skipMark_of_not (by rw [htoken]; rfl), if_neg (by decide), skipAccessor_bind,
        current_bind, htoken]
      rfl
    rw [if_pos rfl, ← hplain]
    refine modifier_cases hdots hkey fun m s h => ?_
    obtain ⟨_, s₁, -, h⟩ := exists_of_bind_eq_ok h
    obtain ⟨isGenerator, s₂, -, h⟩ := exists_of_bind_eq_ok h
    rw [Bool.true_or, if_pos rfl, pure_bind] at h
    exact memberPattern?_of_keyedMember rfl h
  | false =>
    rw [if_neg Bool.false_ne_true, pure_bind, if_neg Bool.false_ne_true]
    cases hstar : r.current.isMark .star with
    | true =>
      rw [skipMark_of_isMark hstar]
      refine .inr ⟨fun m s h => ?_, ?_⟩
      · obtain ⟨_, _, -, h⟩ := exists_of_bind_eq_ok h
        exact memberPattern?_of_keyedMember rfl h
      · have hkey : propertyKey inner c' r = (unexpected : Parse PropertyKey) c' r := by
          rw [propertyKey, current_bind, Token.eq_of_isMark hstar]
        rw [patternMember, atMark_bind, hdots, if_neg Bool.false_ne_true]
        dsimp only
        rw [name?_bind]
        exact ⟨_, bind_of_error hkey⟩
    | false =>
      rw [skipMark_of_not hstar]
      exact accessor_cases hdots

/-- A member of an object literal covers one of an object pattern. -/
theorem covers_member (hc : c.Moved start c') (htargets : CoversTargets start c c' k) (hr : start.Reaches r)
    (hlt : r.left ≤ k) : Covering false memberPattern? (fun _ => true)
      ((objectMember (.ofDepth (k + 1)) >>= fun m =>
        separator .rightBrace >>= fun _ => pure m) c r)
      (patternMember (.ofDepth (k + 1)) c' r) := by
  cases hdots : r.current.isMark .ellipsis with
  | true =>
    rw [objectMember, bind_assoc, skipMark_of_isMark hdots, patternMember, atMark_bind, hdots]
    refine .of_error fun m s h => ?_
    obtain ⟨_, _, -, h⟩ := exists_of_bind_eq_ok h
    obtain ⟨_, _, hm, h⟩ := exists_of_bind_eq_ok h
    obtain ⟨_, _, -, hm⟩ := exists_of_bind_eq_ok hm
    obtain ⟨_, _, -, h⟩ := exists_of_bind_eq_ok h
    cases hm
    cases h
    rfl
  | false =>
    have hcases : objectMember (.ofDepth (k + 1)) c r =
        keyedMember (.ofDepth (k + 1)) false false .method c r ∨
        (∀ m s, objectMember (.ofDepth (k + 1)) c r = .ok (m, s) → memberPattern? m = none) ∧
          ∃ e, patternMember (.ofDepth (k + 1)) c' r = .error e := objectMember_cases hdots
    rcases hcases with hsame | ⟨hnone, e, he⟩
    · rw [bind_apply, hsame, ← bind_apply]
      exact covers_memberValue hc htargets hr hlt hdots
    · rw [he]
      refine .of_error fun m s h => ?_
      obtain ⟨_, _, hm, h⟩ := exists_of_bind_eq_ok h
      obtain ⟨_, _, -, h⟩ := exists_of_bind_eq_ok h
      cases h
      exact hnone _ _ hm

end Elements

/-! ## Expressions and targets -/

/-- A smallest expression covers what it is as a conditional one. -/
theorem covers_conditional (hfuel : 0 < inner.fuel) (hopens : opensPrimary c r.current = true)
    {b : Except SyntaxError (Pattern × Reading)}
    (h : Covering i Expression.toPattern? Token.closesOperand (primary inner c r) b) :
    Covering i Expression.toPattern? Token.closesOperand (conditional inner c r) b where
  covered hb hs := by
    rcases h.covered hb hs with ⟨x, hx, ht⟩ | ⟨e, he, hcause⟩
    · exact .inl ⟨x, conditional_of_unary hfuel (unary_of_primary hfuel hopens hx hs) hs, ht⟩
    · exact .inr ⟨e, conditional_of_unary_error (unary_of_primary_error hopens he), hcause⟩
  converted ha hx := h.converted (primary_of_conditional ha hx).2 hx

theorem pattern_of_name {name : String} (h : c.name? r.current = some name) :
    pattern inner c r = (advance >>= fun _ => pure (.identifier name)) c r := by
  rw [pattern, skipName, bind_assoc, name?_bind, h]
  dsimp only
  rw [bind_assoc]
  rfl

theorem pattern_of_not_name (h : c.name? r.current = none) :
    pattern inner c r =
      (skipMark .leftBracket >>= fun b =>
        if b then untilMark .rightBracket (patternElement inner) inner.fuel >>= fun elements =>
          pure (.array elements)
        else skipMark .leftBrace >>= fun b =>
          if b then untilMark .rightBrace (patternMember inner) inner.fuel >>= fun members =>
            pure (.object members)
          else unexpected) c r := by
  rw [pattern, skipName, bind_assoc, name?_bind, h]
  rfl

/-- A name is the same as an expression and as a target. -/
theorem covers_name {name : String} (hname : c.name? r.current = some name)
    (hname' : c'.name? r.current = some name) :
    Covering i Expression.toPattern? Token.closesOperand (primary inner c r)
      (pattern inner c' r) := by
  rw [pattern_of_name hname']
  refine ⟨fun {y s} hb hs => ?_, fun {x y s} ha hx => ?_⟩
  · obtain ⟨_, s', hadvance, hb⟩ := exists_of_bind_eq_ok hb
    cases hb
    exact .inl ⟨.identifier name, primary_of_name hname hadvance hs, rfl⟩
  · obtain ⟨rfl, hadvance⟩ := eq_of_primary_of_name hname ha hx
    have hadvance' : advance c' r = .ok ((), s) := hadvance
    exact .inl (bind_of_ok hadvance')

/-- Elements in brackets, of an array or an object. -/
theorem covers_brackets {α β : Type} {G : α → Option β} {p : Parse α} {q : Parse β}
    {close : Punctuator} {fuel n : Nat} {f : List α → Expression} {g : List β → Pattern}
    (hc : c.Moved start c') (hf : ∀ xs, (f xs).toPattern? = (xs.mapM G).map g)
    (hp : InStep (.moved start) false n false .univ true p p)
    (hpq : ∀ {r}, start.Reaches r → r.left < n → Covering false G (fun _ => true) (p c r) (q c' r))
    (hr : start.Reaches r) (hend : r.current.isEnd = false) (hlt : r.left ≤ n) (ends : Token → Bool) :
    Covering false Expression.toPattern? ends
      ((advance >>= fun _ => withIn (untilMark close p fuel) >>= fun xs => pure (f xs)) c r)
      ((advance >>= fun _ => untilMark close q fuel >>= fun ys => pure (g ys)) c' r) := by
  refine .advance_bind fun {s} hadvance => ?_
  obtain ⟨hs, hless⟩ := reaches_of_advance hr hend hadvance
  rw [bind_apply, withIn_of_noIn hc.noIn, ← bind_apply]
  refine .bind (.untilMark hp hpq close fuel hs (by omega)) (fun {xs s z w s'} hz hw => ?_)
    fun {xs ys s} _ _ hxs => .ok (by rw [hf, hxs]; rfl)
  cases hz
  rw [hf] at hw
  obtain ⟨ys, hys, -⟩ := Option.map_eq_some_iff.mp hw
  exact ⟨ys, hys⟩

/-- Nothing else begins a target.  An expression may be one in brackets, which a pattern is not. -/
theorem covers_other (hname : c.name? r.current = none) (hname' : c'.name? r.current = none)
    (hbracket : r.current.isMark .leftBracket = false)
    (hbrace : r.current.isMark .leftBrace = false) (ends : Token → Bool) :
    Covering i Expression.toPattern? ends (conditional inner c r) (pattern inner c' r) := by
  have hpattern : pattern inner c' r = (unexpected : Parse Pattern) c' r := by
    rw [pattern_of_not_name hname', skipMark_of_not hbracket, if_neg Bool.false_ne_true,
      skipMark_of_not hbrace]
    rfl
  rw [hpattern]
  cases hparen : r.current.isMark .leftParen with
  | true => exact .refuses (by rw [Token.eq_of_isMark hparen]; rfl)
  | false =>
    refine .of_error fun x s h => ?_
    cases hx : x.toPattern? with
    | none => rfl
    | some y =>
      rw [← hx]
      exact noTarget_primary hname hparen hbracket hbrace (primary_of_conditional h hx).2

/-- Conditional expressions cover targets, however deep they are. -/
theorem covers_target (hc : c.Moved start c') (k : Nat) : CoversTargets start c c' k := by
  -- Induction on the depth of the phrases.
  induction k with
  | zero =>
    intro r hr hlt
    have hend : r.current = .endOfInput := by
      unfold Reading.left at hlt
      split at hlt
      · next hend => cases htoken : r.current <;> rw [htoken] at hend <;> first | rfl | cases hend
      · cases hlt
    exact covers_other (by rw [hend]; rfl) (by rw [hend]; rfl) (by rw [hend]; rfl)
      (by rw [hend]; rfl) _
  | succ k ih =>
    intro r hr hlt
    have hphrases : Phrases.InStep (.moved start) (k + 1) (.ofDepth (k + 1)) (.ofDepth (k + 1)) :=
      Phrases.inStep_ofDepth (Nat.le_refl _) (Nat.le_refl _)
    have hfuel : 0 < (Phrases.ofDepth (k + 1)).fuel := Nat.succ_pos k
    have hname' := hc.alike.name?_eq ⟨rfl, hr⟩
    cases hname : c.name? r.current with
    | some name =>
      rw [hname] at hname'
      exact covers_conditional hfuel (opensPrimary_of_name hname) (covers_name hname hname')
    | none =>
    rw [hname] at hname'
    cases hbracket : r.current.isMark .leftBracket with
    | true =>
      have htoken := Token.eq_of_isMark hbracket
      have hliteral : primary (.ofDepth (k + 1)) c r = arrayLiteral (.ofDepth (k + 1)) c r := by
        rw [primary, current_bind, htoken]
      refine covers_conditional hfuel (by rw [htoken]; rfl) ?_
      rw [hliteral, arrayLiteral, expect_of_isMark hbracket, pattern_of_not_name hname',
        skipMark_of_isMark hbracket]
      exact covers_brackets hc Expression.toPattern?_array inferInstance
        (fun hr hlt => covers_element hc ih hr (Nat.le_of_lt_succ hlt)) hr (by rw [htoken]; rfl) hlt _
    | false =>
    cases hbrace : r.current.isMark .leftBrace with
    | true =>
      have htoken := Token.eq_of_isMark hbrace
      have hliteral : primary (.ofDepth (k + 1)) c r = objectLiteral (.ofDepth (k + 1)) c r := by
        rw [primary, current_bind, htoken]
      refine covers_conditional hfuel (by rw [htoken]; rfl) ?_
      rw [hliteral, objectLiteral, expect_of_isMark hbrace, pattern_of_not_name hname',
        skipMark_of_not hbracket, if_neg Bool.false_ne_true, skipMark_of_isMark hbrace]
      exact covers_brackets hc Expression.toPattern?_object inferInstance
        (fun hr hlt => covers_member hc ih hr (Nat.le_of_lt_succ hlt)) hr (by rw [htoken]; rfl) hlt _
    | false => exact covers_other hname hname' hbracket hbrace _

/-! ## Lists of parameters -/

theorem parameter_of_not (h : r.current.isMark .ellipsis = false) :
    parameter inner c r = ((inner.pattern >>= defaulted inner) >>= fun target =>
      separator .rightParen >>= fun _ => pure target) c r := by
  rw [parameter, skipMark_of_not h, if_neg Bool.false_ne_true, bind_assoc]

/-- A part of a group covers a parameter. -/
theorem covers_grouped (hc : c.Moved start c') (hr : start.Reaches r) (hlt : r.left ≤ k) :
    Covering false Grouped.toPattern? (fun _ => true) (grouped (.ofDepth (k + 1)) c r)
      (parameter (.ofDepth (k + 1)) c' r) := by
  have hphrases : Phrases.InStep (.moved start) (k + 1) (.ofDepth (k + 1)) (.ofDepth (k + 1)) :=
    Phrases.inStep_ofDepth (Nat.le_refl _) (Nat.le_refl _)
  cases hdots : r.current.isMark .ellipsis with
  | true =>
    rw [grouped, skipMark_of_isMark hdots, parameter, skipMark_of_isMark hdots]
    refine .advance_bind fun hadvance => ?_
    have hend : r.current.isEnd = false := by rw [Token.eq_of_isMark hdots]; rfl
    obtain ⟨hs, hless⟩ := reaches_of_advance hr hend hadvance
    rw [if_pos rfl, if_pos rfl]
    refine .bind (.same hphrases.pattern hc hs (by simp only [bound]; omega)) (fun _ _ => ⟨_, rfl⟩)
      fun {target target' s} _ _ htarget => ?_
    cases htarget
    rw [atMark_bind, atMark_bind]
    split
    · exact .ok rfl
    · exact .of_error fun _ _ h => by cases h
  | false =>
    rw [grouped, skipMark_of_not hdots, if_neg Bool.false_ne_true, parameter_of_not hdots]
    refine .bind_of_ends (covers_defaulted hc (covers_target hc k) hr hlt)
      (fun {y s z s'} _ hz _ => ?_) (fun {e s z w s'} hz hw => ?_) fun {e target s} _ _ he => ?_
    · obtain ⟨_, _, hseparator, -⟩ := exists_of_bind_eq_ok hz
      exact closesElement_of_separator rfl hseparator
    · rw [atMark_bind] at hz
      split at hz
      · cases hz
        exact ⟨w, hw⟩
      · obtain ⟨_, _, -, hz⟩ := exists_of_bind_eq_ok hz
        cases hz
        exact ⟨w, hw⟩
    · rw [atMark_bind]
      cases hparen : s.current.isMark .rightParen with
      | true =>
        rw [if_pos rfl, separator_of_isMark hparen]
        exact .ok he
      | false =>
        rw [if_neg Bool.false_ne_true, separator_of_not hparen]
        cases hcomma : s.current.isMark .comma with
        | true =>
          rw [expect_of_isMark hcomma, expect_of_isMark hcomma]
          exact .advance_bind fun _ => .ok he
        | false =>
          rw [expect_of_not hcomma, expect_of_not hcomma]
          exact .of_error fun _ _ h => by cases h

/-- An argument covers a parameter. -/
theorem covers_argument (hc : c.Moved start c') (hr : start.Reaches r) (hlt : r.left ≤ k) :
    Covering true Expression.toPattern? (fun _ => true) (argument (.ofDepth (k + 1)) c r)
      (parameter (.ofDepth (k + 1)) c' r) := by
  rw [argument]
  cases hdots : r.current.isMark .ellipsis with
  | true =>
    rw [spreadable_of_isMark hdots, parameter, skipMark_of_isMark hdots]
    refine .advance_bind fun hadvance => ?_
    have hend : r.current.isEnd = false := by rw [Token.eq_of_isMark hdots]; rfl
    obtain ⟨hs, hless⟩ := reaches_of_advance hr hend hadvance
    exact covers_rest .rightParen hc (covers_target hc k) hs (by omega) rfl nofun
      Expression.toPattern?_spread (fun _ _ => ⟨_, rfl, fun _ => rfl⟩) _
  | false =>
    rw [spreadable_of_not hdots, parameter_of_not hdots]
    have hplain (e : Expression) : e.toPattern? = e.toPattern?.map id := by
      rw [Option.map_id, id_eq]
    exact covers_separated .rightParen (covers_defaulted hc (covers_target hc k) hr hlt).weaken rfl
      hplain _

end Grammar

end EcmaEval
