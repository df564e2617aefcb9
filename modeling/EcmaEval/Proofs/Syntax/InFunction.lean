import EcmaEval.Proofs.Syntax.ContinuedToken
import EcmaEval.Proofs.Syntax.InStepStatement

/-!
# Reading outside and inside of a function

An expression is read in the same way outside of all functions and at the head of a function, where
parameters stand.  There are two differences.  `new.target` needs a function around it, and `await`
is a name where it is no operator.

## Main definitions

* `Reading.Reaches`: the readings that reading may come to
* `Pairing.moved`: each reading with itself, outside and inside of a function

## Main results

* `Reading.not_meets_of_not_infix`: reading comes to a word only where it is written
* `Context.moved_inOwnBody`: the head of a function, for a text without `await`
-/

namespace EcmaEval

/-! ## Words at hand -/

namespace Lexer

variable {c d : Cursor} {token : Token}

/-- A cursor in a text that goes on with a space. -/
def spaced (c : Cursor) : Cursor := { c with rest := c.rest ++ [' '] }

theorem samePlace_spaced (c : Cursor) : c.SamePlace c.rest [' '] (spaced c) :=
  ⟨List.suffix_rfl, rfl, Iff.rfl⟩

theorem suffix_of_continues {α : Type} {l t : List Char} {result result' : Scan.Result α}
    (h : Scan.Continues l t result result') {x : α} (hresult : result = .ok x d) : d.rest <:+ l := by
  cases h with
  | ok h =>
    cases hresult
    exact h.suffix
  | excused => cases hresult
  | failed => cases hresult

/-- What is read behind a token is the end of the text before it. -/
theorem rest_suffix_of_nextOnLine {seen line : Bool} (h : nextOnLine c seen = .ok (token, line) d) :
    d.rest <:+ c.rest := by
  rcases goesOn_nextOnLine (samePlace_spaced c) seen with ⟨line, d', hd, hrest⟩ | hresult
  · rw [hd] at h
    cases h
    exact hrest ▸ List.nil_suffix
  · exact suffix_of_continues hresult.continues h

theorem rest_suffix_of_next (h : next c = .ok token d) : d.rest <:+ c.rest := by
  rcases goesOn_next (samePlace_spaced c) with ⟨d', hd, hrest⟩ | hresult
  · rw [hd] at h
    cases h
    exact hrest ▸ List.nil_suffix
  · exact suffix_of_continues hresult.continues h

theorem rest_suffix_of_skipBlockComment {seen line : Bool}
    (h : skipBlockComment c seen = .ok line d) : d.rest <:+ c.rest := by
  have hkeeps := keeps_skipBlockComment (samePlace_spaced c) seen
  generalize skipBlockComment (spaced c) seen = result at hkeeps
  rw [h] at hkeeps
  cases hkeeps with
  | ok h => exact h.suffix

theorem infix_of_next {word : Keyword} (h : next c = .ok (.keyword word) d) :
    word.text.toList <:+: c.rest := by
  have hbehind {c c' d : Cursor} {ch : Char} (hnext : (c.skipWhile Text.isSeparator).next? = some (ch, d))
      (hd : c'.rest <:+ d.rest) : c'.rest <:+ c.rest := by
    have hrest : d.rest <:+ (c.skipWhile Text.isSeparator).rest := by
      rw [Cursor.rest_of_next? hnext]
      exact List.suffix_cons _ _
    exact hd.trans (hrest.trans (List.dropWhile_suffix Text.isSeparator))
  fun_induction next c with
  | case1 => cases h
  | case2 => cases h
  | case3 c _ _ ch d hnext _ _ _ _ ih =>
    exact (ih h).trans (hbehind hnext (List.dropWhile_suffix onLine)).isInfix
  | case4 => cases h
  | case5 c _ _ ch d hnext _ _ _ _ _ e he _ _ ih =>
    have hskip : d.skip.rest <:+ d.rest := by
      cases hnext' : d.next? with
      | none => simp [Cursor.skip, hnext']
      | some found =>
        rw [Cursor.skip_of_next? hnext', Cursor.rest_of_next? hnext']
        exact List.suffix_cons _ _
    exact (ih h).trans
      (hbehind hnext ((rest_suffix_of_skipBlockComment he).trans hskip)).isInfix
  | case6 => cases h
  | case7 c _ _ ch d hnext _ _ _ _ _ _ ih =>
    exact (ih h).trans (hbehind hnext (List.dropWhile_suffix onLine)).isInfix
  | case8 c _ _ ch d hnext =>
    exact (infix_of_readAt hnext h).trans (List.dropWhile_suffix Text.isSeparator).isInfix

/-- A reserved word at hand was written in the text. -/
theorem infix_of_keyword {word : Keyword} {seen line : Bool}
    (h : nextOnLine c seen = .ok (.keyword word, line) d) : word.text.toList <:+: c.rest := by
  fun_induction nextOnLine c seen with
  | case1 => cases h
  | case2 c _ d' hnext _ ih => exact (ih h).trans (rest_suffix_of_next hnext).isInfix
  | case3 c _ _ _ _ hnext =>
    cases h
    exact infix_of_next hnext

end Lexer

/-! ## Readings of one text -/

namespace Reading

/-- The readings that reading may come to from one on, whatever tokens of a special kind are read
for. -/
inductive Reaches (start : Reading) : Reading → Prop where
  | refl : Reaches start start
  | next {r : Reading} {token : Token} {line : Bool} {d : Cursor} (h : Reaches start r)
    (hnext : Lexer.nextOnLine r.cursor false = .ok (token, line) d) :
    Reaches start ⟨token, line, d⟩
  | special {r : Reading} {read : Cursor → Scan.Result Token} {token : Token} {d : Cursor}
    (h : Reaches start r) (hspecial : r.current.opensSpecial = true)
    (hread : read = Lexer.readRegExp ∨ read = Lexer.readTemplateContinuation)
    (hresult : read r.cursor = .ok token d) : Reaches start { r with cursor := d }
  | template {r : Reading} {part : TemplatePart} {cooked : Option String} {raw : String}
    (h : Reaches start r) : Reaches start { r with current := .template part cooked raw }

/-- Reading may come to the word. -/
def Meets (start : Reading) (word : Keyword) : Prop :=
  ∃ r, start.Reaches r ∧ r.current = .keyword word

theorem Reaches.cases_text {start r : Reading} (h : start.Reaches r) :
    r.cursor.rest <:+ start.cursor.rest ∧ ∀ word : Keyword, r.current = .keyword word →
      start.current = .keyword word ∨ word.text.toList <:+: start.cursor.rest := by
  induction h with
  | refl => exact ⟨List.suffix_rfl, fun _ h => .inl h⟩
  | next _ hnext ih =>
    refine ⟨(Lexer.rest_suffix_of_nextOnLine hnext).trans ih.1, fun word hword => .inr ?_⟩
    obtain rfl : _ = Token.keyword word := hword
    exact (Lexer.infix_of_keyword hnext).trans ih.1.isInfix
  | @special r read token d _ _ hread hresult ih =>
    refine ⟨List.IsSuffix.trans ?_ ih.1, ih.2⟩
    rcases hread with rfl | rfl
    · exact Lexer.suffix_of_continues
        (Lexer.continues_readRegExp (Lexer.samePlace_spaced r.cursor)) hresult
    · exact Lexer.suffix_of_continues
        (Lexer.continues_readTemplatePart (Lexer.samePlace_spaced r.cursor) _ _) hresult
  | template _ ih => exact ⟨ih.1, fun _ h => nomatch h⟩

/-- A word that is not written in a text is not met there. -/
theorem not_meets_of_not_infix {start : Reading} {word : Keyword}
    (hstart : start.current ≠ .keyword word) (h : ¬word.text.toList <:+: start.cursor.rest) :
    ¬start.Meets word := by
  rintro ⟨r, hr, hword⟩
  exact (hr.cases_text.2 word hword).elim hstart h

end Reading

namespace Pairing

variable {start : Reading}

/-- The readings of a text, each of which is in step with itself.  The first run is outside of
functions, so that `new.target` is out of place in it. -/
def moved (start : Reading) : Pairing :=
  .itself start.Reaches (fun e => e.cause = .misplacedTarget) (·.template) (·.next ·)
    fun h hspecial hread hresult => h.special hspecial hread hresult

/-- Two runs on one reading, outside and inside of a function. -/
theorem Outcome.cases_moved {α : Type} {takes : Bool} {r : Reading}
    {result result' : Except SyntaxError (α × Reading)}
    (h : (moved start).Outcome takes r result result') :
    (∃ x s, result = .ok (x, s) ∧ result' = .ok (x, s) ∧ start.Reaches s ∧ s.left ≤ r.left ∧
      (takes = true → s.left < r.left)) ∨
    ∃ e, result = .error e ∧ (e.cause = .misplacedTarget ∨ result' = .error e) := by
  cases h with
  | ok hpairs hle htakes => exact .inl ⟨_, _, rfl, by rw [hpairs.1], hpairs.2, hle, htakes⟩
  | closing h =>
    cases h with
    | ok h => exact h.elim
    | error h => exact .inr ⟨_, rfl, .inl h⟩
  | failed h => exact .inr ⟨_, rfl, .inr (by rw [h.1])⟩

end Pairing

/-- A context outside of functions and the one at the head of a function, where parameters stand. -/
structure Context.Moved (start : Reading) (c c' : Context) : Prop where
  alike : (Pairing.moved start).Alike false c c'
  noIn : c.noIn = false
  inGenerator : c.inGenerator = false

namespace Parse

variable {α : Type} {start : Reading} {inside : Bool} {n : Nat} {fresh takes : Bool}
  {p q : Parse α} {c c' : Context} {r s : Reading} {x : α}

/-- The two runs of a phrase are the same, unless the first one finds `new.target`. -/
theorem InStep.cases_moved (h : InStep (.moved start) false n fresh .univ takes p q)
    (hc : c.Moved start c') (hr : start.Reaches r) (hlt : r.left < bound n fresh) :
    (∃ x s, p c r = .ok (x, s) ∧ q c' r = .ok (x, s) ∧ start.Reaches s ∧ s.left ≤ r.left ∧
      (takes = true → s.left < r.left)) ∨
    ∃ e, p c r = .error e ∧ (e.cause = .misplacedTarget ∨ q c' r = .error e) :=
  (h.outcome hc.alike ⟨rfl, hr⟩ hlt trivial).cases_moved

/-- Behind a phrase the reading is one of the same text, with less left. -/
theorem InStep.reaches_of_ok (h : InStep (.moved start) inside n fresh .univ true p p)
    (hr : start.Reaches r) (hlt : r.left < bound n fresh) (hp : p c r = .ok (x, s)) :
    start.Reaches s ∧ s.left < r.left := by
  have houtcome := h.outcome (.refl _ _ c) ⟨rfl, hr⟩ hlt trivial
  rcases houtcome.cases_moved with ⟨y, s', hok, -, hwithin, -, htakes⟩ | ⟨e, he, -⟩
  · rw [hp] at hok
    cases hok
    exact ⟨hwithin, htakes rfl⟩
  · rw [hp] at he
    cases he

theorem reaches_of_advance (hr : start.Reaches r) (hend : r.current.isEnd = false)
    (h : advance c r = .ok ((), s)) : start.Reaches s ∧ s.left < r.left := by
  have := Solid.of_isEnd hend
  have hadvance : InStep (.moved start) false r.left true {r.current} true advance advance :=
    inferInstance
  have houtcome := hadvance.outcome (.refl _ _ c) ⟨rfl, hr⟩ (Nat.lt_succ_self _) rfl
  rcases houtcome.cases_moved with ⟨y, s', hok, -, hwithin, -, htakes⟩ | ⟨e, he, -⟩
  · rw [h] at hok
    cases hok
    exact ⟨hwithin, htakes rfl⟩
  · rw [h] at he
    cases he

end Parse

/-- The head of a function.  If it is asynchronous, then reading may not come to an `await`, which
is an operator there. -/
theorem Context.moved_inOwnBody {start : Reading} {options : ParseOptions}
    (hoptions : options.topLevelAwait = false) {isAsync : Bool}
    (hawait : isAsync = true → ¬start.Meets .awaitWord) :
    Moved start { options } (inOwnBody { options } isAsync false false false) where
  noIn := rfl
  inGenerator := rfl
  alike := by
    refine ⟨rfl, rfl, rfl, rfl, rfl, rfl, rfl, fun {r r'} hpairs hword => ?_,
      .inr ⟨rfl, fun _ h => h⟩, fun h => absurd h Bool.false_ne_true⟩
    cases isAsync with
    | false => simp [awaits, inOwnBody, inBody, hoptions]
    | true => exact absurd ⟨r, hpairs.2, Token.eq_of_isWord hword⟩ (hawait rfl)

end EcmaEval
