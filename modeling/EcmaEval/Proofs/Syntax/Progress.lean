import EcmaEval.Proofs.Flags.Readers
import EcmaEval.Proofs.Syntax.Forward
import EcmaEval.Proofs.Syntax.InFunction
import EcmaEval.Proofs.Syntax.Steps

/-!
# Reading comes to an end

Each phrase that is read, and each part that a phrase repeats, passes at least one token: behind it
less is left than before.  So no loop of a reader turns around without getting on, and no phrase
lies deeper in others than there are characters.  The steps that the readers are granted never run
out, and granting more of them makes no difference.

## Main definitions

* `Pairing.onward`: each reading with itself, as far as one reading leads
* `Parse.Proceeds`: a reader ends, and passes a token where it succeeds
* `Grammar.Reader`: the readers of phrases, and of the parts that phrases repeat

## Main results

* `Grammar.Reader.proceeds`: every reader of phrases proceeds
* `Program.reading_ends`: reading the tokens of a text, and reading it as a program, comes to an end
-/

namespace EcmaEval

/-! ## Readings that come from one -/

/-- The readings that one leads to, each of which is in step with itself only. -/
def Pairing.onward (start : Reading) : Pairing :=
  .itself start.Reaches (fun _ => False) (·.template) (·.next ·)
    fun h hspecial hread hresult => h.special hspecial hread hresult

/-- Two runs on one reading end alike: with less left, or for a reason in the text. -/
theorem Pairing.Outcome.cases_onward {α : Type} {start r : Reading} {takes : Bool}
    {result result' : Except SyntaxError (α × Reading)}
    (h : (onward start).Outcome takes r result result') :
    result' = result ∧ (∀ x s, result = .ok (x, s) → start.Reaches s ∧
        s.left ≤ r.left ∧ (takes = true → s.left < r.left)) ∧
      ∀ e, result = .error e → e.cause ≠ .exhausted := by
  cases h with
  | ok hpairs hle htakes =>
    obtain ⟨rfl, hreaches⟩ := hpairs
    refine ⟨rfl, fun x s heq => ?_, fun e heq => by cases heq⟩
    cases heq
    exact ⟨hreaches, hle, htakes⟩
  | closing h =>
    cases h with
    | ok h => exact h.elim
    | error h => exact h.elim
  | failed h =>
    obtain ⟨rfl, hproper⟩ := h
    refine ⟨rfl, fun x s heq => (by cases heq), fun e heq => ?_⟩
    cases heq
    exact hproper

namespace Parse

variable {α : Type} {read : Phrases → Parse α} {c : Context} {r : Reading}

/-- With phrases that may lie deep enough, the reader ends for a reason in the text.  It does not
run out of steps, and more depth makes no difference.  Where it succeeds, at least one token was passed,
and reading stands in the same text. -/
structure Proceeds (read : Phrases → Parse α) (c : Context) (r : Reading) : Prop where
  passes : ∀ {depth x s}, r.left < depth → read (.ofDepth depth) c r = .ok (x, s) →
    r.Reaches s ∧ s.left < r.left
  ends : ∀ {depth e}, r.left < depth → read (.ofDepth depth) c r = .error e → e.cause ≠ .exhausted
  settles : ∀ {depth depth'}, r.left < depth → r.left < depth' →
    read (.ofDepth depth') c r = read (.ofDepth depth) c r

/-- What keeps in step and takes something proceeds. -/
theorem Proceeds.of_inStep {S : Set Token} (hr : r.current ∈ S)
    (h : ∀ (P : Pairing) (n : Nat) (inner inner' : Phrases) [Phrases.InStep P n inner inner'],
      InStep P true n false S true (read inner) (read inner')) : Proceeds read c r := by
  have houtcome {depth depth' : Nat} (hdepth : r.left < depth) (hdepth' : r.left < depth') :
      (Pairing.onward r).Outcome true r (read (.ofDepth depth) c r) (read (.ofDepth depth') c r) := by
    have hphrases : Phrases.InStep (.onward r) (r.left + 1) (.ofDepth depth) (.ofDepth depth') :=
      Phrases.inStep_ofDepth hdepth hdepth'
    exact (h (.onward r) (r.left + 1) _ _).outcome (.refl _ _ c) ⟨rfl, .refl⟩ (Nat.lt_succ_self _) hr
  refine ⟨fun hdepth hok => ?_, fun hdepth herror => ?_, fun hdepth hdepth' => ?_⟩
  · obtain ⟨hreaches, -, htakes⟩ := (houtcome hdepth hdepth).cases_onward.2.1 _ _ hok
    exact ⟨hreaches, htakes rfl⟩
  · exact (houtcome hdepth hdepth).cases_onward.2.2 _ herror
  · exact (houtcome hdepth hdepth').cases_onward.1

/-- At the end of the text nothing is passed, so the reader fails. -/
theorem Proceeds.exists_error_of_end (h : Proceeds read c r) (hend : r.current.isEnd = true)
    {depth : Nat} (hdepth : 0 < depth) : ∃ e, read (.ofDepth depth) c r = .error e := by
  have hleft : r.left = 0 := by
    unfold Reading.left
    rw [hend]
    rfl
  cases hresult : read (.ofDepth depth) c r with
  | ok found =>
    obtain ⟨-, hless⟩ := h.passes (hleft ▸ hdepth) hresult
    rw [hleft] at hless
    exact absurd hless (Nat.not_lt_zero _)
  | error e => exact ⟨e, rfl⟩

end Parse

/-! ## Phrases and their parts -/

namespace Grammar

open Parse

/-- The readers of phrases, and of the parts that phrases repeat. -/
inductive Reader : {α : Type} → (Phrases → Parse α) → Prop where
  | item : Reader item
  | statement : Reader statement
  | block : Reader block
  | expression : Reader expression
  | assignment : Reader assignment
  | group : Reader group
  | grouped : Reader grouped
  | arguments : Reader arguments
  | argument : Reader argument
  | arrayLiteral : Reader arrayLiteral
  | arrayElement : Reader arrayElement
  | objectLiteral : Reader objectLiteral
  | objectMember : Reader objectMember
  | template : Reader template
  | classNode (isDeclaration : Bool) : Reader (classNode · isDeclaration)
  | classElement (derived : Bool) : Reader (classElement · derived)
  | pattern : Reader pattern
  | patternElement : Reader patternElement
  | patternMember : Reader patternMember
  | parameters : Reader parameters
  | parameter : Reader parameter
  | switchCases (hasDefault : Bool) : Reader fun inner => switchCases inner hasDefault inner.fuel
  | switchCase (hasDefault : Bool) : Reader (switchCase · hasDefault)

/-- Every reader of phrases proceeds, wherever it begins. -/
theorem Reader.proceeds {α : Type} {read : Phrases → Parse α} (h : Reader read) (c : Context)
    (r : Reading) : Proceeds read c r := by
  refine .of_inStep (S := .univ) trivial fun P n inner inner' _ => ?_
  cases h <;> infer_instance

/-- The parts of a template proceed from a part that has a substitution behind it. -/
theorem proceeds_substitutions (c : Context) {r : Reading} (hr : r.current.isEnd = false) :
    Proceeds (fun inner => substitutions inner inner.fuel) c r := by
  have := Solid.of_isEnd hr
  refine .of_inStep (S := {r.current}) rfl fun P n inner inner' hinner => ?_
  have hparts : InStep P true n true {r.current} true (substitutions inner inner.fuel)
      (substitutions inner' inner'.fuel) := inStep_substitutions hinner.fuel hinner.fuel'
  exact hparts.consumed

/-! ## Programs -/

/-- A program is read to its end or to a failure.  The steps do not run out, and granting more makes
no difference. -/
theorem program_settles {c : Context} {start : Cursor} {depth depth' : Nat}
    (hdepth : start.rest.length < depth) (hdepth' : start.rest.length < depth') :
    program (.ofDepth depth') c ⟨.endOfInput, false, start⟩ =
        program (.ofDepth depth) c ⟨.endOfInput, false, start⟩ ∧
      ∀ e, program (.ofDepth depth) c ⟨.endOfInput, false, start⟩ = .error e →
        e.cause ≠ .exhausted := by
  rw [program_eq, program_eq, bind_apply, bind_apply, advance]
  cases hfirst : Lexer.nextOnLine start false with
  | error e d =>
    refine ⟨rfl, fun e' heq hcause => ?_⟩
    cases heq
    cases hcause
  | ok found d =>
    obtain ⟨token, line⟩ := found
    dsimp only
    let r : Reading := ⟨token, line, d⟩
    have hleft : r.left < start.rest.length + 1 := by
      unfold Reading.left
      split
      · exact Nat.succ_pos _
      · next hend =>
        exact Nat.succ_lt_succ (Lexer.length_nextOnLine_lt hfirst (by simpa using hend))
    have hphrases : Phrases.InStep (.onward r) (start.rest.length + 1) (.ofDepth depth)
        (.ofDepth depth') := Phrases.inStep_ofDepth hdepth hdepth'
    have hitems : InStep (.onward r) true (start.rest.length + 1) false .univ false
        (programItems (.ofDepth depth)) (programItems (.ofDepth depth')) := inferInstance
    have houtcome := (hitems.outcome (.refl _ _ c) ⟨rfl, .refl⟩ hleft trivial).cases_onward
    exact ⟨houtcome.1, houtcome.2.2⟩

end Grammar

open Grammar Parse

/-- Reading a text comes to an end, its tokens as well as its phrases.

Wherever a token is read in the text, reading stops between two characters of the text, and strictly
behind the place where it began, whether it succeeds or fails.  Only the end of the text may be found
where reading began, and behind it nothing but the end is found.  So all tokens are read, one behind
the other, up to the end or to a failure.

Each phrase passes a token, and so does each part that a phrase repeats; at the end of the text they
all fail.  So the text is read as a program in as many steps as it has characters: more depth makes
no difference, and no failure tells of a step that was missing. -/
theorem Program.reading_ends (options : ParseOptions) (source : String) :
    (∀ c : Cursor, c.StandsIn source →
      (Lexer.next c).cursor.StandsIn source ∧
      (Lexer.next c = .ok .endOfInput c ∨ c.offset < (Lexer.next c).cursor.offset) ∧
      ∀ d, Lexer.next c = .ok .endOfInput d → Lexer.next d = .ok .endOfInput d) ∧
    Lexer.Tokenizes (.ofText source) (Lexer.tokens source) ∧
    (∀ (α : Type) (read : Phrases → Parse α), Reader read → ∀ (c : Context) (r : Reading),
      Proceeds read c r ∧
      (r.current.isEnd = true → ∀ depth, 0 < depth → ∃ e, read (.ofDepth depth) c r = .error e)) ∧
    (∀ (c : Context) (r : Reading), r.current.isEnd = false →
      Proceeds (fun inner => substitutions inner inner.fuel) c r) ∧
    ∀ depth, source.toList.length < depth →
      Program.ofText options source =
        (program (.ofDepth depth) { options } ⟨.endOfInput, false, .ofText source⟩).map (·.1) ∧
      ∀ e, Program.ofText options source = .error e → e.cause ≠ .exhausted := by
  refine ⟨fun c hc => ⟨hc.reaches (Lexer.reaches_next c), Lexer.next_moves c, fun d hd => ?_⟩,
    Lexer.tokenizes_tokens source, fun α read hread c r => ?_, fun c r => proceeds_substitutions c,
    fun depth hdepth => ?_⟩
  · exact Lexer.next_of_end (Lexer.rest_of_next_end hd)
  · have hproceeds := hread.proceeds c r
    exact ⟨hproceeds, fun hend depth hdepth => hproceeds.exists_error_of_end hend hdepth⟩
  · have henough : (Cursor.ofText source).rest.length < (Cursor.ofText source).rest.length + 2 := by
      omega
    obtain ⟨hsame, hproper⟩ := program_settles (c := { options }) henough hdepth
    rw [Program.ofText_eq, hsame]
    cases hresult : program (.ofDepth ((Cursor.ofText source).rest.length + 2)) { options }
        ⟨.endOfInput, false, .ofText source⟩ with
    | ok found => exact ⟨rfl, fun e heq => by cases heq⟩
    | error e =>
      refine ⟨rfl, fun e' heq => ?_⟩
      cases heq
      exact hproper e hresult

end EcmaEval
