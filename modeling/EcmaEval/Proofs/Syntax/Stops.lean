import EcmaEval.Grammar.Statement
import EcmaEval.Proofs.Syntax.InStep

/-!
# Readers that may stop for good

Behind the last token of a text a reader may refuse what it has read so far, whatever follows.  The
first of two readers then fails at the end of its text, and that is not excused.  The second one goes on
in another line, and fails there too.

## Main definitions

* `Parse.Stops`: two readers keep readings in step, or both stop where the first text ends

## Main results

* `Parse.InStep.advance_bind`: a token is passed before such readers
* `Parse.Stops.afterLineEnd`, `Parse.Stops.jumpLabel_bind`: they look for the end of the line
-/

namespace EcmaEval

namespace Parse

variable {P : Pairing} {α β : Type} {p q : Parse α} {f g : α → Parse β}
  {c c' : Context} {r r' : Reading} {inside : Bool} {n : Nat} {fresh : Bool} {S : Set Token}

/-- The readers keep readings in step that have less than a bound left to read.  At the end the first
one closes if its errors are excused there; otherwise it closes, or it fails and so does the second one
behind a line end. -/
class Stops (P : Pairing) (inside : Bool) (n : Nat) (p q : Parse α) : Prop where
  outcome : ∀ {c c' r r'}, P.Alike inside c c' → P.Pairs r r' → r.left < n →
    P.Outcome false r (p c r) (q c' r')
  closing : (∀ e : SyntaxError, e.incomplete = true → P.Excused e) → ∀ c {r}, P.Ended r →
    P.Closing (p c r)
  stop : ∀ {c c'}, P.Alike inside c c' → ∀ {r}, P.Ended r → r.afterLineEnd = true →
    P.Closing (p c r) ∨
      (∃ e, p c r = .error e) ∧ ∀ {r'}, r'.afterLineEnd = true → ∃ e', q c' r' = .error e'

namespace Stops

/-- Readers that close at the end keep readings in step. -/
instance (priority := low) of_inStep [h : InStep P inside n false .univ false p q] :
    Stops P inside n p q where
  outcome halike hpairs hlt := h.outcome halike hpairs hlt trivial
  closing _ c _ hended := h.closing c hended trivial
  stop _ _ hended _ := .inl (h.closing _ hended trivial)

/-! ### Failures -/

theorem closing_fail (hexcused : ∀ e : SyntaxError, e.incomplete = true → P.Excused e)
    (cause : SyntaxCause) (hended : P.Ended r) :
    P.Closing (.error ⟨cause, r.cursor.toPosition, r.current.isEnd⟩ :
      Except SyntaxError (α × Reading)) := by
  refine .error (hexcused _ ?_)
  rw [P.current_of_ended hended]
  rfl

theorem outcome_fail (cause : SyntaxCause) [hproper : cause.Proper] (hpairs : P.Pairs r r') :
    P.Outcome false r (.error ⟨cause, r.cursor.toPosition, r.current.isEnd⟩ :
      Except SyntaxError (α × Reading)) (.error ⟨cause, r'.cursor.toPosition, r'.current.isEnd⟩) := by
  refine .failed ?_
  rw [P.eq_of_blind hpairs Token.isEnd]
  exact P.corresponds hpairs cause hproper.ne_exhausted

/-- Nothing runs behind a failure. -/
instance (priority := high) fail_bind (cause : SyntaxCause) [cause.Proper] :
    Stops P inside n (Parse.fail cause >>= f) (Parse.fail cause >>= g) where
  outcome _ hpairs _ := outcome_fail cause hpairs
  closing hexcused _ _ hended := closing_fail hexcused cause hended
  stop _ _ _ _ := .inr ⟨⟨_, rfl⟩, fun _ => ⟨_, rfl⟩⟩

/-! ### Branches -/

instance ite {p₁ p₂ q₁ q₂ : Parse α} {b : Prop} [Decidable b] [Stops P inside n p₁ q₁]
    [Stops P inside n p₂ q₂] :
    Stops P inside n (if b then p₁ else p₂) (if b then q₁ else q₂) := by
  split <;> infer_instance

/-- What stands behind may rely on what the contexts agree on. -/
theorem context {f g : Context → Parse β}
    (k : ∀ c c', P.Alike inside c c' → Stops P inside n (f c) (g c')) :
    Stops P inside n (Parse.context >>= f) (Parse.context >>= g) where
  outcome halike hpairs hlt := (k _ _ halike).outcome halike hpairs hlt
  closing hexcused c _ hended := (k c c (.refl P inside c)).closing hexcused c hended
  stop halike _ hended hline := (k _ _ halike).stop halike hended hline

/-- Behind the end of a line the readers may stop. -/
instance afterLineEnd {f g : Bool → Parse β} [t : Stops P inside n (f true) (g true)]
    [k : InStep P inside n false .univ false (f false) (g false)] :
    Stops P inside n (Parse.afterLineEnd >>= f) (Parse.afterLineEnd >>= g) := by
  have happly (f : Bool → Parse β) (c : Context) (r : Reading) :
      (Parse.afterLineEnd >>= f) c r = f r.afterLineEnd c r := rfl
  constructor
  · intro c c' r r' halike hpairs hlt
    rw [happly, happly, P.afterLineEnd_eq hpairs]
    cases r.afterLineEnd with
    | true => exact t.outcome halike hpairs hlt
    | false => exact k.outcome halike hpairs hlt trivial
  · intro hexcused c r hended
    rw [happly]
    cases r.afterLineEnd with
    | true => exact t.closing hexcused c hended
    | false => exact k.closing c hended trivial
  · intro c c' halike r hended hline
    rw [happly, hline]
    refine (t.stop halike hended hline).imp_right fun ⟨he, hstop⟩ => ⟨he, fun {r'} hline' => ?_⟩
    rw [happly, hline']
    exact hstop hline'

end Stops

namespace InStep

/-- A token is passed.  If it was the last one of the first text, the readers behind it may stop. -/
theorem advance_bind [hS : Solid S] {f g : Unit → Parse β} (h : Stops P inside n (f ()) (g ())) :
    InStep P inside n fresh S true (Parse.advance >>= f) (Parse.advance >>= g) := by
  refine ⟨fun {c c' r r'} halike hpairs hlt hr => ?_,
    fun c r hended hr => (hS.not_ended hended hr).elim⟩
  have hend := hS.isEnd _ hr
  rw [bind_apply, bind_apply]
  unfold Parse.advance
  rcases P.next hpairs hend with hending | halike'
  · obtain ⟨line, d, hnext, hended⟩ := P.ending hending
    rw [hnext]
    dsimp only
    rcases P.lineEnd hpairs hending with hexcused | ⟨hcorresponds, hline, hline'⟩
    · exact .closing (h.closing hexcused c hended)
    rcases h.stop halike hended (hline hnext) with hclosing | ⟨⟨e, he⟩, hstop⟩
    · exact .closing hclosing
    -- The first reader stops, and so does the second one in the next line.
    rw [he]
    cases hnext' : Lexer.nextOnLine r'.cursor false with
    | error => exact .failed (hcorresponds _ _)
    | ok found d' =>
      have hline'' : (⟨found.1, found.2, d'⟩ : Reading).afterLineEnd = true := hline' hnext'
      obtain ⟨e', he'⟩ := hstop hline''
      dsimp only
      rw [he']
      exact .failed (hcorresponds _ _)
  · have hless {found : Token × Bool} {d : Cursor}
        (h : Lexer.nextOnLine r.cursor false = .ok found d) :
        (⟨found.1, found.2, d⟩ : Reading).left < r.left :=
      Reading.left_lt_of_nextOnLine hend h
    generalize Lexer.nextOnLine r.cursor false = result at halike' hless
    generalize Lexer.nextOnLine r'.cursor false = result' at halike'
    cases halike' with
    | excused h => exact .closing (.error h)
    | failed h => exact .failed h
    | @ok found _ d d' hpairs' =>
      have hleft := hless rfl
      have hbound : (⟨found.1, found.2, d⟩ : Reading).left < n := by
        cases fresh <;> simp only [bound] at hlt <;> omega
      exact (h.outcome halike hpairs' hbound).of_lt hleft

/-- A mark is passed before readers that may stop. -/
theorem expect_bind {mark : Punctuator} {f g : Unit → Parse β}
    (h : Stops P inside n (f ()) (g ())) :
    InStep P inside n fresh S true (Parse.expect mark >>= f) (Parse.expect mark >>= g) := by
  have hmark (f : Unit → Parse β) : Parse.expect mark >>= f = Parse.atMark mark >>= fun b =>
      if b = true then Parse.advance >>= f else Parse.unexpected >>= f := by
    unfold Parse.expect
    rw [bind_assoc]
    congr 1
    funext b
    split <;> rfl
  rw [hmark, hmark]
  exact InStep.atMark mark (t := InStep.ite_true (h := advance_bind h))

end InStep

/-! ### The labels of jumps -/

open Grammar

/-- The token ends a statement that may take an operand. -/
def endsOperand (token : Token) : Bool :=
  token.isMark .semicolon || token.isMark .rightBrace || token.isEnd

instance blind_endsOperand : Token.Blind endsOperand := .of_template fun _ _ _ _ => rfl

theorem jumpLabel_bind_apply (f : Option String → Parse β) (c : Context) (r : Reading) :
    (jumpLabel >>= f) c r =
      if (r.afterLineEnd || endsOperand r.current) = true then f none c r
      else
        match c.name? r.current with
        | some name => (Parse.advance >>= fun _ => f (some name)) c r
        | none => f none c r := by
  have hlooks : atStatementEnd c r = .ok (r.afterLineEnd || endsOperand r.current, r) := by
    unfold atStatementEnd
    rw [bind_apply]
    dsimp only [Parse.afterLineEnd]
    cases r.afterLineEnd <;> rfl
  unfold jumpLabel
  rw [bind_assoc, bind_apply, hlooks]
  dsimp only
  split
  · rfl
  · change (skipName >>= f) c r = _
    rw [InStep.skipName_bind, bind_apply]
    dsimp only [Parse.name?]
    cases c.name? r.current <;> rfl

instance Stops.jumpLabel_bind {f g : Option String → Parse β}
    [k : ∀ label, Stops P inside n (f label) (g label)] :
    Stops P inside n (jumpLabel >>= f) (jumpLabel >>= g) := by
  constructor
  · intro c c' r r' halike hpairs hlt
    rw [jumpLabel_bind_apply, jumpLabel_bind_apply, P.afterLineEnd_eq hpairs,
      halike.name?_eq hpairs, P.eq_of_blind hpairs endsOperand]
    split
    · exact (k none).outcome halike hpairs hlt
    · cases hname : c.name? r.current with
      | none => exact (k none).outcome halike hpairs hlt
      | some name =>
        have : Solid {r.current} := .of_isEnd (Token.isEnd_of_name? hname)
        have hpasses : InStep P inside n false {r.current} true
            (Parse.advance >>= fun _ => f (some name)) (Parse.advance >>= fun _ => g (some name)) :=
          InStep.advance_bind (k (some name))
        exact (hpasses.outcome halike hpairs hlt rfl).weaken
  · intro hexcused c r hended
    have hend : (r.afterLineEnd || endsOperand r.current) = true := by
      rw [P.current_of_ended hended]
      exact Bool.or_true _
    rw [jumpLabel_bind_apply, if_pos hend]
    exact (k none).closing hexcused c hended
  · intro c c' halike r hended hline
    rw [jumpLabel_bind_apply, if_pos (Bool.or_eq_true_iff.mpr (.inl hline))]
    refine ((k none).stop halike hended hline).imp_right fun ⟨he, hstop⟩ => ⟨he, fun {r'} hline' => ?_⟩
    rw [jumpLabel_bind_apply, if_pos (Bool.or_eq_true_iff.mpr (.inl hline'))]
    exact hstop hline'

end Parse

end EcmaEval
