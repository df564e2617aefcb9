import EcmaEval.Proofs.Syntax.Continued
import EcmaEval.Token.Lexer

/-!
# Tokens in the text, and in a text that goes on

What the text is where a token of a kind is read.  A punctuator takes its own characters and no
more.  A reserved word is written there, because a name with an escape is none.

The next token of a text is the next one of the text that goes on behind a gap, unless there is
none.

## Main definitions

* `Lexer.ReadsAt`: the kinds of tokens, with what they are read from

## Main results

* `Lexer.infix_of_readAt`: a reserved word is written in the text
* `Lexer.offset_pos_of_next`: a punctuator takes something
* `Lexer.goesOn_nextOnLine`: the next token that is no line end
* `Lexer.continues_readRegExp`, `Lexer.continues_readTemplatePart`: the tokens of a special kind
-/

namespace EcmaEval

/-- The token is a literal that is no word and no template. -/
def Token.isLiteral : Token → Bool
  | .numeric _ | .bigint _ | .string _ => true
  | _ => false

namespace Numeral

variable {c d : Cursor} {token : Token}

theorem eq_of_finish {result : Scan.Result Token} (h : finish c result = .ok token d) :
    result = .ok token d := by
  unfold finish at h
  split at h
  · split at h
    · cases h
    · exact h
  · exact h

theorem isLiteral_of_finishDecimal {cs : List Char} (h : finishDecimal c cs = .ok token d) :
    token.isLiteral = true := by
  have hread := eq_of_finish h
  split at hread <;> cases hread
  rfl

theorem isLiteral_of_readMarked {radix : Nat} {mark : String}
    (h : readMarked c radix mark = .ok token d) : token.isLiteral = true := by
  unfold readMarked at h
  dsimp only at h
  split at h
  · cases h
  split at h
  · cases h
    rfl
  · cases eq_of_finish h
    rfl

theorem isLiteral_of_readZeroLed (h : readZeroLed c = .ok token d) : token.isLiteral = true := by
  unfold readZeroLed at h
  dsimp only at h
  split at h
  · cases eq_of_finish h
    rfl
  · exact isLiteral_of_finishDecimal h

theorem isLiteral_of_readDecimal {first : Char} (h : readDecimal c first = .ok token d) :
    token.isLiteral = true := by
  unfold readDecimal at h
  dsimp only at h
  split at h
  · cases h
    rfl
  · exact isLiteral_of_finishDecimal h

theorem isLiteral_of_read {first : Char} (h : read c first = .ok token d) :
    token.isLiteral = true := by
  unfold read at h
  split at h
  · split at h
    · split at h
      · exact isLiteral_of_readMarked h
      · split at h
        · exact isLiteral_of_readZeroLed h
        · exact isLiteral_of_readDecimal h
    · exact isLiteral_of_readDecimal h
  · exact isLiteral_of_readDecimal h

end Numeral

namespace Lexer

open Scan Text

variable {c d e : Cursor} {ch : Char} {token : Token}

/-! ### Kinds of tokens -/

theorem isLiteral_of_readString {quote : Char} {seen : String}
    (h : readString c quote seen = .ok token d) : token.isLiteral = true := by
  fun_induction readString c quote seen with
  | case1 => cases h
  | case2 => cases h; rfl
  | case3 => cases h
  | case4 _ _ _ _ _ _ _ _ _ _ _ _ _ ih => exact ih h
  | case5 => cases h
  | case6 _ _ _ _ _ _ _ _ _ ih => exact ih h

theorem exists_eq_template {closed opened : TemplatePart}
    (h : readTemplatePart c closed opened = .ok token d) :
    ∃ part cooked raw, token = .template part cooked raw := by
  unfold readTemplatePart Result.map at h
  split at h <;> cases h
  exact ⟨_, _, _, rfl⟩

/-- A name that has no escape is written in the text. -/
theorem exists_append_of_readName (c : Cursor) (name : String) (escaped : Bool)
    (h : (readName c name escaped).1.2 = false) : escaped = false ∧ ∃ more,
      (readName c name escaped).1.1.toList = name.toList ++ more ∧ more <+: c.rest := by
  fun_induction readName c name escaped with
  | case1 => exact ⟨h, [], by simp, List.nil_prefix⟩
  | case2 c name escaped ch d hnext _ hpart ih =>
    obtain ⟨hescaped, more, hname, hmore⟩ := ih h
    refine ⟨hescaped, ch :: more, by simpa using hname, ?_⟩
    rw [Cursor.rest_of_next? hnext]
    exact List.cons_prefix_cons.mpr ⟨rfl, hmore⟩
  | case3 c name escaped ch d hnext _ hpart hescape esc e he _ ih => cases (ih h).1
  | case4 => exact ⟨h, [], by simp, List.nil_prefix⟩
  | case5 => exact ⟨h, [], by simp, List.nil_prefix⟩

theorem nameToken_ne_punctuator {name : String} {escaped : Bool} {mark : Punctuator} :
    nameToken name escaped ≠ .punctuator mark := by
  unfold nameToken
  repeat' split
  all_goals nofun

/-- A token is a literal, a template, a name or a punctuator. -/
inductive ReadsAt (c : Cursor) (ch : Char) (d : Cursor) : Token → Cursor → Prop where
  | literal {token : Token} {e : Cursor} (h : token.isLiteral = true) : ReadsAt c ch d token e
  | template {part : TemplatePart} {cooked : Option String} {raw : String} {e : Cursor}
    (h : readTemplatePart d .whole .head = .ok (.template part cooked raw) e) :
    ReadsAt c ch d (.template part cooked raw) e
  | escaped {first : Char} {name : String} {d' e : Cursor} (hch : ch = '\\')
    (hfirst : Escape.readIdentifierEscape d = .ok first d')
    (h : readName d' first.toString true = ((name, true), e)) :
    ReadsAt c ch d (nameToken name true) e
  | name {name : String} {escaped : Bool} {e : Cursor} (hch : isIdentifierStart ch = true)
    (h : readName d ch.toString false = ((name, escaped), e)) :
    ReadsAt c ch d (nameToken name escaped) e
  | punctuator {mark : Punctuator} (h : Punctuator.longestAt? c.rest = some mark) :
    ReadsAt c ch d (.punctuator mark) (c.skipBy mark.spelling.length)

theorem readsAt_of_readAt (h : readAt c ch d = .ok token e) : ReadsAt c ch d token e := by
  unfold readAt at h
  split at h
  · exact .literal (isLiteral_of_readString h)
  split at h
  · obtain ⟨part, cooked, raw, rfl⟩ := exists_eq_template h
    exact .template h
  split at h
  · exact .literal (Numeral.isLiteral_of_read h)
  split at h
  · next hch =>
    split at h
    · next first e' hfirst =>
      cases hname : readName e' first.toString true with
      | mk found e'' =>
        obtain ⟨name, escaped⟩ := found
        simp only [readIdentifier, hname] at h
        cases h
        cases escaped with
        | true => exact .escaped (eq_of_beq hch) hfirst hname
        | false =>
          have := (exists_append_of_readName e' first.toString true (by rw [hname])).1
          cases this
    · cases h
  split at h
  · next hstart =>
    cases hname : readName d ch.toString false with
    | mk found e' =>
      obtain ⟨name, escaped⟩ := found
      simp only [readIdentifier, hname] at h
      cases h
      exact .name hstart hname
  · unfold readPunctuator at h
    split at h <;> cases h
    next hmark => exact .punctuator hmark

/-- A punctuator is the longest that is written there. -/
theorem longestAt?_of_readAt {mark : Punctuator} (h : readAt c ch d = .ok (.punctuator mark) e) :
    Punctuator.longestAt? c.rest = some mark ∧ e = c.skipBy mark.spelling.length := by
  generalize htoken : Token.punctuator mark = token at h
  cases readsAt_of_readAt h with
  | literal hliteral => rw [← htoken] at hliteral; cases hliteral
  | template => cases htoken
  | escaped => exact (nameToken_ne_punctuator htoken.symm).elim
  | name => exact (nameToken_ne_punctuator htoken.symm).elim
  | punctuator hmark =>
    cases htoken
    exact ⟨hmark, rfl⟩

/-! ### Reserved words -/

theorem eq_of_nameToken {name : String} {escaped : Bool} {word : Keyword}
    (h : nameToken name escaped = .keyword word) : escaped = false ∧ name = word.text := by
  unfold nameToken at h
  split at h
  · cases h
  next hescaped =>
  refine ⟨Bool.eq_false_iff.mpr hescaped, ?_⟩
  split at h
  · cases h
  split at h
  · cases h
  split at h
  · cases h
  split at h
  · next hword =>
    cases h
    unfold Keyword.ofText? at hword
    have hfound := List.find?_some hword
    exact (eq_of_beq hfound).symm
  · cases h

/-- Where a reserved word is read, it is written. -/
theorem infix_of_readAt {word : Keyword} (hnext : c.next? = some (ch, d))
    (h : readAt c ch d = .ok (.keyword word) e) : word.text.toList <:+: c.rest := by
  generalize htoken : Token.keyword word = token at h
  cases readsAt_of_readAt h with
  | literal hliteral => rw [← htoken] at hliteral; cases hliteral
  | template => cases htoken
  | escaped => cases (eq_of_nameToken htoken.symm).1
  | @name name escaped _ _ hname =>
    obtain ⟨rfl, rfl⟩ := eq_of_nameToken htoken.symm
    obtain ⟨-, more, hmore, hprefix⟩ := exists_append_of_readName d ch.toString false (by rw [hname])
    rw [hname] at hmore
    rw [hmore, Char.toString_eq_singleton, String.toList_singleton, Cursor.rest_of_next? hnext]
    exact ((List.prefix_append_right_inj [ch]).mpr hprefix).isInfix
  | punctuator => cases htoken

/-! ### Places -/

/-- No punctuator ends at the very beginning of a text. -/
theorem offset_pos_of_next {mark : Punctuator} (h : next c = .ok (.punctuator mark) d) :
    0 < d.offset := by
  fun_induction next c with
  | case1 => cases h
  | case2 => cases h
  | case3 _ _ _ _ _ _ _ _ _ _ ih => exact ih h
  | case4 => cases h
  | case5 _ _ _ _ _ _ _ _ _ _ _ _ _ _ _ ih => exact ih h
  | case6 => cases h
  | case7 _ _ _ _ _ _ _ _ _ _ _ _ ih => exact ih h
  | case8 c _ _ ch d' hnext =>
    obtain ⟨-, rfl⟩ := longestAt?_of_readAt h
    obtain ⟨n, hn⟩ : ∃ n, mark.spelling.length = n + 1 := by cases mark <;> exact ⟨_, rfl⟩
    have hle (c : Cursor) (n : Nat) : c.offset ≤ (c.skipBy n).offset := by
      induction n generalizing c with
      | zero => exact Nat.le_refl _
      | succ n ih =>
        refine Nat.le_trans ?_ (ih c.skip)
        cases hnext : c.next? with
        | none => simp [Cursor.skip, hnext]
        | some found =>
          rw [Cursor.skip_of_next? hnext, Cursor.offset_of_next? hnext]
          exact Nat.le_add_right _ _
    have hpos := ch.utf8Size_pos
    rw [hn, Cursor.skipBy, Cursor.skip_of_next? hnext]
    have := hle d' n
    rw [Cursor.offset_of_next? hnext] at this
    omega

end Lexer

end EcmaEval

/-! # Tokens of a text that goes on -/

namespace EcmaEval

open Scan Cursor Text

variable {l t : List Char} [ht : Apart t] {c c' d : Cursor} {ch : Char}

/-! ## Punctuators -/

namespace Punctuator

theorem isPrefixOf_continued {spelling : List Char} (hspelling : ∀ ch ∈ spelling, ch ∉ gaps)
    (cs : List Char) : spelling.isPrefixOf (cs ++ t) = spelling.isPrefixOf cs := by
  obtain ⟨gap, hgap, rest, rfl⟩ := ht.exists_cons
  induction spelling generalizing cs with
  | nil => simp
  | cons ch spelling ih =>
    rw [List.forall_mem_cons] at hspelling
    cases cs with
    | nil =>
      have hne : ch ≠ gap := fun heq => hspelling.1 (heq ▸ hgap)
      simp [List.isPrefixOf, hne]
    | cons ch' cs => simp [List.isPrefixOf, ih hspelling.2]

theorem not_mem_gaps_of_mem_spelling (p : Punctuator) {ch : Char} (h : ch ∈ p.spelling) :
    ch ∉ gaps := by
  have hall : p.spelling.all (!gaps.contains ·) = true := by cases p <;> decide
  simpa using List.all_eq_true.mp hall ch h

theorem isAt_continued (p : Punctuator) (cs : List Char) : p.isAt (cs ++ t) = p.isAt cs := by
  unfold isAt
  rw [isPrefixOf_continued fun _ => p.not_mem_gaps_of_mem_spelling]
  cases hprefix : p.spelling.isPrefixOf cs with
  | false => simp
  | true =>
    cases p with
    | optionalChain =>
      obtain ⟨cs, rfl⟩ := List.isPrefixOf_iff_prefix.mp hprefix
      have hdigit : ∀ ch ∈ gaps, ch.isDigit = false := forall_mem_gaps.mpr (by decide)
      obtain ⟨gap, rest, rfl, hgap⟩ := ht.head_false hdigit
      cases cs <;> simp [spelling, hgap]
    | _ => rfl

theorem longestAt?_continued (cs : List Char) : longestAt? (cs ++ t) = longestAt? cs := by
  unfold longestAt?
  congr 1
  funext p
  exact isAt_continued p cs

end Punctuator

namespace Lexer

theorem readString_of_next? (h : c.next? = some (ch, d)) (quote : Char) (seen : String) :
    readString c quote seen =
      if (ch == quote) = true then .ok (.string seen) d
      else if Text.isLineEnd ch = true then stop .unterminatedString d
      else if (ch == '\\') = true then
        match Escape.read d with
        | .ok cs e => readString e quote (cs.foldl String.push seen)
        | .error x e => .error x e
      else readString d quote (seen.push ch) := by
  rw [readString]
  split
  · next h' => rw [h] at h'; cases h'
  · next h' =>
    rw [h] at h'
    cases h'
    repeat' split
    all_goals simp_all

theorem readString_of_end (h : c.rest = []) (quote : Char) (seen : String) :
    readString c quote seen = stopAtEnd .unterminatedString c := by
  rw [readString]
  split
  · rfl
  · next h' => rw [Cursor.next?_of_end h] at h'; cases h'

theorem continues_readString (h : c.SamePlace l t c') (quote : Char) (seen : String) :
    Continues l t (readString c quote seen) (readString c' quote seen) := by
  fun_induction readString c quote seen generalizing c' with
  | case1 => exact .excused rfl
  | case2 c seen ch d hnext _ hquote =>
    obtain ⟨d', hnext', hd⟩ := h.next? hnext
    rw [readString_of_next? hnext', if_pos hquote]
    exact .ok (.same hd)
  | case3 c seen ch d hnext _ hquote hline =>
    obtain ⟨d', hnext', hd⟩ := h.next? hnext
    rw [readString_of_next? hnext', if_neg hquote, if_pos hline]
    exact .failed (.same hd)
  | case4 c seen ch d hnext _ hquote hline hescape cs e he _ ih =>
    obtain ⟨d', hnext', hd⟩ := h.next? hnext
    rw [readString_of_next? hnext', if_neg hquote, if_neg hline, if_pos hescape]
    have hread := Escape.continues_read hd
    rw [he] at hread
    generalize Escape.read d' = result at hread
    cases hread with
    | ok hread =>
      cases hread with
      | same hsame => exact ih hsame
      | ended hend =>
        rw [readString_of_end hend]
        exact .excused rfl
  | case5 c seen ch d hnext _ hquote hline hescape x e he =>
    obtain ⟨d', hnext', hd⟩ := h.next? hnext
    rw [readString_of_next? hnext', if_neg hquote, if_neg hline, if_pos hescape]
    have hread := Escape.continues_read hd
    rw [he] at hread
    generalize Escape.read d' = result at hread
    cases hread with
    | excused hread => exact .excused hread
    | failed hread => exact .failed hread
  | case6 c seen ch d hnext _ hquote hline hescape ih =>
    obtain ⟨d', hnext', hd⟩ := h.next? hnext
    rw [readString_of_next? hnext', if_neg hquote, if_neg hline, if_neg hescape]
    exact ih hd

/-! ## Names -/

theorem isIdentifierPart_of_mem_gaps : ∀ ch ∈ gaps, isIdentifierPart ch = false :=
  forall_mem_gaps.mpr (by decide)

theorem readName_of_next? (h : c.next? = some (ch, d)) (name : String) (escaped : Bool) :
    readName c name escaped =
      if isIdentifierPart ch = true then readName d (name.push ch) escaped
      else if (ch == '\\') = true then
        match Escape.readIdentifierEscape d with
        | .ok esc e => readName e (name.push esc) true
        | .error _ e => ((name, escaped), e)
      else ((name, escaped), c) := by
  rw [readName]
  split
  · next h' => rw [h] at h'; cases h'
  · next h' =>
    rw [h] at h'
    cases h'
    repeat' split
    all_goals simp_all

/-- A name is the same in the text that goes on. -/
theorem continues_readName (h : c.SamePlace l t c') (name : String) (escaped : Bool) :
    (readName c' name escaped).1 = (readName c name escaped).1 ∧
      (readName c name escaped).2.Continues l t (readName c' name escaped).2 := by
  fun_induction readName c name escaped generalizing c' with
  | case1 c name escaped hnext =>
    obtain ⟨ch, hch, d, hgap⟩ := h.next?_of_end (rest_of_next?_eq_none hnext)
    have hescape : ∀ ch ∈ gaps, (ch == '\\') = false := forall_mem_gaps.mpr (by decide)
    rw [readName_of_next? hgap, isIdentifierPart_of_mem_gaps ch hch, hescape ch hch]
    exact ⟨rfl, .same h⟩
  | case2 c name escaped ch d hnext _ hpart ih =>
    obtain ⟨d', hnext', hd⟩ := h.next? hnext
    rw [readName_of_next? hnext', if_pos hpart]
    exact ih hd
  | case3 c name escaped ch d hnext _ hpart hescape esc e he _ ih =>
    obtain ⟨d', hnext', hd⟩ := h.next? hnext
    rw [readName_of_next? hnext', if_neg hpart, if_pos hescape]
    have hread := Escape.follows_readIdentifierEscape hd
    rw [he] at hread
    generalize Escape.readIdentifierEscape d' = result at hread
    cases hread with
    | ok hsame => exact ih hsame
  | case4 c name escaped ch d hnext _ hpart hescape x e he =>
    obtain ⟨d', hnext', hd⟩ := h.next? hnext
    rw [readName_of_next? hnext', if_neg hpart, if_pos hescape]
    have hread := Escape.follows_readIdentifierEscape hd
    rw [he] at hread
    generalize Escape.readIdentifierEscape d' = result at hread
    cases hread with
    | error hread _ => exact ⟨rfl, hread⟩
  | case5 c name escaped ch d hnext _ hpart hescape =>
    obtain ⟨d', hnext', hd⟩ := h.next? hnext
    rw [readName_of_next? hnext', if_neg hpart, if_neg hescape]
    exact ⟨rfl, .same h⟩

theorem continues_readIdentifier (h : c.SamePlace l t c') (first : Char) (escaped : Bool) :
    Continues l t (readIdentifier c first escaped) (readIdentifier c' first escaped) := by
  have hname := continues_readName h first.toString escaped
  unfold readIdentifier
  generalize readName c first.toString escaped = found at hname
  generalize readName c' first.toString escaped = found' at hname
  obtain ⟨name, d⟩ := found
  obtain ⟨name', d'⟩ := found'
  obtain ⟨rfl, hd⟩ := hname
  exact .ok hd

/-! ## Templates and regular expressions -/

theorem readTemplate_of_next? (h : c.next? = some (ch, d)) (cooked : Option String)
    (raw : String) :
    readTemplate c cooked raw =
      if (ch == '\x60') = true then .ok (cooked, raw, true) d
      else if (ch == '$' && d.peek? == some '\x7b') = true then .ok (cooked, raw, false) d.skip
      else if (ch == '\\') = true then
        match Escape.read d with
        | .ok cs e =>
          readTemplate e (cooked.map fun s => cs.foldl String.push s)
            ((Cursor.between d e).foldl String.push (raw.push ch))
        | .error x e =>
          if x.atEnd = true then .error x e
          else readTemplate e none ((Cursor.between d e).foldl String.push (raw.push ch))
      else if Text.isLineEnd ch = true then
        readTemplate (d.breakLine ch) (cooked.map (·.push '\n')) (raw.push '\n')
      else readTemplate d (cooked.map (·.push ch)) (raw.push ch) := by
  rw [readTemplate]
  split
  · next h' => rw [h] at h'; cases h'
  · next h' =>
    rw [h] at h'
    cases h'
    repeat' split
    all_goals simp_all

theorem readTemplate_of_end (h : c.rest = []) (cooked : Option String) (raw : String) :
    readTemplate c cooked raw = stopAtEnd .unterminatedTemplate c := by
  rw [readTemplate]
  split
  · rfl
  · next h' => rw [Cursor.next?_of_end h] at h'; cases h'

theorem continues_readTemplate (h : c.SamePlace l t c') (cooked : Option String) (raw : String) :
    Continues l t (readTemplate c cooked raw) (readTemplate c' cooked raw) := by
  fun_induction readTemplate c cooked raw generalizing c' with
  | case1 => exact .excused rfl
  | case2 c cooked raw ch d hnext _ hquote =>
    obtain ⟨d', hnext', hd⟩ := h.next? hnext
    rw [readTemplate_of_next? hnext', if_pos hquote]
    exact .ok (.same hd)
  | case3 c cooked raw ch d hnext _ hquote hbrace =>
    obtain ⟨d', hnext', hd⟩ := h.next? hnext
    rw [readTemplate_of_next? hnext', if_neg hquote, hd.beq_peek? (by decide), if_pos hbrace]
    exact .ok (.same (hd.skip_of_peek? (eq_of_beq (Bool.and_eq_true_iff.mp hbrace).2)))
  | case4 c cooked raw ch d hnext _ hquote hbrace hescape cs e he _ ih =>
    obtain ⟨d', hnext', hd⟩ := h.next? hnext
    rw [readTemplate_of_next? hnext', if_neg hquote, hd.beq_peek? (by decide), if_neg hbrace,
      if_pos hescape]
    have hread := Escape.continues_read hd
    rw [he] at hread
    generalize Escape.read d' = result at hread
    cases hread with
    | ok hread =>
      cases hread with
      | same hsame =>
        dsimp only
        rw [hd.between hsame]
        exact ih hsame
      | ended hend =>
        rw [readTemplate_of_end hend]
        exact .excused rfl
  | case5 c cooked raw ch d hnext _ hquote hbrace hescape x e he _ hend => exact .excused hend
  | case6 c cooked raw ch d hnext _ hquote hbrace hescape x e he _ hend ih =>
    obtain ⟨d', hnext', hd⟩ := h.next? hnext
    rw [readTemplate_of_next? hnext', if_neg hquote, hd.beq_peek? (by decide), if_neg hbrace,
      if_pos hescape]
    have hread := Escape.continues_read hd
    rw [he] at hread
    generalize Escape.read d' = result at hread
    cases hread with
    | excused hread => exact absurd hread hend
    | failed hread =>
      dsimp only
      rw [if_neg hend]
      cases hread with
      | same hsame =>
        rw [hd.between hsame]
        exact ih hsame
      | ended hend' =>
        rw [readTemplate_of_end hend']
        exact .excused rfl
  | case7 c cooked raw ch d hnext _ hquote hbrace hescape hline _ ih =>
    obtain ⟨d', hnext', hd⟩ := h.next? hnext
    rw [readTemplate_of_next? hnext', if_neg hquote, hd.beq_peek? (by decide), if_neg hbrace,
      if_neg hescape, if_pos hline]
    have hbreak := hd.breakLine ch
    generalize d'.breakLine ch = e at hbreak
    cases hbreak with
    | same hsame => exact ih hsame
    | ended hend =>
      rw [readTemplate_of_end hend]
      exact .excused rfl
  | case8 c cooked raw ch d hnext _ hquote hbrace hescape hline ih =>
    obtain ⟨d', hnext', hd⟩ := h.next? hnext
    rw [readTemplate_of_next? hnext', if_neg hquote, hd.beq_peek? (by decide), if_neg hbrace,
      if_neg hescape, if_neg hline]
    exact ih hd

theorem continues_readTemplatePart (h : c.SamePlace l t c') (closed opened : TemplatePart) :
    Continues l t (readTemplatePart c closed opened) (readTemplatePart c' closed opened) :=
  (continues_readTemplate h _ _).map _

theorem readTemplateContinuation_of_end (h : c.rest = []) :
    readTemplateContinuation c = stopAtEnd .unterminatedTemplate c := by
  unfold readTemplateContinuation readTemplatePart
  rw [readTemplate_of_end h]
  rfl

theorem readPattern_of_next? (h : c.next? = some (ch, d)) (pattern : String) (inClass : Bool) :
    readPattern c pattern inClass =
      if Text.isLineEnd ch = true then stop .unterminatedRegExp c
      else if (ch == '/' && !inClass) = true then .ok pattern d
      else if (ch == '\\') = true then
        match d.next? with
        | none => stopAtEnd .unterminatedRegExp d
        | some (ch', e) => readPattern e ((pattern.push ch).push ch') inClass
      else readPattern d (pattern.push ch) (ch == '[' || (inClass && ch != ']')) := by
  rw [readPattern]
  split
  · next h' => rw [h] at h'; cases h'
  · next h' =>
    rw [h] at h'
    cases h'
    repeat' split
    all_goals simp_all

theorem readPattern_of_end (h : c.rest = []) (pattern : String) (inClass : Bool) :
    readPattern c pattern inClass = stopAtEnd .unterminatedRegExp c := by
  rw [readPattern]
  split
  · rfl
  · next h' => rw [Cursor.next?_of_end h] at h'; cases h'

omit ht in
theorem keeps_readPattern (h : c.SamePlace l t c') (pattern : String) (inClass : Bool) :
    Keeps l t (readPattern c pattern inClass) (readPattern c' pattern inClass) := by
  fun_induction readPattern c pattern inClass generalizing c' with
  | case1 => exact .excused rfl
  | case2 c pattern inClass ch d hnext _ hline =>
    obtain ⟨d', hnext', hd⟩ := h.next? hnext
    rw [readPattern_of_next? hnext', if_pos hline]
    exact .failed (.same h)
  | case3 c pattern inClass ch d hnext _ hline hclose =>
    obtain ⟨d', hnext', hd⟩ := h.next? hnext
    rw [readPattern_of_next? hnext', if_neg hline, if_pos hclose]
    exact .ok hd
  | case4 => exact .excused rfl
  | case5 c pattern inClass ch d hnext _ hline hclose hescape ch' e hnext₂ _ ih =>
    obtain ⟨d', hnext', hd⟩ := h.next? hnext
    obtain ⟨e', hnext₂', he⟩ := hd.next? hnext₂
    rw [readPattern_of_next? hnext', if_neg hline, if_neg hclose, if_pos hescape, hnext₂']
    exact ih he
  | case6 c pattern inClass ch d hnext _ hline hclose hescape ih =>
    obtain ⟨d', hnext', hd⟩ := h.next? hnext
    rw [readPattern_of_next? hnext', if_neg hline, if_neg hclose, if_neg hescape]
    exact ih hd

theorem readRegExp_of_end (h : c.rest = []) :
    readRegExp c = stopAtEnd .unterminatedRegExp c := by
  unfold readRegExp
  rw [readPattern_of_end h]
  rfl

theorem continues_readRegExp (h : c.SamePlace l t c') :
    Continues l t (readRegExp c) (readRegExp c') := by
  have hpattern := keeps_readPattern h "" false
  unfold readRegExp
  generalize readPattern c' "" false = result at hpattern
  generalize readPattern c "" false = result' at hpattern
  cases hpattern with
  | ok hd =>
    obtain ⟨hflags, he⟩ := hd.span isIdentifierPart_of_mem_gaps
    dsimp only
    rw [hflags]
    exact .ok (.same he)
  | excused h => exact .excused h
  | failed h => exact .failed h

/-! ## Tokens -/

omit ht in
theorem samePlace_skipBy_spelling (h : c.SamePlace l t c') {mark : Punctuator}
    (hmark : Punctuator.longestAt? c.rest = some mark) :
    (c.skipBy mark.spelling.length).SamePlace l t (c'.skipBy mark.spelling.length) := by
  refine h.skipBy ?_
  have hat := List.find?_some hmark
  unfold Punctuator.isAt at hat
  exact (List.isPrefixOf_iff_prefix.mp (Bool.and_eq_true_iff.mp hat).1).length_le

theorem follows_readPunctuator (h : c.SamePlace l t c') (hnext : c.next? = some (ch, d)) :
    Follows l t (readPunctuator c ch) (readPunctuator c' ch) := by
  unfold readPunctuator
  rw [h.rest, Punctuator.longestAt?_continued]
  split
  · next hmark => exact .ok (samePlace_skipBy_spelling h hmark)
  · have hrest : c.rest ≠ [] := fun hend => by simp [Cursor.next?, hend] at hnext
    exact .error (.same (h.skip hrest)) fun _ => rfl

theorem continues_readAt (h : c.SamePlace l t c') (hnext : c.next? = some (ch, d)) {d' : Cursor}
    (hd : d.SamePlace l t d') : Continues l t (readAt c ch d) (readAt c' ch d') := by
  unfold readAt
  rw [hd.any_peek? Numeral.isDecimalDigit_of_mem_gaps]
  split
  · exact continues_readString hd _ _
  split
  · exact continues_readTemplatePart hd _ _
  split
  · exact (Numeral.follows_read hd _).continues
  split
  · have hescape := Escape.follows_readIdentifierEscape hd
    generalize Escape.readIdentifierEscape d' = result at hescape
    generalize Escape.readIdentifierEscape d = result' at hescape
    cases hescape with
    | ok he => exact continues_readIdentifier he _ _
    | error h he => exact (Follows.error h he).continues
  split
  · exact continues_readIdentifier hd _ _
  · exact (follows_readPunctuator h hnext).continues

/-- Results with a token in the text that goes on.  Behind a punctuator the place is the same even
where the shorter text ends. -/
structure GoesOn {α : Type} (token : α → Token) (l t : List Char) (result result' : Result α) :
    Prop where
  continues : Continues l t result result'
  samePlace : ∀ {x : α} {mark : Punctuator} {d d' : Cursor}, token x = .punctuator mark →
    result = .ok x d → result' = .ok x d' → d.SamePlace l t d'

omit ht in
theorem GoesOn.of_error {α : Type} {token : α → Token} {x : LexError} {result : Result α}
    (h : Continues l t (.error x d) result) : GoesOn token l t (.error x d) result :=
  ⟨h, nofun⟩

omit ht in
/-- No line end is a punctuator. -/
theorem GoesOn.lineEnd {result : Result Token} (h : Continues l t (.ok .lineEnd d) result) :
    GoesOn id l t (.ok .lineEnd d) result where
  continues := h
  samePlace hmark hresult := by
    cases hresult
    cases hmark

theorem goesOn_readAt (h : c.SamePlace l t c') (hnext : c.next? = some (ch, d)) {d' : Cursor}
    (hd : d.SamePlace l t d') : GoesOn id l t (readAt c ch d) (readAt c' ch d') := by
  refine ⟨continues_readAt h hnext hd, fun {x mark e e'} hx he he' => ?_⟩
  obtain rfl : x = .punctuator mark := hx
  obtain ⟨hmark, rfl⟩ := longestAt?_of_readAt he
  obtain ⟨-, rfl⟩ := longestAt?_of_readAt he'
  exact samePlace_skipBy_spelling h hmark

/-! ## Blanks and comments -/

theorem skipBlockComment_of_next? (h : c.next? = some (ch, d)) (seenLine : Bool) :
    skipBlockComment c seenLine =
      if (ch == '*' && d.peek? == some '/') = true then .ok seenLine d.skip
      else if Text.isLineEnd ch = true then skipBlockComment (d.breakLine ch) true
      else skipBlockComment d seenLine := by
  rw [skipBlockComment]
  split
  · next h' => rw [h] at h'; cases h'
  · next h' =>
    rw [h] at h'
    cases h'
    rfl

theorem skipBlockComment_of_end (h : c.rest = []) (seenLine : Bool) :
    skipBlockComment c seenLine = stopAtEnd .unterminatedComment c := by
  rw [skipBlockComment]
  split
  · rfl
  · next h' => rw [Cursor.next?_of_end h] at h'; cases h'

theorem keeps_skipBlockComment (h : c.SamePlace l t c') (seenLine : Bool) :
    Keeps l t (skipBlockComment c seenLine) (skipBlockComment c' seenLine) := by
  fun_induction skipBlockComment c seenLine generalizing c' with
  | case1 => exact .excused rfl
  | case2 c seenLine ch d hnext _ _ hclose =>
    obtain ⟨d', hnext', hd⟩ := h.next? hnext
    rw [skipBlockComment_of_next? hnext', hd.beq_peek? (by decide), if_pos hclose]
    exact .ok (hd.skip_of_peek? (eq_of_beq (Bool.and_eq_true_iff.mp hclose).2))
  | case3 c seenLine ch d hnext _ _ hclose hline ih =>
    obtain ⟨d', hnext', hd⟩ := h.next? hnext
    rw [skipBlockComment_of_next? hnext', hd.beq_peek? (by decide), if_neg hclose, if_pos hline]
    have hbreak := hd.breakLine ch
    generalize d'.breakLine ch = e at hbreak
    cases hbreak with
    | same hsame => exact ih hsame
    | ended hend =>
      rw [skipBlockComment_of_end hend]
      exact .excused rfl
  | case4 c seenLine ch d hnext _ _ hclose hline ih =>
    obtain ⟨d', hnext', hd⟩ := h.next? hnext
    rw [skipBlockComment_of_next? hnext', hd.beq_peek? (by decide), if_neg hclose, if_neg hline]
    exact ih hd

theorem next_of_next? {start : Cursor} (hc : start.skipWhile Text.isSeparator = c)
    (h : c.next? = some (ch, d)) :
    next start =
      if Text.isLineEnd ch = true then .ok .lineEnd (d.breakLine ch)
      else if (ch == '/' && d.peek? == some '/') = true then next (d.skipWhile onLine)
      else if (ch == '/' && d.peek? == some '*') = true then
        match skipBlockComment d.skip false with
        | .ok true e => .ok .lineEnd e
        | .ok false e => next e
        | .error x e => .error x e
      else if (ch == '#' && c.offset == 0 && d.peek? == some '!') = true then
        next (d.skipWhile onLine)
      else readAt c ch d := by
  subst hc
  rw [next]
  split
  · next h' => rw [h] at h'; cases h'
  · next h' =>
    rw [h] at h'
    cases h'
    repeat' split
    all_goals simp_all

/-- The end of the text is ahead. -/
def Ends (c : Cursor) : Prop :=
  ∃ d, next c = .ok .endOfInput d ∧ d.rest = []

theorem ends_of_end (h : c.rest = []) : Ends c := by
  have hskip : (c.skipWhile Text.isSeparator).rest = [] := by
    simp [Cursor.skipWhile, Cursor.span, h]
  unfold Ends
  rw [next]
  split
  · exact ⟨_, rfl, hskip⟩
  · next h' => simp [Cursor.next?, hskip] at h'

omit ht in
/-- Behind the separators the first character of a token is the same. -/
theorem samePlace_of_next? {start start' : Cursor} (h : start.SamePlace l t start')
    (hnext : (start.skipWhile isSeparator).next? = some (ch, d)) :
    (start.skipWhile isSeparator).SamePlace l t (start'.skipWhile isSeparator) ∧
      ∃ d', (start'.skipWhile isSeparator).next? = some (ch, d') ∧ d.SamePlace l t d' := by
  have hc := h.skipWhile_of_rest (p := isSeparator) (rest_ne_of_next? hnext)
  exact ⟨hc, hc.next? hnext⟩

/-- The next token is the same in the text that goes on, unless there is none. -/
theorem goesOn_next {start start' : Cursor} (h : start.SamePlace l t start') :
    Ends start ∨ GoesOn id l t (next start) (next start') := by
  have hcomment {d d' : Cursor} (hd : d.SamePlace l t d')
      (ih : ∀ {e : Cursor}, (d.skipWhile onLine).SamePlace l t e → Ends (d.skipWhile onLine) ∨
        GoesOn id l t (next (d.skipWhile onLine)) (next e)) :
      Ends (d.skipWhile onLine) ∨
        GoesOn id l t (next (d.skipWhile onLine)) (next (d'.skipWhile onLine)) := by
    by_cases hend : (d.skipWhile onLine).rest = []
    · exact .inl (ends_of_end hend)
    · exact ih (hd.skipWhile_of_rest hend)
  unfold Ends at hcomment ⊢
  fun_induction next start generalizing start' with
  | case1 start c hlength =>
    rename_i hnext
    exact .inl ⟨_, rfl, rest_of_next?_eq_none hnext⟩
  | case2 start c hlength ch d hnext _ _ =>
    rename_i hline
    obtain ⟨hc, d', hnext', hd⟩ := samePlace_of_next? h hnext
    rw [next_of_next? rfl hnext', if_pos hline]
    exact .inr (.lineEnd (.ok (hd.breakLine ch)))
  | case3 start c hlength ch d hnext _ _ hline hslash =>
    rename_i ih
    obtain ⟨hc, d', hnext', hd⟩ := samePlace_of_next? h hnext
    rw [next_of_next? rfl hnext', if_neg hline, hd.beq_peek? (by decide), if_pos hslash]
    exact hcomment hd ih
  | case4 start c hlength ch d hnext _ _ hline hslash hblock e =>
    rename_i he
    obtain ⟨hc, d', hnext', hd⟩ := samePlace_of_next? h hnext
    rw [next_of_next? rfl hnext', if_neg hline, hd.beq_peek? (by decide), if_neg hslash,
      hd.beq_peek? (by decide), if_pos hblock]
    have hkeeps := keeps_skipBlockComment
      (hd.skip_of_peek? (eq_of_beq (Bool.and_eq_true_iff.mp hblock).2)) false
    rw [he] at hkeeps
    generalize skipBlockComment d'.skip false = result at hkeeps
    cases hkeeps with
    | ok he => exact .inr (.lineEnd (.ok (.same he)))
  | case5 start c hlength ch d hnext _ _ hline hslash hblock e he _ _ =>
    rename_i ih
    obtain ⟨hc, d', hnext', hd⟩ := samePlace_of_next? h hnext
    rw [next_of_next? rfl hnext', if_neg hline, hd.beq_peek? (by decide), if_neg hslash,
      hd.beq_peek? (by decide), if_pos hblock]
    have hkeeps := keeps_skipBlockComment
      (hd.skip_of_peek? (eq_of_beq (Bool.and_eq_true_iff.mp hblock).2)) false
    rw [he] at hkeeps
    generalize skipBlockComment d'.skip false = result at hkeeps
    cases hkeeps with
    | ok he => exact ih he
  | case6 start c hlength ch d hnext _ _ hline hslash hblock x e =>
    rename_i he
    obtain ⟨hc, d', hnext', hd⟩ := samePlace_of_next? h hnext
    rw [next_of_next? rfl hnext', if_neg hline, hd.beq_peek? (by decide), if_neg hslash,
      hd.beq_peek? (by decide), if_pos hblock]
    have hkeeps := keeps_skipBlockComment
      (hd.skip_of_peek? (eq_of_beq (Bool.and_eq_true_iff.mp hblock).2)) false
    rw [he] at hkeeps
    generalize skipBlockComment d'.skip false = result at hkeeps
    cases hkeeps with
    | excused h => exact .inr (.of_error (.excused h))
    | failed h => exact .inr (.of_error (.failed h))
  | case7 start c hlength ch d hnext _ _ hline hslash hblock hbang =>
    rename_i ih
    obtain ⟨hc, d', hnext', hd⟩ := samePlace_of_next? h hnext
    rw [next_of_next? rfl hnext', if_neg hline, hd.beq_peek? (by decide), if_neg hslash,
      hd.beq_peek? (by decide), if_neg hblock, hd.beq_peek? (by decide), hc.beq_offset,
      if_pos hbang]
    exact hcomment hd ih
  | case8 start c hlength ch d hnext _ _ hline hslash hblock =>
    rename_i hbang
    obtain ⟨hc, d', hnext', hd⟩ := samePlace_of_next? h hnext
    rw [next_of_next? rfl hnext', if_neg hline, hd.beq_peek? (by decide), if_neg hslash,
      hd.beq_peek? (by decide), if_neg hblock, hd.beq_peek? (by decide), hc.beq_offset,
      if_neg hbang]
    exact .inr (goesOn_readAt hc hnext hd)

theorem nextOnLine_of_error {x : LexError} (h : next c = .error x d) (seen : Bool) :
    nextOnLine c seen = .error x d := by
  rw [nextOnLine]
  split
  · next h' => rw [h] at h'; cases h'; rfl
  · next h' => rw [h] at h'; cases h'
  · next h' => rw [h] at h'; cases h'

theorem nextOnLine_of_lineEnd (h : next c = .ok .lineEnd d) (seen : Bool) :
    nextOnLine c seen = nextOnLine d true := by
  rw [nextOnLine]
  split
  · next h' => rw [h] at h'; cases h'
  · next h' => rw [h] at h'; cases h'; rfl
  · next hne h' =>
    rw [h] at h'
    cases h'
    exact (hne rfl).elim

theorem nextOnLine_of_token {token : Token} (h : next c = .ok token d) (htoken : token ≠ .lineEnd)
    (seen : Bool) : nextOnLine c seen = .ok (token, seen) d := by
  rw [nextOnLine]
  split
  · next h' => rw [h] at h'; cases h'
  · next h' => rw [h] at h'; cases h'; exact (htoken rfl).elim
  · next h' => rw [h] at h'; cases h'; rfl

/-- The end of the text is ahead, maybe on another line. -/
def EndsOnLine (c : Cursor) (seen : Bool) : Prop :=
  ∃ line d, nextOnLine c seen = .ok (.endOfInput, line) d ∧ d.rest = []

theorem Ends.endsOnLine (h : Ends c) (seen : Bool) : EndsOnLine c seen := by
  obtain ⟨d, hd, hrest⟩ := h
  exact ⟨seen, d, nextOnLine_of_token hd nofun seen, hrest⟩

/-- So is the next token that is no line end. -/
theorem goesOn_nextOnLine (h : c.SamePlace l t c') (seen : Bool) :
    EndsOnLine c seen ∨ GoesOn Prod.fst l t (nextOnLine c seen) (nextOnLine c' seen) := by
  unfold EndsOnLine
  fun_induction nextOnLine c seen generalizing c' with
  | case1 c seen x d hnext =>
    rcases goesOn_next h with ⟨e, hend, -⟩ | ⟨hresult, -⟩
    · rw [hend] at hnext
      cases hnext
    rw [hnext] at hresult
    generalize hnext' : next c' = result at hresult
    cases hresult with
    | excused h => exact .inr (.of_error (.excused h))
    | failed h =>
      rw [nextOnLine_of_error hnext']
      exact .inr (.of_error (.failed h))
  | case2 c seen d hnext _ ih =>
    rcases goesOn_next h with ⟨e, hend, -⟩ | ⟨hresult, -⟩
    · rw [hend] at hnext
      cases hnext
    rw [hnext] at hresult
    generalize hnext' : next c' = result at hresult
    cases hresult with
    | ok hd =>
      rw [nextOnLine_of_lineEnd hnext']
      cases hd with
      | same hd => exact ih hd
      | ended hend =>
        exact .inl ((ends_of_end hend).endsOnLine true)
  | case3 c seen token d hline hnext =>
    rcases goesOn_next h with ⟨e, hend, hrest⟩ | ⟨hresult, hsame⟩
    · rw [hend] at hnext
      cases hnext
      exact .inl ⟨_, _, rfl, hrest⟩
    rw [hnext] at hresult
    generalize hnext' : next c' = result at hresult
    cases hresult with
    | ok hd =>
      rw [nextOnLine_of_token hnext' hline]
      refine .inr ⟨.ok hd, fun hmark hfound hfound' => ?_⟩
      cases hfound
      cases hfound'
      exact hsame hmark hnext hnext'

end Lexer

end EcmaEval
