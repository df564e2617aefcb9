import EcmaEval.Proofs.Token.Position
import EcmaEval.Proofs.Token.UnixLines

/-!
# Tokens of texts with line feeds for pairs

A token that is read in a text is read in the text that has a line feed for each carriage return and
line feed, and it is the same.  The text of a template as it is written may differ if the end of a line
was copied to it.

## Main definitions

* `Scan.UnixLeads`: what is read in the text is read in the one with line feeds for pairs
* `Token.UnixAlike`: the same token, up to the text of a template that has a carriage return

## Main results

* `Lexer.unix_next`, `Lexer.unix_readRegExp`, `Lexer.unix_readTemplatePart`: the readers of tokens
* `Lexer.unix_run`, `Lexer.unix_tokenizes`: sequences of tokens
-/

namespace EcmaEval

open Scan Cursor Text

variable {α β : Type} {c c' d d' start : Cursor} {ch : Char} {cs taken : List Char}
  {p : Char → Bool}

/-! ## Results -/

namespace Scan

variable {same : α → α → Prop} {result result' : Result α}

/-- What the first reader finds, the second one finds, and it stops at the same place. -/
inductive UnixLeads (same : α → α → Prop) : Result α → Result α → Prop where
  | ok {x x' : α} {d d' : Cursor} (hx : same x x') (h : d.UnixPlace d') :
    UnixLeads same (.ok x d) (.ok x' d')
  | error {e : LexError} {d : Cursor} {result : Result α} : UnixLeads same (.error e d) result

theorem UnixAlike.leads (h : UnixAlike result result') (hrefl : ∀ x, same x x) :
    UnixLeads same result result' := by
  cases h with
  | ok h => exact .ok (hrefl _) h
  | error => exact .error

theorem UnixLeads.exists_of_ok {x : α} (h : UnixLeads same result result')
    (hresult : result = .ok x d) : ∃ x' d', result' = .ok x' d' ∧ same x x' ∧ d.UnixPlace d' := by
  cases h with
  | ok hx h =>
    cases hresult
    exact ⟨_, _, rfl, hx, h⟩
  | error => cases hresult

end Scan

/-! ## Numerals -/

namespace Numeral

open Number

/-- Parts of a numeral are the same, and the cursors behind them at the same place. -/
abbrev UnixPart (x x' : List Char × Cursor) : Prop := x'.1 = x.1 ∧ x.2.UnixPlace x'.2

theorem unixPart_spanDigits (h : c.UnixPlace c') (hreturn : p '\r' = false) (hfeed : p '\n' = false) :
    UnixPart (spanDigits c p) (spanDigits c' p) := by
  unfold spanDigits
  have hclass {ch : Char} (hch : p ch = false) (hne : (ch == '_') = false) :
      (p ch || ch == '_') = false := by
    rw [hch, hne]
    rfl
  obtain ⟨htaken, hd⟩ :=
    h.span (p := fun ch => p ch || ch == '_') (hclass hreturn rfl) (hclass hfeed rfl)
  exact ⟨congrArg (List.filter (· != '_')) htaken, hd⟩

theorem unixPart_spanFraction (h : c.UnixPlace c') : UnixPart (spanFraction c) (spanFraction c') := by
  unfold spanFraction
  have hskip := h.skipIf? (show '.' ≠ '\r' by decide) (by decide)
  generalize c.skipIf? '.' = found at hskip
  generalize c'.skipIf? '.' = found' at hskip
  cases hskip with
  | none => exact ⟨rfl, h⟩
  | some hd =>
    obtain ⟨hdigits, he⟩ := unixPart_spanDigits (p := isDecimalDigit) hd rfl rfl
    exact ⟨congrArg ('.' :: ·) hdigits, he⟩

theorem unixPart_spanSign (h : c.UnixPlace c') : UnixPart (spanSign c) (spanSign c') := by
  unfold spanSign
  rcases h.peek?_cases with hpeek | ⟨hreturn, hfeed⟩
  · rw [hpeek]
    split
    · next ch hch =>
      split
      · next hsign =>
        refine ⟨rfl, h.skip hch ?_⟩
        rintro rfl
        exact absurd hsign (by decide)
      · exact ⟨rfl, h⟩
    · exact ⟨rfl, h⟩
  · rw [hreturn, hfeed]
    exact ⟨rfl, h⟩

theorem unixPart_spanExponent (h : c.UnixPlace c') : UnixPart (spanExponent c) (spanExponent c') := by
  rw [spanExponent_eq_spanSign, spanExponent_eq_spanSign]
  rcases h.peek?_cases with hpeek | ⟨hreturn, hfeed⟩
  · rw [hpeek]
    split
    · next ch hch =>
      split
      · next hletter =>
        have hne : ch ≠ '\r' := by
          rintro rfl
          exact absurd hletter (by decide)
        obtain ⟨hsign, hd⟩ := unixPart_spanSign (h.skip hch hne)
        obtain ⟨hdigits, he⟩ := unixPart_spanDigits (p := isDecimalDigit) hd rfl rfl
        exact ⟨by rw [hsign, hdigits], he⟩
      · exact ⟨rfl, h⟩
    · exact ⟨rfl, h⟩
  · rw [hreturn, hfeed]
    exact ⟨rfl, h⟩

/-- The end of a line does not run into a literal. -/
theorem unix_finish (h : c.UnixPlace c') {token token' : Result Token}
    (htoken : UnixAlike token token') : UnixAlike (finish c token) (finish c' token') := by
  unfold finish
  rcases h.peek?_cases with hpeek | ⟨hreturn, hfeed⟩
  · rw [hpeek]
    split
    · split
      · exact .error h
      · exact htoken
    · exact htoken
  · rw [hreturn, hfeed]
    exact htoken

theorem unix_finishDecimal (h : c.UnixPlace c') (cs : List Char) :
    UnixAlike (finishDecimal c cs) (finishDecimal c' cs) := by
  unfold finishDecimal
  refine unix_finish h ?_
  split
  · exact .ok h
  · exact .error h

theorem unix_readMarked (h : c.UnixPlace c') (radix : Nat) (mark : String) :
    UnixAlike (readMarked c radix mark) (readMarked c' radix mark) := by
  obtain ⟨hdigits, hd⟩ := unixPart_spanDigits (p := fun ch => (digitValue? radix ch).isSome) h rfl rfl
  unfold readMarked
  dsimp only
  rw [hdigits]
  split
  · exact .error hd
  have hskip := hd.skipIf? (show 'n' ≠ '\r' by decide) (by decide)
  generalize Cursor.skipIf? _ 'n' = found at hskip
  generalize (spanDigits c' fun ch => (digitValue? radix ch).isSome).2.skipIf? 'n' = found' at hskip
  cases hskip with
  | none => exact unix_finish hd (.ok hd)
  | some he => exact .ok he

theorem unix_readZeroLed (h : c.UnixPlace c') : UnixAlike (readZeroLed c) (readZeroLed c') := by
  obtain ⟨hdigits, hd⟩ := unixPart_spanDigits (p := isDecimalDigit) h rfl rfl
  obtain ⟨hfraction, he⟩ := unixPart_spanFraction hd
  obtain ⟨hexponent, hf⟩ := unixPart_spanExponent he
  unfold readZeroLed
  dsimp only
  rw [hdigits, hd.any_peek? (p := fun ch => ch == '.' || ch == 'e' || ch == 'E') rfl]
  split
  · exact unix_finish hd (.ok hd)
  · rw [hfraction, hexponent]
    exact unix_finishDecimal hf _

theorem unixPart_fraction (h : c.UnixPlace c') (first : Char) :
    UnixPart (if (first == '.') = true then ([], c) else spanFraction c)
      (if (first == '.') = true then ([], c') else spanFraction c') := by
  split
  · exact ⟨rfl, h⟩
  · exact unixPart_spanFraction h

theorem unix_readDecimal (h : c.UnixPlace c') (first : Char) :
    UnixAlike (readDecimal c first) (readDecimal c' first) := by
  obtain ⟨hdigits, hd⟩ := unixPart_spanDigits (p := isDecimalDigit) h rfl rfl
  obtain ⟨hfraction, he⟩ := unixPart_fraction hd first
  obtain ⟨hexponent, hf⟩ := unixPart_spanExponent he
  have hskip := hf.skipIf? (show 'n' ≠ '\r' by decide) (by decide)
  unfold readDecimal
  dsimp only
  rw [hdigits, hfraction, hexponent]
  generalize Cursor.skipIf? (spanExponent _).2 'n' = found at hskip ⊢
  generalize Cursor.skipIf? (spanExponent _).2 'n' = found' at hskip ⊢
  cases hskip with
  | none => exact unix_finishDecimal hf _
  | some hg => exact .ok hg

theorem unix_read (h : c.UnixPlace c') (first : Char) : UnixAlike (read c first) (read c' first) := by
  unfold read
  split
  · rcases h.peek?_cases with hpeek | ⟨hreturn, hfeed⟩
    · rw [hpeek]
      split
      · next ch hch =>
        split
        · next hmark =>
          refine unix_readMarked (h.skip hch ?_) _ _
          rintro rfl
          cases hmark
        · split
          · exact unix_readZeroLed h
          · exact unix_readDecimal h _
      · exact unix_readDecimal h _
    · rw [hreturn, hfeed]
      exact unix_readDecimal h _
  · exact unix_readDecimal h _

end Numeral

/-! ## Punctuators -/

namespace Punctuator

theorem isPrefixOf_unixLines {spelling : List Char} (hreturn : '\r' ∉ spelling)
    (hfeed : '\n' ∉ spelling) (cs : List Char) :
    spelling.isPrefixOf (unixLines cs) = spelling.isPrefixOf cs := by
  induction spelling generalizing cs with
  | nil => rfl
  | cons ch spelling ih =>
    rw [List.mem_cons, not_or] at hreturn hfeed
    fun_cases unixLines cs with
    | case1 cs =>
      rw [List.isPrefixOf, List.isPrefixOf, beq_false_of_ne (Ne.symm hreturn.1),
        beq_false_of_ne (Ne.symm hfeed.1)]
      rfl
    | case2 ch' cs => simp only [List.isPrefixOf, ih hreturn.2 hfeed.2]
    | case3 => rfl

theorem not_mem_spelling (mark : Punctuator) : '\r' ∉ mark.spelling ∧ '\n' ∉ mark.spelling := by
  cases mark <;> decide

theorem isAt_unixLines (mark : Punctuator) (cs : List Char) :
    mark.isAt (unixLines cs) = mark.isAt cs := by
  unfold isAt
  rw [isPrefixOf_unixLines mark.not_mem_spelling.1 mark.not_mem_spelling.2]
  cases hprefix : mark.spelling.isPrefixOf cs with
  | false => rfl
  | true =>
    cases mark with
    | optionalChain =>
      -- The one punctuator that depends on what stands behind it, which may not be a digit.
      obtain ⟨cs, rfl⟩ := List.isPrefixOf_iff_prefix.mp hprefix
      rw [unixLines_append (by decide)]
      change (true && !(unixLines cs).head?.any Char.isDigit) = (true && !cs.head?.any Char.isDigit)
      rcases head?_unixLines cs with hhead | ⟨hreturn, -, hfeed⟩
      · rw [hhead]
      · rw [hreturn, hfeed]
        rfl
    | _ => rfl

theorem longestAt?_unixLines (cs : List Char) : longestAt? (unixLines cs) = longestAt? cs := by
  unfold longestAt?
  congr 1
  funext mark
  exact isAt_unixLines mark cs

end Punctuator

namespace Cursor.UnixPlace

/-- Characters are passed in both texts, if there is no carriage return among them. -/
theorem skipBy (h : c.UnixPlace c') (hrest : c.rest = taken ++ cs) (htaken : '\r' ∉ taken) :
    (c.skipBy taken.length).UnixPlace (c'.skipBy taken.length) := by
  induction taken generalizing c c' with
  | nil => exact h
  | cons ch taken ih =>
    rw [List.mem_cons, not_or] at htaken
    exact ih (h.skip (peek?_of_rest hrest) (Ne.symm htaken.1)) (rest_skip hrest) htaken.2

theorem beq_offset (h : c.UnixPlace c') : (c'.offset == 0) = (c.offset == 0) := by
  rw [Bool.eq_iff_iff, beq_iff_eq, beq_iff_eq, h.offset]

/-- What was passed is the same, if there is no carriage return in it. -/
theorem between (h : c.UnixPlace c') (hd : d.UnixPlace d') (hreach : c.Reaches d) :
    c'.between d' = c.between d ∨ '\r' ∈ c.between d := by
  obtain ⟨taken, hrest, -⟩ := hreach
  rw [Lexer.between_of_rest hrest]
  refine or_iff_not_imp_right.mpr fun hreturn => Lexer.between_of_rest ?_
  rw [h.rest, hrest, unixLines_append hreturn, hd.rest]

theorem escape (h : c.UnixPlace c') (hnext : c.next? = some ('\\', d)) :
    ¬BreaksEscape ['\r', '\n'] ('\\' :: d.rest) := by
  rw [← rest_of_next? hnext]
  exact h.whole

end Cursor.UnixPlace

namespace Token

/-- The tokens are the same, apart from the text of a template as it is written if that has a carriage
return. -/
inductive UnixAlike : Token → Token → Prop where
  | refl (token : Token) : UnixAlike token token
  | template (part : TemplatePart) (cooked : Option String) {raw : String} (raw' : String)
    (h : '\r' ∈ raw.toList) : UnixAlike (.template part cooked raw) (.template part cooked raw')

end Token

theorem Scan.UnixLeads.of_eq {result result' : Result Token} (h : UnixLeads Eq result result') :
    UnixLeads Token.UnixAlike result result' := by
  cases h with
  | ok hx h => exact .ok (hx ▸ .refl _) h
  | error => exact .error

namespace Lexer

/-! ## Strings and names -/

theorem ne_return_of_isLineEnd (hline : ¬isLineEnd ch = true) : ch ≠ '\r' := by
  rintro rfl
  exact hline rfl

theorem unix_readString (h : c.UnixPlace c') {quote : Char} (hquote : quote ≠ '\r') (seen : String) :
    UnixLeads Eq (readString c quote seen) (readString c' quote seen) := by
  fun_induction readString c quote seen generalizing c' with
  | case1 => exact .error
  | case2 c seen ch d hnext _ hclose =>
    obtain ⟨d', hnext', hd⟩ := h.next?_of_ne hnext (eq_of_beq hclose ▸ hquote)
    rw [readString_of_next? hnext', if_pos hclose]
    exact .ok rfl hd
  | case3 => exact .error
  | case4 c seen ch d hnext _ hclose hline hescape cs e he _ ih =>
    obtain rfl := eq_of_beq hescape
    obtain ⟨d', hnext', hd⟩ := h.next?_of_ne hnext (by decide)
    rw [readString_of_next? hnext', if_neg hclose, if_neg hline, if_pos hescape]
    have hread := Escape.unix_read hd (h.escape hnext)
    rw [he] at hread
    generalize Escape.read d' = result at hread
    cases hread with
    | ok he => exact ih he
  | case5 => exact .error
  | case6 c seen ch d hnext _ hclose hline hescape ih =>
    obtain ⟨d', hnext', hd⟩ := h.next?_of_ne hnext (ne_return_of_isLineEnd hline)
    rw [readString_of_next? hnext', if_neg hclose, if_neg hline, if_neg hescape]
    exact ih hd

theorem readName_of_end (h : c.rest = []) (name : String) (escaped : Bool) :
    readName c name escaped = ((name, escaped), c) := by
  rw [readName]
  split
  · rfl
  · next h' => rw [Cursor.next?_of_end h] at h'; cases h'

theorem unix_readName (h : c.UnixPlace c') (name : String) (escaped : Bool) :
    (readName c' name escaped).1 = (readName c name escaped).1 ∧
      (readName c name escaped).2.UnixPlace (readName c' name escaped).2 := by
  fun_induction readName c name escaped generalizing c' with
  | case1 c name escaped hnext =>
    rw [readName_of_end (rest_of_next?_eq_none (h.next?_of_none hnext))]
    exact ⟨rfl, h⟩
  | case2 c name escaped ch d hnext _ hpart ih =>
    have hne : ch ≠ '\r' := by
      rintro rfl
      exact absurd hpart (by decide)
    obtain ⟨d', hnext', hd⟩ := h.next?_of_ne hnext hne
    rw [readName_of_next? hnext', if_pos hpart]
    exact ih hd
  | case3 c name escaped ch d hnext _ hpart hescape esc e he _ ih =>
    obtain rfl := eq_of_beq hescape
    obtain ⟨d', hnext', hd⟩ := h.next?_of_ne hnext (by decide)
    rw [readName_of_next? hnext', if_neg hpart, if_pos hescape]
    have hread := Escape.unix_readIdentifierEscape hd (h.escape hnext)
    rw [he] at hread
    generalize Escape.readIdentifierEscape d' = result at hread
    cases hread with
    | ok he => exact ih he
  | case4 c name escaped ch d hnext _ hpart hescape x e he =>
    obtain rfl := eq_of_beq hescape
    obtain ⟨d', hnext', hd⟩ := h.next?_of_ne hnext (by decide)
    rw [readName_of_next? hnext', if_neg hpart, if_pos hescape]
    have hread := Escape.unix_readIdentifierEscape hd (h.escape hnext)
    rw [he] at hread
    generalize Escape.readIdentifierEscape d' = result at hread
    cases hread with
    | error he => exact ⟨rfl, he⟩
  | case5 c name escaped ch d hnext _ hpart hescape =>
    -- The character behind a name may be the first one of a pair, and then the name ends there too.
    by_cases hpair : ch = '\r' ∧ d.peek? = some '\n'
    · obtain ⟨rfl, hfeed⟩ := hpair
      obtain ⟨d', hnext', -⟩ := h.next?_pair hnext hfeed
      rw [readName_of_next? hnext', if_neg (by decide), if_neg (by decide)]
      exact ⟨rfl, h⟩
    · obtain ⟨d', hnext', hd⟩ := h.next? hnext (not_and.mp hpair)
      rw [readName_of_next? hnext', if_neg hpart, if_neg hescape]
      exact ⟨rfl, h⟩

theorem unix_readIdentifier (h : c.UnixPlace c') (first : Char) (escaped : Bool) :
    UnixLeads Eq (readIdentifier c first escaped) (readIdentifier c' first escaped) := by
  have hname := unix_readName h first.toString escaped
  unfold readIdentifier
  generalize readName c first.toString escaped = found at hname
  generalize readName c' first.toString escaped = found' at hname
  obtain ⟨name, d⟩ := found
  obtain ⟨name', d'⟩ := found'
  obtain ⟨rfl, hd⟩ := hname
  exact .ok rfl hd

/-! ## Templates and regular expressions -/

/-- What was read of a template is the same, apart from the text as it is written if that has a carriage
return. -/
abbrev UnixParts (x x' : Option String × String × Bool) : Prop :=
  x'.1 = x.1 ∧ (x'.2.1 = x.2.1 ∨ '\r' ∈ x.2.1.toList) ∧ x'.2.2 = x.2.2

theorem toList_foldl_push (cs : List Char) (s : String) :
    (cs.foldl String.push s).toList = s.toList ++ cs := by
  induction cs generalizing s with
  | nil => exact (List.append_nil _).symm
  | cons ch cs ih => rw [List.foldl_cons, ih, String.toList_push, List.append_assoc]; rfl

/-- A text as it is written goes on with an escape sequence. -/
theorem unix_foldl_push {raw raw' : String} (hraw : raw' = raw ∨ '\r' ∈ raw.toList)
    {taken' : List Char} (htaken : taken' = taken ∨ '\r' ∈ taken) (ch : Char) :
    taken'.foldl String.push (raw'.push ch) = taken.foldl String.push (raw.push ch) ∨
      '\r' ∈ (taken.foldl String.push (raw.push ch)).toList := by
  rw [toList_foldl_push, String.toList_push]
  rcases hraw with rfl | hraw
  · rcases htaken with rfl | htaken
    · exact .inl rfl
    · exact .inr (List.mem_append_right _ htaken)
  · exact .inr (List.mem_append_left _ (List.mem_append_left _ hraw))

/-- It goes on with a character. -/
theorem unix_push {raw raw' : String} (hraw : raw' = raw ∨ '\r' ∈ raw.toList) (ch : Char) :
    raw'.push ch = raw.push ch ∨ '\r' ∈ (raw.push ch).toList :=
  unix_foldl_push hraw (.inl (Eq.refl [])) ch

theorem readTemplate_of_isLineEnd (hnext : c.next? = some (ch, d)) (hline : isLineEnd ch = true)
    (cooked : Option String) (raw : String) : readTemplate c cooked raw =
      readTemplate (d.breakLine ch) (cooked.map (·.push '\n')) (raw.push '\n') := by
  have hchars : ∀ ch ∈ lineEndChars, (ch == '\x60') = false ∧ (ch == '$') = false ∧
      (ch == '\\') = false :=
    forall_mem_lineEndChars.mpr (by decide)
  obtain ⟨hquote, hdollar, hescape⟩ := hchars ch (mem_lineEndChars_of_isLineEnd hline)
  rw [readTemplate_of_next? hnext, hquote, hdollar, hescape, hline]
  rfl

theorem unix_readTemplate (h : c.UnixPlace c') (cooked : Option String) {raw raw' : String}
    (hraw : raw' = raw ∨ '\r' ∈ raw.toList) :
    UnixLeads UnixParts (readTemplate c cooked raw) (readTemplate c' cooked raw') := by
  fun_induction readTemplate c cooked raw generalizing c' raw' with
  | case1 => exact .error
  | case2 c cooked raw ch d hnext _ hquote =>
    obtain rfl := eq_of_beq hquote
    obtain ⟨d', hnext', hd⟩ := h.next?_of_ne hnext (by decide)
    rw [readTemplate_of_next? hnext', if_pos hquote]
    exact .ok ⟨rfl, hraw, rfl⟩ hd
  | case3 c cooked raw ch d hnext _ hquote hbrace =>
    obtain ⟨hdollar, hpeek⟩ := Bool.and_eq_true_iff.mp hbrace
    obtain rfl := eq_of_beq hdollar
    obtain ⟨d', hnext', hd⟩ := h.next?_of_ne hnext (by decide)
    rw [readTemplate_of_next? hnext', if_neg hquote, hd.beq_peek? (by decide) (by decide),
      if_pos hbrace]
    exact .ok ⟨rfl, hraw, rfl⟩ (hd.skip (eq_of_beq hpeek) (by decide))
  | case4 c cooked raw ch d hnext _ hquote hbrace hescape cs e he _ ih =>
    obtain rfl := eq_of_beq hescape
    obtain ⟨d', hnext', hd⟩ := h.next?_of_ne hnext (by decide)
    rw [readTemplate_of_next? hnext', if_neg hquote, hd.beq_peek? (by decide) (by decide),
      if_neg hbrace, if_pos hescape]
    have hread := Escape.unix_read hd (h.escape hnext)
    rw [he] at hread
    generalize Escape.read d' = result at hread
    cases hread with
    | ok he' =>
      -- What is copied of the sequence is the same, or there is a carriage return in it.
      have hreach := Result.reaches_of_ok (Escape.reaches_read d) he
      exact ih he' (unix_foldl_push hraw (hd.between he' hreach) _)
  | case5 => exact .error
  | case6 c cooked raw ch d hnext _ hquote hbrace hescape x e he _ hend ih =>
    obtain rfl := eq_of_beq hescape
    obtain ⟨d', hnext', hd⟩ := h.next?_of_ne hnext (by decide)
    rw [readTemplate_of_next? hnext', if_neg hquote, hd.beq_peek? (by decide) (by decide),
      if_neg hbrace, if_pos hescape]
    have hread := Escape.unix_read hd (h.escape hnext)
    rw [he] at hread
    generalize Escape.read d' = result at hread
    cases hread with
    | error he' =>
      have hreach := Result.reaches_of_error (Escape.reaches_read d) he
      dsimp only
      rw [if_neg hend]
      exact ih he' (unix_foldl_push hraw (hd.between he' hreach) _)
  | case7 c cooked raw ch d hnext _ hquote hbrace hescape hline _ ih =>
    obtain ⟨ch', d', hnext', hline', hd⟩ := h.breakLine hnext hline
    rw [readTemplate_of_isLineEnd hnext' hline']
    exact ih hd (unix_push hraw _)
  | case8 c cooked raw ch d hnext _ hquote hbrace hescape hline ih =>
    obtain ⟨d', hnext', hd⟩ := h.next?_of_ne hnext (ne_return_of_isLineEnd hline)
    rw [readTemplate_of_next? hnext', if_neg hquote, hd.beq_peek? (by decide) (by decide),
      if_neg hbrace, if_neg hescape, if_neg hline]
    exact ih hd (unix_push hraw _)

theorem unix_readTemplatePart (h : c.UnixPlace c') (closed opened : TemplatePart) :
    UnixLeads Token.UnixAlike (readTemplatePart c closed opened)
      (readTemplatePart c' closed opened) := by
  have hread := unix_readTemplate h (some "") (.inl (Eq.refl ""))
  unfold readTemplatePart
  generalize readTemplate c (some "") "" = result at hread
  generalize readTemplate c' (some "") "" = result' at hread
  cases hread with
  | error => exact .error
  | @ok x x' d d' hx hd =>
    obtain ⟨cooked, raw, isTail⟩ := x
    obtain ⟨cooked', raw', isTail'⟩ := x'
    obtain ⟨rfl, hraw, rfl⟩ := hx
    refine .ok ?_ hd
    rcases hraw with rfl | hreturn
    · exact .refl _
    · exact .template _ _ _ hreturn

/-- A backslash takes a carriage return along, but no line feed behind it, so that no pattern has a
pair. -/
theorem unix_readPattern (h : c.UnixPlace c') (pattern : String) (inClass : Bool) :
    UnixLeads Eq (readPattern c pattern inClass) (readPattern c' pattern inClass) := by
  fun_induction readPattern c pattern inClass generalizing c' with
  | case1 => exact .error
  | case2 => exact .error
  | case3 c pattern inClass ch d hnext _ hline hclose =>
    obtain ⟨d', hnext', hd⟩ := h.next?_of_ne hnext (ne_return_of_isLineEnd hline)
    rw [readPattern_of_next? hnext', if_neg hline, if_pos hclose]
    exact .ok rfl hd
  | case4 => exact .error
  | case5 c pattern inClass ch d hnext _ hline hclose hescape ch' e hnext₂ _ ih =>
    by_cases hpair : ch' = '\r' ∧ e.peek? = some '\n'
    · -- The line feed of the pair is not behind the backslash, so that it ends the first pattern.
      obtain ⟨rest, hrest⟩ := List.head?_eq_some_iff.mp hpair.2
      obtain ⟨f, hnext₃, -⟩ := exists_next? hrest
      rw [readPattern_of_next? hnext₃, if_pos (by decide)]
      exact .error
    · obtain ⟨d', hnext', hd⟩ := h.next?_of_ne hnext (ne_return_of_isLineEnd hline)
      obtain ⟨e', hnext₂', he⟩ := hd.next? hnext₂ (not_and.mp hpair)
      rw [readPattern_of_next? hnext', if_neg hline, if_neg hclose, if_pos hescape, hnext₂']
      exact ih he
  | case6 c pattern inClass ch d hnext _ hline hclose hescape ih =>
    obtain ⟨d', hnext', hd⟩ := h.next?_of_ne hnext (ne_return_of_isLineEnd hline)
    rw [readPattern_of_next? hnext', if_neg hline, if_neg hclose, if_neg hescape]
    exact ih hd

theorem unix_readRegExp (h : c.UnixPlace c') : UnixLeads Eq (readRegExp c) (readRegExp c') := by
  have hpattern := unix_readPattern h "" false
  unfold readRegExp
  generalize readPattern c' "" false = result at hpattern
  generalize readPattern c "" false = result' at hpattern
  cases hpattern with
  | ok hx hd =>
    obtain ⟨hflags, he⟩ := hd.span (p := isIdentifierPart) (by decide) (by decide)
    dsimp only
    rw [hflags, hx]
    exact .ok rfl he
  | error => exact .error

/-! ## Tokens -/

theorem unix_readPunctuator (h : c.UnixPlace c') (ch : Char) :
    UnixLeads Eq (readPunctuator c ch) (readPunctuator c' ch) := by
  unfold readPunctuator
  rw [h.rest, Punctuator.longestAt?_unixLines]
  split
  · next mark hmark =>
    have hat := List.find?_some hmark
    unfold Punctuator.isAt at hat
    obtain ⟨rest, hrest⟩ := List.isPrefixOf_iff_prefix.mp (Bool.and_eq_true_iff.mp hat).1
    exact .ok rfl (h.skipBy hrest.symm mark.not_mem_spelling.1)
  · exact .error

theorem unix_readAt (h : c.UnixPlace c') (hd : d.UnixPlace d') (hnext : c.next? = some (ch, d)) :
    UnixLeads Token.UnixAlike (readAt c ch d) (readAt c' ch d') := by
  unfold readAt
  rw [hd.any_peek? (p := Number.isDecimalDigit) rfl]
  split
  · next hquote =>
    have hne : ch ≠ '\r' := by
      rintro rfl
      exact absurd hquote (by decide)
    exact (unix_readString hd hne _).of_eq
  split
  · exact unix_readTemplatePart hd _ _
  split
  · exact (Numeral.unix_read hd _).leads .refl
  split
  · next hescape =>
    obtain rfl := eq_of_beq hescape
    have hread := Escape.unix_readIdentifierEscape hd (h.escape hnext)
    generalize Escape.readIdentifierEscape d = result at hread
    generalize Escape.readIdentifierEscape d' = result' at hread
    cases hread with
    | ok he => exact (unix_readIdentifier he _ _).of_eq
    | error => exact .error
  split
  · exact (unix_readIdentifier hd _ _).of_eq
  · exact (unix_readPunctuator h _).of_eq

/-! ## Blanks and comments -/

theorem skipBlockComment_of_isLineEnd (hnext : c.next? = some (ch, d)) (hline : isLineEnd ch = true)
    (seenLine : Bool) : skipBlockComment c seenLine = skipBlockComment (d.breakLine ch) true := by
  have hstar : ch ≠ '*' := by
    rintro rfl
    exact absurd hline (by decide)
  rw [skipBlockComment_of_next? hnext, if_neg, if_pos hline]
  rw [beq_false_of_ne hstar]
  exact Bool.false_ne_true

theorem unix_skipBlockComment (h : c.UnixPlace c') (seenLine : Bool) :
    UnixLeads Eq (skipBlockComment c seenLine) (skipBlockComment c' seenLine) := by
  fun_induction skipBlockComment c seenLine generalizing c' with
  | case1 => exact .error
  | case2 c seenLine ch d hnext _ _ hclose =>
    obtain ⟨hstar, hslash⟩ := Bool.and_eq_true_iff.mp hclose
    obtain rfl := eq_of_beq hstar
    obtain ⟨d', hnext', hd⟩ := h.next?_of_ne hnext (by decide)
    rw [skipBlockComment_of_next? hnext', hd.beq_peek? (by decide) (by decide), if_pos hclose]
    exact .ok rfl (hd.skip (eq_of_beq hslash) (by decide))
  | case3 c seenLine ch d hnext _ _ hclose hline ih =>
    obtain ⟨ch', d', hnext', hline', hd⟩ := h.breakLine hnext hline
    rw [skipBlockComment_of_isLineEnd hnext' hline']
    exact ih hd
  | case4 c seenLine ch d hnext _ _ hclose hline ih =>
    obtain ⟨d', hnext', hd⟩ := h.next?_of_ne hnext (ne_return_of_isLineEnd hline)
    rw [skipBlockComment_of_next? hnext', hd.beq_peek? (by decide) (by decide), if_neg hclose,
      if_neg hline]
    exact ih hd

/-- The next token is the same. -/
theorem unix_next {start' : Cursor} (h : start.UnixPlace start') :
    UnixLeads Token.UnixAlike (next start) (next start') := by
  have hskip {start start' : Cursor} (h : start.UnixPlace start') :
      (start.skipWhile isSeparator).UnixPlace (start'.skipWhile isSeparator) :=
    h.skipWhile (by decide) (by decide)
  -- One case for each thing that may stand behind the blanks.  The induction hypothesis is for those
  -- behind which the next token is looked for.
  fun_induction next start generalizing start' with
  | case1 start c _ =>
    rename_i hnext
    rw [next_of_next?_eq_none ((hskip h).next?_of_none hnext)]
    exact .ok (.refl _) (hskip h)
  | case2 start c _ ch d hnext _ _ =>
    rename_i hline
    obtain ⟨ch', d', hnext', hline', hd⟩ := (hskip h).breakLine hnext hline
    rw [next_of_next? rfl hnext', if_pos hline']
    exact .ok (.refl _) hd
  | case3 start c _ ch d hnext _ _ hline hslash =>
    rename_i ih
    obtain ⟨d', hnext', hd⟩ := (hskip h).next?_of_ne hnext (ne_return_of_isLineEnd hline)
    rw [next_of_next? rfl hnext', if_neg hline, hd.beq_peek? (by decide) (by decide), if_pos hslash]
    exact ih (hd.skipWhile (by decide) (by decide))
  | case4 start c _ ch d hnext _ _ hline hslash hblock e =>
    rename_i he
    obtain ⟨d', hnext', hd⟩ := (hskip h).next?_of_ne hnext (ne_return_of_isLineEnd hline)
    have hstar := eq_of_beq (Bool.and_eq_true_iff.mp hblock).2
    obtain ⟨_, e', he', rfl, hplace⟩ :=
      (unix_skipBlockComment (hd.skip hstar (by decide)) false).exists_of_ok he
    rw [next_of_next? rfl hnext', if_neg hline, hd.beq_peek? (by decide) (by decide),
      if_neg hslash, hd.beq_peek? (by decide) (by decide), if_pos hblock, he']
    exact .ok (.refl _) hplace
  | case5 start c _ ch d hnext _ _ hline hslash hblock e he _ _ =>
    rename_i ih
    obtain ⟨d', hnext', hd⟩ := (hskip h).next?_of_ne hnext (ne_return_of_isLineEnd hline)
    have hstar := eq_of_beq (Bool.and_eq_true_iff.mp hblock).2
    obtain ⟨_, e', he', rfl, hplace⟩ :=
      (unix_skipBlockComment (hd.skip hstar (by decide)) false).exists_of_ok he
    rw [next_of_next? rfl hnext', if_neg hline, hd.beq_peek? (by decide) (by decide),
      if_neg hslash, hd.beq_peek? (by decide) (by decide), if_pos hblock, he']
    exact ih hplace
  | case6 => exact .error
  | case7 start c _ ch d hnext _ _ hline hslash hblock hbang =>
    rename_i ih
    obtain ⟨d', hnext', hd⟩ := (hskip h).next?_of_ne hnext (ne_return_of_isLineEnd hline)
    rw [next_of_next? rfl hnext', if_neg hline, hd.beq_peek? (by decide) (by decide),
      if_neg hslash, hd.beq_peek? (by decide) (by decide), if_neg hblock,
      hd.beq_peek? (by decide) (by decide), (hskip h).beq_offset, if_pos hbang]
    exact ih (hd.skipWhile (by decide) (by decide))
  | case8 start c _ ch d hnext _ _ hline hslash hblock =>
    rename_i hbang
    obtain ⟨d', hnext', hd⟩ := (hskip h).next?_of_ne hnext (ne_return_of_isLineEnd hline)
    rw [next_of_next? rfl hnext', if_neg hline, hd.beq_peek? (by decide) (by decide),
      if_neg hslash, hd.beq_peek? (by decide) (by decide), if_neg hblock,
      hd.beq_peek? (by decide) (by decide), (hskip h).beq_offset, if_neg hbang]
    exact unix_readAt (hskip h) hd hnext

/-! ## Sequences of tokens -/

/-- Whatever is called for. -/
theorem Call.unix_read (call : Call) (h : c.UnixPlace c') :
    UnixLeads Token.UnixAlike (call.read c) (call.read c') := by
  cases call with
  | next => exact unix_next h
  | regExp => exact (unix_readRegExp h).of_eq
  | continuation => exact unix_readTemplatePart h _ _

theorem unix_run (h : c.UnixPlace c') (calls : List Call) :
    UnixLeads (fun found found' =>
      List.Forall₂ Token.UnixAlike (found.map Prod.fst) (found'.map Prod.fst))
      (run calls c) (run calls c') := by
  induction calls generalizing c c' with
  | nil => exact .ok .nil h
  | cons call calls ih =>
    have hread := call.unix_read h
    unfold run
    generalize call.read c = result at hread
    generalize call.read c' = result' at hread
    cases hread with
    | error => exact .error
    | ok htoken hd =>
      have hrun := ih hd
      dsimp only
      generalize run calls _ = result at hrun ⊢
      generalize run calls _ = result' at hrun ⊢
      cases hrun with
      | error => exact .error
      | ok hmore he => exact .ok (.cons htoken hmore) he

theorem unix_tokenizes {result result' : Result (List Token)} (h : c.UnixPlace c')
    (hresult : Tokenizes c result) (hresult' : Tokenizes c' result') :
    UnixLeads (List.Forall₂ Token.UnixAlike) result result' := by
  -- Tokens that are alike are both the end of the text, or neither is, so that both lists go on.
  induction hresult generalizing c' result' with
  | failed => exact .error
  | done hnext =>
    obtain ⟨token, d', hnext', htoken, hd⟩ := (unix_next h).exists_of_ok hnext
    cases htoken
    cases hresult' with
    | done heq =>
      cases hnext'.symm.trans heq
      exact .ok (.cons (.refl _) .nil) hd
    | failed heq => cases hnext'.symm.trans heq
    | token heq hend =>
      cases hnext'.symm.trans heq
      exact absurd rfl hend
  | @token c d token result hnext hend hrest ih =>
    obtain ⟨token', d', hnext', htoken, hd⟩ := (unix_next h).exists_of_ok hnext
    cases hresult' with
    | done heq =>
      cases hnext'.symm.trans heq
      cases htoken
      exact absurd rfl hend
    | failed heq => cases hnext'.symm.trans heq
    | token heq _ hrest' =>
      cases hnext'.symm.trans heq
      cases ih hd hrest' with
      | error => exact .error
      | ok hmore he => exact .ok (.cons htoken hmore) he

end Lexer

end EcmaEval
