import Lexis.Proofs.Grammar.Fault

/-!
# One token of a text

The scanner passes the gap before it and comes to the end of the text, to a
lexeme or to a fault, and what it makes of the text is what the text tells.

* `Scanner.scan_end`: at the end of the text;
* `Scanner.scan_lexeme`: a lexeme is made into its token;
* `Scanner.scan_faulty`: a fault ends the scan.
-/

namespace Lexis

open CursorM Numeral Quoted

variable {α : Type} {l v w g r : List Char} {token : Position → Token} {o : Position} {f : Fault}

/-! ### Readers that end in a fault -/

/-- A reader ends in the fault that it finds. -/
lemma Reads.finds {x : CursorM α} {F : Position → Fault} {c : Cursor}
    (h : Reads x l v fun p => .error (F p)) (hv : v.head? ≠ some '\r') (hat : c.At o (l ++ v)) :
    ∃ c', x c = .error (F ((o.through l).toward v)) c' := by
  obtain ⟨c', hc', hr⟩ := (h.meets c o hat).here hv
  rw [hc'.position_eq] at hr
  exact ⟨c', hr⟩

/-- A stray carriage return breaks a reader off. -/
lemma Reads.breaks {x : CursorM α} {out : Position → Except Fault α} {c : Cursor}
    (h : Reads x l ('\r' :: v) out) (hat : c.At o (l ++ '\r' :: v)) :
    ∃ c', x c = .error ⟨.malformedLineEnding, (o.through l).right (strayWidth v)⟩ c' :=
  (h.meets c o hat).stray v rfl

/-- A lexeme is expected in front of the text, and its reading ends in the
fault. -/
def Misread (o : Position) (r : List Char) (f : Fault) : Prop :=
  ∃ x w, r = x :: w ∧ x ≠ '\n' ∧ x ≠ '\r' ∧ Gap.opener? r = none
    ∧ ∀ c : Cursor, c.At o r → ∃ c', readLexeme x (o.right 1) c = .error f c'

namespace Gap

/-- Only blanks and slashes begin a gap. -/
lemma opener?_eq_none {x : Char} (hclass : CharClass.of x ≠ .blank) (hb : x ≠ '\n')
    (hs : x ≠ '/') : opener? (x :: w) = none := by
  have hspace : x ≠ ' ' := by rintro rfl; exact hclass (by decide)
  have htab : x ≠ '\t' := by rintro rfl; exact hclass (by decide)
  unfold opener?
  split <;> simp_all

/-- No numeral begins a gap. -/
lemma opener?_numeral {x : Char} (h : isDigit x ∨ x = '.') : opener? (x :: w) = none := by
  have hne : ∀ y : Char, isDigit y = false → y ≠ '.' → x ≠ y := by
    rintro y hd hp rfl
    rcases h with h | h
    · simp [h] at hd
    · exact hp h
  refine opener?_eq_none ?_ (hne _ (by decide) (by decide)) (hne _ (by decide) (by decide))
  rcases h with h | rfl
  · rw [CharClass.of_isDigit h]
    decide
  · decide

end Gap

/-- No lexeme begins a gap. -/
lemma Lexeme.opener?_eq (h : Lexeme l v token) : Gap.opener? (l ++ v) = none := by
  cases h with
  | keyword hc | identifier hc =>
    refine Gap.opener?_eq_none (by rw [CharClass.of_isWordStart hc]; decide) ?_ ?_
    · rintro rfl; exact absurd hc (by decide)
    · rintro rfl; exact absurd hc (by decide)
  | numeral hm | scaled hm =>
    obtain ⟨x, l', hx, hfirst⟩ := hm.exists_cons
    rw [hx]
    exact Gap.opener?_numeral hfirst
  | quoted => rfl
  | @mark c s _ hs hv =>
    by_cases hc : c = '/'
    · subst hc
      cases v with
      | nil => rfl
      | cons x v =>
        simp only [notNext_cons, Mark.opensComment, beq_self_eq_true, Bool.true_and,
          Bool.or_eq_false_iff, beq_eq_false_iff_ne] at hv
        unfold Gap.opener?
        split <;> simp_all
    · refine Gap.opener?_eq_none ?_ (Mark.ne_lineBreak_of_ofChar? hs).2 hc
      rw [CharClass.of_ofChar? hs]
      decide
  | alone hs | joined hs =>
    refine Gap.opener?_eq_none ?_ (Mark.ne_lineBreak_of_beforeEquals? hs).2 ?_
    · rw [CharClass.of_beforeEquals? hs]
      decide
    · rintro rfl
      simp [Symbol.beforeEquals?] at hs

/-! ### Misread lexemes -/

/-- A numeral that ends in a fault. -/
lemma Misread.of_numeral {x : Char} (hx : isDigit x ∨ x = '.')
    (h : ∀ c : Cursor, c.At o (x :: w) → ∃ c', Numeral.read (o.right 1) c = .error f c') :
    Misread o (x :: w) f := by
  refine ⟨x, w, rfl, ?_, ?_, Gap.opener?_numeral hx, ?_⟩
  · rintro rfl
    exact absurd hx (by decide)
  · rintro rfl
    exact absurd hx (by decide)
  · rwa [readLexeme_of_numeral hx]

/-- A mantissa whose exponent ends in a fault. -/
lemma Misread.of_exponent {m : Mantissa} {e : Char} (hm : m.Valid)
    (h : ∀ c : Cursor, c.At o (m.text ++ e :: w) →
      ∃ c', Numeral.read (o.right 1) c = .error f c') :
    Misread o (m.text ++ e :: w) f := by
  obtain ⟨x, l', hx, hfirst⟩ := hm.exists_cons
  rw [hx] at h ⊢
  exact .of_numeral hfirst h

/-- The exponent behind a mantissa. -/
lemma Numeral.reads_exponent_behind {m : Mantissa} {e : Char} {start : Position}
    {F : Position → Fault} (hm : m.Valid) (he : isMarker e)
    (h : Reads (exponent e start) l v fun p => .error (F p)) :
    Reads (Numeral.read start) (m.text ++ e :: l) v fun p => .error (F p) := by
  refine reads_mantissa hm ?_ (reads_finish_marker he (reads_bind_fault h))
  rw [List.cons_append, notNext_cons]
  rcases eq_of_isMarker he with rfl | rfl <;> cases m <;> rfl

/-- A mark that needs an equals sign. -/
lemma Misread.of_mark (h : ∀ c : Cursor, c.At o ('!' :: w) →
    ∃ c', Mark.read (o.right 1) c = .error f c') : Misread o ('!' :: w) f :=
  ⟨'!', w, rfl, by decide, by decide, rfl, h⟩

/-- A quoted text that is not closed. -/
lemma Misread.of_quote (h : ∀ c : Cursor, c.At o ('"' :: w) →
    ∃ c', Quoted.read (o.right 1) c = .error f c') : Misread o ('"' :: w) f :=
  ⟨'"', w, rfl, by decide, by decide, rfl, h⟩

/-- A character that begins nothing. -/
lemma Misread.of_nothing {c : Char} (hc : BeginsNothing c) (v : List Char) :
    Misread o (c :: v) ⟨.unrecognizedCharacter c, o.right 1⟩ := by
  obtain ⟨hclass, hb, hs, he⟩ := hc.symbols
  have hslash : c ≠ '/' := by rintro rfl; simp [Symbol.ofChar?] at hs
  have hgap := Gap.opener?_eq_none (w := v) (by rw [hclass]; decide) hb hslash
  refine ⟨c, v, rfl, hb, hc.not_stray, hgap, fun _ hat => ?_⟩
  rw [readLexeme_of_other hclass]
  have hreads := Mark.reads_read_unrecognized hb hs he (o.right 1) v
  exact hreads.finds (by simpa using hc.not_stray) hat

/-- A digit is not a stray carriage return. -/
lemma head?_ne_of_digits {a b : List Char} (hd : ∀ x ∈ a ++ b, isDigit x) (hb : b ≠ [])
    (v : List Char) : (b ++ v).head? ≠ some '\r' := by
  obtain ⟨y, b, rfl⟩ := List.exists_cons_of_ne_nil hb
  have hy : isDigit y := hd y (by simp)
  rintro ⟨⟩
  exact absurd hy (by decide)

/-- A whole number beyond the largest one. -/
lemma Misread.of_overflow {d : List Char} (hd : ∀ x ∈ d, isDigit x) (hlt : maxInteger < decimal d)
    (v : List Char) : Misread o (d ++ v) ⟨.integerOverflow, o.right 1⟩ := by
  obtain ⟨a, b, rfl, hb, hreads⟩ := reads_read_overflow hd hlt (o.right 1) v
  obtain ⟨x, w, hx⟩ : ∃ x w, a ++ b = x :: w := List.exists_cons_of_ne_nil (by simp [hb])
  have hcons : a ++ b ++ v = x :: (w ++ v) := by rw [hx]; rfl
  rw [hcons]
  refine .of_numeral (Or.inl (hd x (by simp [hx]))) fun c hat => ?_
  rw [← hcons, List.append_assoc] at hat
  exact hreads.finds (head?_ne_of_digits hd hb v) hat

/-- An exponent beyond the largest one. -/
lemma Misread.of_exponentOverflow {m : Mantissa} {e : Char} {s d : List Char} (hm : m.Valid)
    (he : isMarker e) (hs : OptionalSign s) (hd : ∀ x ∈ d, isDigit x)
    (hlt : maxExponent < decimal d) (v : List Char) :
    Misread o (m.text ++ e :: (s ++ d) ++ v) ⟨.exponentOverflow, o.right 1⟩ := by
  obtain ⟨a, b, rfl, hb, hfails⟩ : ∃ a b, d = a ++ b ∧ b ≠ []
      ∧ Fails (exponent e (o.right 1)) (s ++ a) (b ++ v) ⟨.exponentOverflow, o.right 1⟩ :=
    reads_exponent_beyond hs hd hlt v
  have hreads := reads_exponent_behind hm he hfails
  rw [List.append_assoc, List.cons_append]
  refine .of_exponent hm fun c hat => ?_
  exact hreads.finds (head?_ne_of_digits hd hb v) (by simpa using hat)

/-- An exponent without a digit. -/
lemma Misread.of_missingDigit {m : Mantissa} {e : Char} {s : List Char} (hm : m.Valid)
    (he : isMarker e) (hs : OptionalSign s) (hv : NotNext isDigit v)
    (hsign : s = [] → NotNext isSign v) (hr : v.head? ≠ some '\r') :
    Misread o (m.text ++ e :: s ++ v)
      ⟨.missingCharacter "a digit" e, (o.through (m.text ++ e :: s)).toward v⟩ := by
  have hreads : Reads (Numeral.read (o.right 1)) (m.text ++ e :: s) v
      fun p => .error ⟨.missingCharacter "a digit" e, p⟩ :=
    reads_exponent_behind hm he (reads_exponent_missing hs hv hsign)
  rw [List.append_assoc, List.cons_append]
  refine .of_exponent hm fun c hat => ?_
  exact hreads.finds hr (by simpa using hat)

/-- A lexeme that a stray carriage return breaks off. -/
lemma Misread.of_lexeme (h : Lexeme l [] token) (hclean : '\r' ∉ l) (v : List Char) :
    Misread o (l ++ '\r' :: v) ⟨.malformedLineEnding, (o.through l).right (strayWidth v)⟩ := by
  have h' : Lexeme l ('\r' :: v) token := h.before (by simp)
  obtain ⟨x, l', hl, hb, hreads⟩ := h'.reads hclean (o.right 1)
  have hr : x ≠ '\r' := by rintro rfl; simp [hl] at hclean
  refine ⟨x, l' ++ '\r' :: v, by rw [hl]; rfl, hb, hr, h'.opener?_eq, ?_⟩
  exact fun c hat => hreads.breaks hat

/-- An exponent that a stray carriage return breaks off. -/
lemma Misread.of_interrupted {m : Mantissa} {e : Char} {s : List Char} (hm : m.Valid)
    (he : isMarker e) (hs : OptionalSign s) (v : List Char) :
    Misread o (m.text ++ e :: s ++ '\r' :: v)
      ⟨.malformedLineEnding, (o.through (m.text ++ e :: s)).right (strayWidth v)⟩ := by
  have hdigit : NotNext isDigit ('\r' :: v) := by simp; decide
  have hsign : NotNext isSign ('\r' :: v) := by simp; decide
  have hreads : Reads (Numeral.read (o.right 1)) (m.text ++ e :: s) ('\r' :: v)
      fun p => .error ⟨.missingCharacter "a digit" e, p⟩ :=
    reads_exponent_behind hm he (reads_exponent_missing hs hdigit fun _ => hsign)
  rw [List.append_assoc, List.cons_append]
  refine .of_exponent hm fun c hat => ?_
  exact hreads.breaks (by simpa using hat)

namespace Scanner

variable {s : Scanner} {left : Bool}

/-! ### The scanner behind a gap -/

/-- A fault in a gap ends the scan. -/
lemma scan_of_error {s' : Scanner} (h : skipGaps s = .error f s') : scan s = .error f s' := by
  rw [scan, ScanM.bind_apply, h]

/-- Behind a gap the token at the cursor is read. -/
lemma scan_of_ok {s' : Scanner} (h : skipGaps s = .ok () s') :
    scan s = scanHere s'.cursor.position { s' with tokenStart := s'.cursor.position } := by
  simp only [scan, ScanM.bind_apply, h, ScanM.onCursor, place, ScanM.setTokenStart_apply]

/-- The character in the window tells which lexeme begins there. -/
lemma scanHere_of_shown {x : Char} (h : s.cursor.shown? = some x) (start : Position) :
    scanHere start s = ScanM.onCursor (readLexeme x start) s := by
  simp only [scanHere, ScanM.bind_apply, ScanM.onCursor, look, h]

/-- At the end of the text there is a token for it, unless a comment is left open. -/
lemma scanHere_of_ended (h : s.cursor.shown? = none) (start : Position) :
    scanHere start s = if s.inComment then .error ⟨.unterminatedComment, start⟩ s
      else .ok (.endOfText start) s := by
  have hget : (get : ScanM Scanner) s = .ok s s := rfl
  simp only [scanHere, ScanM.bind_apply, ScanM.onCursor, look, h, hget]
  cases s.inComment <;> rfl

/-- Behind a gap a lexeme is read that starts at the window. -/
lemma scan_of_here {x : Char} {c : Cursor} (hat : c.At o (x :: w)) (hb : x ≠ '\n')
    (hgap : Gap.opener? (x :: w) = none)
    (hgo : skipGaps s = skipGaps { s with cursor := c, inComment := left }) :
    scan s = ScanM.onCursor (readLexeme x (o.right 1))
      { s with cursor := c, inComment := left, tokenStart := o.right 1 } := by
  have hahead : Gap.ahead? c = none := by rw [Gap.ahead?_eq hat, hgap]
  have hplace : c.position = o.right 1 := by
    rw [hat.position_eq, Position.toward_cons, Position.past_of_ne hb]
  have hshown : c.shown? = some x := by
    rw [hat.shown?_eq, List.head?_cons, Option.map_some, shownFor_of_ne hb]
  rw [scan_of_ok (hgo.trans (skipGaps_of_none hahead)), scanHere_of_shown hshown, hplace]

/-- Behind the last gap there is the end of the text, unless a comment is left
open. -/
lemma scan_of_end {c : Cursor} (hat : c.At o [])
    (hgo : skipGaps s = skipGaps { s with cursor := c, inComment := left }) :
    let s' := { s with cursor := c, inComment := left, tokenStart := o }
    scan s = if left then .error ⟨.unterminatedComment, o⟩ s' else .ok (.endOfText o) s' := by
  have hahead : Gap.ahead? c = none := by rw [Gap.ahead?_eq hat]; rfl
  have hplace : c.position = o := by rw [hat.position_eq, Position.toward_nil]
  have hshown : c.shown? = none := by rw [hat.shown?_eq]; rfl
  rw [scan_of_ok (hgo.trans (skipGaps_of_none hahead)), scanHere_of_ended hshown, hplace]

/-- Behind a gap a lexeme is misread. -/
lemma SkipsTo.misread (hto : s.SkipsTo o r false) (h : Misread o r f) :
    ∃ s', scan s = .error f s' := by
  obtain ⟨x, w, rfl, hb, hr, hgap, hreads⟩ := h
  obtain ⟨c, hat, hgo⟩ := hto.here (by simpa using hr)
  obtain ⟨c', hr⟩ := hreads c hat
  rw [scan_of_here hat hb hgap hgo, ScanM.onCursor, hr]
  exact ⟨_, rfl⟩

/-- A stray carriage return ends the scan. -/
lemma SkipsTo.breaks (hto : s.SkipsTo o ('\r' :: v) left) :
    ∃ s', scan s = .error ⟨.malformedLineEnding, o.right (strayWidth v)⟩ s' := by
  obtain ⟨s', hr⟩ := hto.stray v rfl
  exact ⟨s', scan_of_error hr⟩

/-- Behind a gap one more piece is passed, which may leave a comment open. -/
lemma SkipsTo.pass {gap : Gap} (hto : s.SkipsTo o (l ++ v) false)
    (hopen : Gap.opener? (l ++ v) = some gap) (hreads : Yields gap.pass l v left) :
    s.SkipsTo (o.through l) v left := by
  have hhead : (l ++ v).head? ≠ some '\r' := by
    intro h
    obtain ⟨w, hw⟩ := List.head?_eq_some_iff.mp h
    rw [hw] at hopen
    simp [Gap.opener?] at hopen
  obtain ⟨c, hat, hgo⟩ := hto.here hhead
  exact .of_eq hgo (.of_pass rfl hat hopen hreads)

/-- Behind a gap a stray carriage return breaks off what it finds. -/
lemma SkipsTo.interrupted {u : List Char} (hto : s.SkipsTo o (u ++ '\r' :: v) false)
    (h : Interrupted u) (hclean : '\r' ∉ u) :
    ∃ s', scan s = .error ⟨.malformedLineEnding, (o.through u).right (strayWidth v)⟩ s' := by
  cases h with
  | nothing => exact hto.breaks
  | lexeme h => exact hto.misread (.of_lexeme h hclean v)
  | point =>
    refine hto.misread (.of_numeral (Or.inr rfl) fun c hat => ?_)
    have hdigit : NotNext isDigit ('\r' :: v) := by simp; decide
    exact (reads_read_barePoint hdigit (o.right 1)).breaks hat
  | mark =>
    refine hto.misread (.of_mark fun c hat => ?_)
    have hequals : NotNext (· == '=') ('\r' :: v) := by simp
    exact (Mark.reads_read_missing (c := '!') rfl hequals (o.right 1)).breaks hat
  | exponent hm he hs => exact hto.misread (.of_interrupted hm he hs v)
  | quoted h =>
    refine hto.misread (.of_quote fun c hat => ?_)
    have hbody := fun hmem => hclean (List.mem_cons_of_mem '"' hmem)
    exact (reads_read_stray h hbody (o.right 1) v fun _ => .ok (.endOfText .start)).breaks hat
  | lineComment h =>
    have hpass := Gap.reads_pass_stray h (fun hmem => hclean (by simp [hmem])) v
    exact (hto.pass rfl hpass).breaks
  | blockComment h =>
    have hpass := Gap.reads_pass_open (v := '\r' :: v) h (fun hmem => hclean (by simp [hmem]))
      (by simp)
    exact (hto.pass rfl hpass).breaks

/-! ### The scanner at a gap -/

/-- **The end of the text.** -/
theorem scan_end (hs : s.inComment = false) (hat : s.cursor.At o g) (hg : Gaps g [])
    (hclean : '\r' ∉ g) :
    ∃ c, c.At (o.through g) [] ∧ scan s = .ok (.endOfText (o.through g))
      { s with cursor := c, tokenStart := o.through g } := by
  have hto := SkipsTo.of_gaps hs (by simpa using hat) hg hclean
  obtain ⟨c, hat', hgo⟩ := hto.here (by simp)
  refine ⟨c, hat', ?_⟩
  rw [scan_of_end hat' hgo, if_neg Bool.false_ne_true, ← hs]

/-- **A lexeme** is made into its token. -/
theorem scan_lexeme (hs : s.inComment = false) (hat : s.cursor.At o (g ++ (l ++ v)))
    (hg : Gaps g (l ++ v)) (hl : Lexeme l v token) (hclean : '\r' ∉ g ++ l)
    (hv : v.head? ≠ some '\r') :
    ∃ c, c.At ((o.through g).through l) v ∧ scan s = .ok (token ((o.through g).right 1))
      { s with cursor := c, tokenStart := (o.through g).right 1 } := by
  have hl' : '\r' ∉ l := fun hmem => hclean (by simp [hmem])
  have hto := SkipsTo.of_gaps hs hat hg fun hmem => hclean (by simp [hmem])
  have hgap := hl.opener?_eq
  obtain ⟨x, l', rfl, hb, hreads⟩ := hl.reads hl' ((o.through g).right 1)
  have hr : x ≠ '\r' := by rintro rfl; simp at hl'
  obtain ⟨c, hat', hgo⟩ := hto.here (by simpa using hr)
  obtain ⟨c', hat'', hr⟩ := (hreads.meets c _ hat').here hv
  refine ⟨c', hat'', ?_⟩
  rw [scan_of_here hat' hb hgap hgo, ScanM.onCursor, hr, outcome, ← hs]

/-- **A fault** ends the scan. -/
theorem scan_faulty (hs : s.inComment = false) (hat : s.cursor.At o (g ++ r)) (hg : Gaps g r)
    (hclean : '\r' ∉ g) (hf : Faulty (o.through g) r f) : ∃ s', scan s = .error f s' := by
  have hto := SkipsTo.of_gaps hs hat hg hclean
  cases hf with
  | unrecognizedCharacter hc => exact hto.misread (.of_nothing hc _)
  | integerOverflow hd hlt => exact hto.misread (.of_overflow hd hlt _)
  | invalidNumber hv hr =>
    refine hto.misread (.of_numeral (Or.inr rfl) fun c hat => ?_)
    exact (reads_read_barePoint hv _).finds hr hat
  | missingEquals hv hr =>
    refine hto.misread (.of_mark fun c hat => ?_)
    exact (Mark.reads_read_missing (c := '!') rfl hv _).finds hr hat
  | missingDigit hm he hs hv hsign hr => exact hto.misread (.of_missingDigit hm he hs hv hsign hr)
  | exponentOverflow hm he hs hd hlt =>
    exact hto.misread (.of_exponentOverflow hm he hs hd hlt _)
  | unterminatedString h hclean =>
    refine hto.misread (.of_quote fun c hat => ?_)
    exact (reads_read_unclosed h hclean _).finds (by simp) (by simpa using hat)
  | @unterminatedComment body h hclean =>
    have hpass := Gap.reads_pass_open (v := []) h hclean (by simp)
    obtain ⟨c, hat', hgo⟩ := (SkipsTo.pass (v := []) (by simpa using hto) rfl hpass).here (by simp)
    exact ⟨_, by rw [scan_of_end hat' hgo, if_pos rfl]⟩
  | malformedLineEnding h hclean => exact hto.interrupted h hclean

end Scanner

end Lexis
