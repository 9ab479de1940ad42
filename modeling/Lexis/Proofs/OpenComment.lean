import Lexis.Proofs.Pushback
import Lexis.Proofs.Scan.Item
import Lexis.Proofs.Scan.Skip
import Mathlib.Logic.Relation

/-!
# Comments that are left open

A scanner takes note of a block comment when it has passed the opener, and strikes the
note out behind the closing mark.  Between two calls the note stands only if the text
is at its end and the comment is really left open there, whatever calls were made and
in whatever faults they ended, as long as no stray carriage return was met: the scanner
has come to the opener between lexemes, and there is no closing mark behind it.

* `Cursor.Within`, `Cursor.keeps_advance`: the cursor has the rest of its text before
  it, which every move of the window keeps;
* `Scanner.Opens`: the gap before the scanner ends with a comment that is left open;
* `Scanner.Truthful`: a scanner whose note is true;
* `Scanner.Calls`, `Truthful.call`: a call that meets with no stray carriage return
  keeps the note true;
* `Scanner.LeadsTo`, `Truthful.leftOpen`: so do all calls together;
* `Scanner.inComment_leftOpen`: the note is true, and so is the fault that comes of it.
-/

namespace Lexis

open CursorM ScanM

variable {α : Type} {text : List Char} {c : Cursor}

/-! ### The cursor in its text -/

/-- The cursor has come through a part of the folded text, and has the rest before
it. -/
def Cursor.Within (text : List Char) (c : Cursor) : Prop :=
  ∃ a w, folded text = a ++ w ∧ c.At (.after a) w

/-- **Every move** of the window keeps the cursor in its text, unless it is broken
off. -/
theorem Cursor.keeps_advance : Keeps (Cursor.Within text) advance := by
  rintro c ⟨a, w, hw, hat⟩ hwhole
  cases w with
  | nil =>
    have hend : c.glyph? = none := by rw [hat.glyph?_eq]; rfl
    rw [advance_of_ended hend]
    exact ⟨a, [], hw, hat⟩
  | cons x w =>
    have hx : x ≠ '\r' := by simpa using hat.head?_ne
    rcases (reads_advance hx w).yields_or hat with hbroken | ⟨c', hat', hr⟩
    · exact absurd hbroken hwhole
    · rw [hr]
      rw [← Position.after_append] at hat'
      exact ⟨a ++ [x], w, by simpa using hw, hat'⟩

/-- At the end of the text the position is the one behind it. -/
lemma Cursor.Within.position_eq (h : c.Within text) (hend : c.atEnd) :
    c.position = .after text := by
  obtain ⟨a, w, hw, hat⟩ := h
  cases hat with
  | ended => rw [← Position.after_folded text, hw, List.append_nil]
  | shows => cases hend

namespace Scanner

variable {s s' u : Scanner} {H H' : Prop}

/-! ### A scanner whose note is true -/

/-- The scanner is outside of comments, and the text `before` it ends in the gap that
begins at its window.  The text `r` is behind this gap. -/
def ComesTo (s : Scanner) (before r : List Char) : Prop :=
  s.inComment = false ∧ ∃ a g, before = a ++ g ∧ Gaps (folded g) (folded r)
    ∧ s.cursor.At (.after a) (folded g ++ folded r)

/-- The gap before the scanner ends with the opener of a block comment that is left
open. -/
def Opens (text : List Char) (s : Scanner) : Prop :=
  ∃ before body, text = before ++ '/' :: '*' :: body ∧ Gap.Unclosed body
    ∧ s.ComesTo before ('/' :: '*' :: body)

/-- The scanner is in its text, and if it has taken note of a comment, then it is at
the end of the text and `H` holds. -/
structure Truthful (text : List Char) (H : Prop) (s : Scanner) : Prop where
  within : s.cursor.Within text
  noted : s.inComment → s.cursor.atEnd ∧ H

lemma Truthful.mono (h : Truthful text H s) (hH : H → H') : Truthful text H' s :=
  ⟨h.within, fun hs => (h.noted hs).imp_right hH⟩

/-- What is left open in the folded text is left open in the text. -/
lemma Opens.of_folded {a g body : List Char} (hs : s.inComment = false)
    (htext : folded text = a ++ (g ++ '/' :: '*' :: body)) (hg : Gaps g ('/' :: '*' :: body))
    (hbody : Gap.Unclosed body) (hat : s.cursor.At (.after a) (g ++ '/' :: '*' :: body)) :
    s.Opens text := by
  obtain ⟨a, w, rfl, rfl, hw⟩ := exists_of_folded_eq_append htext
  obtain ⟨g, r, rfl, rfl, hr⟩ := exists_of_folded_eq_append hw
  obtain ⟨m, body, rfl, hm, rfl⟩ := exists_of_folded_eq_append (u := ['/', '*']) hr
  obtain rfl : m = ['/', '*'] := eq_of_folded_eq hm (by decide)
  have hcomment : folded ('/' :: '*' :: body) = '/' :: '*' :: folded body := hr
  rw [Position.after_folded] at hat
  refine ⟨a ++ g, body, by simp, Gap.unclosed_folded_iff.mp hbody, hs, a, g, rfl, ?_, ?_⟩
  · rwa [hcomment]
  · rwa [hcomment]

/-- **A gap** is passed and the note is true, unless a stray carriage return is met. -/
theorem Truthful.skipGaps_or (h : Truthful text H s) :
    (∃ f s', skipGaps s = .error f s' ∧ f.cause = .malformedLineEnding)
      ∨ ∃ s', skipGaps s = .ok () s' ∧ Truthful text (H ∨ s.Opens text) s' := by
  cases hs : s.inComment with
  | true =>
    obtain ⟨hend, hH⟩ := h.noted hs
    exact Or.inr ⟨s, skipGaps_of_atEnd hend, h.mono Or.inl⟩
  | false =>
    obtain ⟨a, w, htext, hat⟩ := h.within
    have hskips := skips_skipGaps hs hat
    generalize skipGaps s = r at hskips ⊢
    cases hskips with
    | broken hf => exact Or.inl ⟨_, _, rfl, hf⟩
    | @behind g v c hw hg hat' =>
      rw [← Position.after_append] at hat'
      refine Or.inr ⟨_, rfl, ⟨a ++ g, v, by simp [htext, hw], hat'⟩, fun hnote => ?_⟩
      exact absurd hnote (by simp [hs])
    | @inside g body c hw hg hbody hat' =>
      have hopens : s.Opens text := by
        subst hw
        exact .of_folded hs htext hg hbody hat
      rw [← Position.after_append] at hat'
      exact Or.inr ⟨_, rfl, ⟨a ++ w, [], by simp [htext], hat'⟩, fun _ =>
        ⟨hat'.atEnd, Or.inr hopens⟩⟩

/-- The cursor moves on in its text, and stays at the end of it. -/
lemma keeps_onCursor {x : CursorM α} (hx : Keeps (Cursor.Within text) x) (hforward : Forward x) :
    Keeps (Truthful text H) (onCursor x) := by
  intro s hs hwhole
  have hcursor := cursor_onCursor x s
  have hnote : (stateAfter (onCursor x s)).inComment = s.inComment := by
    unfold onCursor
    cases x s.cursor <;> rfl
  have hwhole' : ¬BrokenOff (x s.cursor) := by
    intro hbroken
    refine hwhole ?_
    unfold onCursor
    cases hr : x s.cursor <;> rwa [hr] at hbroken
  constructor
  · rw [hcursor]
    exact hx s.cursor hs.within hwhole'
  · rw [hcursor, hnote]
    refine fun h => (hs.noted h).imp_left fun hend => ?_
    have hle := (hforward s.cursor).remaining_le
    rw [← Cursor.remaining_eq_zero_iff] at hend ⊢
    omega

/-- A lexeme on request keeps the note true. -/
lemma keeps_readWith {reader : Position → CursorM Token}
    (h : ∀ start, Keeps (Cursor.Within text) (reader start))
    (hforward : ∀ start, Forward (reader start)) :
    Keeps (Truthful text H) (readWith reader) :=
  keeps_get.bind fun s => keeps_onCursor (h s.tokenStart) (hforward s.tokenStart)

/-- So does the token at the cursor. -/
lemma keeps_scanHere (start : Position) : Keeps (Truthful text H) (scanHere start) := by
  refine (keeps_onCursor keeps_look forward_look).bind fun shown => ?_
  cases shown with
  | none => exact keeps_get.bind fun _ => .ite (keeps_throw _) (keeps_pure _)
  | some x =>
    exact keeps_onCursor (Cursor.keeps_advance.readLexeme x start) (forward_readLexeme x start)

/-! ### One call -/

/-- The next token of the text keeps the note true. -/
lemma Truthful.scan (h : Truthful text H s) (hwhole : ¬BrokenOff (scan s)) :
    Truthful text (H ∨ s.Opens text) (stateAfter (scan s)) := by
  rcases h.skipGaps_or with ⟨f, u, hskip, hf⟩ | ⟨u, hskip, hu⟩
  · rw [scan_of_error hskip] at hwhole
    exact absurd hf hwhole
  · rw [scan_of_ok hskip] at hwhole ⊢
    exact keeps_scanHere _ _ ⟨hu.within, hu.noted⟩ hwhole

/-- So does the next token. -/
lemma Truthful.next (h : Truthful text H s) (hwhole : ¬BrokenOff (next s)) :
    Truthful text (H ∨ s.Opens text) (stateAfter (next s)) := by
  cases hp : s.pending with
  | cons t q =>
    rw [next_of_pending hp]
    exact ⟨h.within, (h.mono Or.inl).noted⟩
  | nil =>
    cases hr : Scanner.scan s with
    | ok t s' =>
      have hs' := h.scan (by rw [hr]; exact not_false)
      rw [hr] at hs'
      rw [next_of_scan_ok hp hr]
      exact ⟨hs'.within, hs'.noted⟩
    | error f s' =>
      rw [next_of_scan_error hp hr] at hwhole ⊢
      have hs' := h.scan (by rw [hr]; exact hwhole)
      rwa [hr] at hs'

/-- So does the next item. -/
lemma Truthful.next? (h : Truthful text H s)
    (hwhole : ∀ f, s.next?.1 = some (.error f) → f.cause ≠ .malformedLineEnding) :
    Truthful text (H ∨ s.Opens text) s.next?.2 := by
  cases hlive : s.exhausted with
  | true =>
    rw [next?_of_exhausted hlive]
    exact h.mono Or.inl
  | false =>
    cases hr : Scanner.next s with
    | error f s' =>
      rw [next?_of_error hlive hr] at hwhole ⊢
      have hs' := h.next (by rw [hr]; exact hwhole f rfl)
      rw [hr] at hs'
      exact ⟨hs'.within, hs'.noted⟩
    | ok t s' =>
      have hs' := h.next (by rw [hr]; exact not_false)
      rw [hr] at hs'
      by_cases ht : t.kind = .endOfText
      · rw [next?_of_end hlive hr ht]
        exact ⟨hs'.within, hs'.noted⟩
      · rw [next?_of_ok hlive hr ht]
        exact hs'

/-- The scanner becomes another one by a call, which may end in any fault but that of a
stray carriage return. -/
def Calls (s s' : Scanner) : Prop :=
  ∃ k : Call, s' = k.run s
    ∧ ∀ f ∈ (k.reply s : Reply Empty).fault?, f.cause ≠ .malformedLineEnding

/-- **One call** keeps the note true. -/
theorem Truthful.call (h : Truthful text H s) (hcall : Calls s s') :
    Truthful text (H ∨ s.Opens text) s' := by
  obtain ⟨k, rfl, hwhole⟩ := hcall
  -- what is replied is the result of the call
  have htoken {r : EStateM.Result Fault Scanner Token}
      (hr : ∀ f ∈ (Reply.token (answer r) : Reply Empty).fault?, f.cause ≠ .malformedLineEnding) :
      ¬BrokenOff r := by
    cases r with
    | ok => exact not_false
    | error f s => exact hr f rfl
  have hread : Keeps (Cursor.Within text) advance := Cursor.keeps_advance
  have hs : Truthful text (H ∨ s.Opens text) s := h.mono Or.inl
  cases k with
  | next => exact h.next (htoken hwhole)
  | item =>
    refine h.next? fun f hf => hwhole f ?_
    rw [Call.reply, hf]
    rfl
  | skipGaps =>
    rcases h.skipGaps_or with ⟨f, u, hskip, hf⟩ | ⟨u, hskip, hu⟩
    · rw [Call.reply, hskip] at hwhole
      exact absurd hf (hwhole f rfl)
    · rw [Call.run, hskip]
      exact hu
  | readWord => exact keeps_readWith hread.readWord Word.forward_read s hs (htoken hwhole)
  | readNumeral => exact keeps_readWith hread.readNumeral Numeral.forward_read s hs (htoken hwhole)
  | readQuoted => exact keeps_readWith hread.readQuoted Quoted.forward_read s hs (htoken hwhole)
  | readMark => exact keeps_readWith hread.readMark Mark.forward_read s hs (htoken hwhole)
  | pushBack t => exact ⟨hs.within, hs.noted⟩
  | clearPending => exact ⟨hs.within, hs.noted⟩

/-! ### All calls -/

/-- The scanner becomes another one by calls that meet with no stray carriage
return. -/
abbrev LeadsTo : Scanner → Scanner → Prop := Relation.ReflTransGen Calls

/-- A block comment of the text is left open, and the scanner has come to its opener on
the way from `s₁`. -/
def LeftOpen (text : List Char) (s₁ s : Scanner) : Prop :=
  ∃ before body, text = before ++ '/' :: '*' :: body ∧ Gap.Unclosed body
    ∧ ∃ u, LeadsTo s₁ u ∧ LeadsTo u s ∧ u.ComesTo before ('/' :: '*' :: body)

/-- A new text is before the cursor, and no comment is noted. -/
lemma Truthful.of_load {text : String} {s₀ s₁ : Scanner} (hload : load text s₀ = .ok () s₁) :
    Truthful text.toList H s₁ := by
  have hm := load_meets text.toList s₀.renewed.cursor
  rw [load, onCursor] at hload
  rcases strayFirst_or (folded text.toList) with ⟨v, hv⟩ | hclear
  · obtain ⟨c, hr⟩ := hm.stray v hv
    rw [hr] at hload
    cases hload
  · obtain ⟨c, hat, hr⟩ := hm.here hclear
    rw [hr] at hload
    cases hload
    refine ⟨⟨[], _, rfl, hat⟩, fun hnote => ?_⟩
    cases hnote

/-- **All calls** keep the note true. -/
theorem Truthful.leftOpen {text : String} {s₀ s₁ : Scanner} (hload : load text s₀ = .ok () s₁)
    (h : LeadsTo s₁ s) : Truthful text.toList (LeftOpen text.toList s₁ s) s := by
  induction h with
  | refl => exact .of_load hload
  | @tail s s' hs hcall ih =>
    refine (ih.call hcall).mono ?_
    rintro (⟨before, body, htext, hbody, u, hu, hus, hcomes⟩ | ⟨before, body, htext, hbody, hcomes⟩)
    · exact ⟨before, body, htext, hbody, u, hu, hus.tail hcall, hcomes⟩
    · exact ⟨before, body, htext, hbody, s, hs, .single hcall, hcomes⟩

/-! ### The note and the next token -/

/-- Behind a gap inside a comment there is the fault of the comment. -/
lemma scan_of_inComment (hskip : skipGaps s = .ok () u) (hnote : u.inComment)
    (hend : u.cursor.atEnd) :
    scan s = .error ⟨.unterminatedComment, u.cursor.position⟩
      { u with tokenStart := u.cursor.position } := by
  have hhere := scanHere_of_ended (s := { u with tokenStart := u.cursor.position })
    (Cursor.shown?_of_atEnd hend)
  rw [scan_of_ok hskip, hhere, if_pos hnote]

/-- Outside of comments there is no such fault at the cursor, and no comment is noted. -/
lemma scanHere_of_not_inComment (hs : s.inComment = false) (start : Position) :
    (stateAfter (scanHere start s)).inComment = false
      ∧ ∀ p s', scanHere start s ≠ .error ⟨.unterminatedComment, p⟩ s' := by
  cases hx : s.cursor.shown? with
  | none =>
    rw [scanHere_of_ended hx, if_neg (by simp [hs])]
    exact ⟨hs, fun p s' h => by cases h⟩
  | some x =>
    have hrest := readLexeme_or hx start
    rw [scanHere_of_shown hx, onCursor]
    cases hr : readLexeme x start s.cursor with
    | ok t c => exact ⟨hs, fun p s' h => by cases h⟩
    | error f c =>
      refine ⟨hs, ?_⟩
      rintro p s' ⟨⟩
      -- such a fault lasts, and the one fault of a lexeme that does is another one
      rw [hr] at hrest
      rcases hrest with ⟨-, hrest⟩ | hnothing
      · exact hrest rfl
      · cases hnothing

/-- Inside a comment the next token of the text is the fault of the comment. -/
lemma Truthful.next_of_inComment (h : Truthful text H s) (hp : s.pending = [])
    (hs : s.inComment) :
    Scanner.next s = .error ⟨.unterminatedComment, .after text⟩
      { s with tokenStart := .after text } := by
  have hend := (h.noted hs).1
  have hscan := scan_of_inComment (skipGaps_of_atEnd hend) hs hend
  rw [h.within.position_eq hend] at hscan
  exact next_of_scan_error hp hscan

/-- The next token of the text is the fault of an open comment, and the comment is
noted, or it is anything else, and if it is a token then no comment is noted. -/
lemma Truthful.next_or (h : Truthful text H s) (hp : s.pending = []) :
    (∃ s', Scanner.next s = .error ⟨.unterminatedComment, .after text⟩ s' ∧ s'.inComment)
      ∨ (∀ p s', Scanner.next s ≠ .error ⟨.unterminatedComment, p⟩ s')
        ∧ ∀ t s', Scanner.next s = .ok t s' → s'.inComment = false := by
  rcases h.skipGaps_or with ⟨f, u, hskip, hf⟩ | ⟨u, hskip, hu⟩
  · have hnext := next_of_scan_error hp (scan_of_error hskip)
    refine Or.inr ⟨fun p s' h => ?_, fun t s' h => ?_⟩
    · cases hnext.symm.trans h
      cases hf
    · cases hnext.symm.trans h
  · cases hnote : u.inComment with
    | true =>
      have hend := (hu.noted hnote).1
      have hscan := scan_of_inComment hskip hnote hend
      rw [hu.within.position_eq hend] at hscan
      exact Or.inl ⟨_, next_of_scan_error hp hscan, hnote⟩
    | false =>
      have hhere := scanHere_of_not_inComment (s := { u with tokenStart := u.cursor.position })
        hnote u.cursor.position
      rw [← scan_of_ok hskip] at hhere
      refine Or.inr ?_
      cases hr : Scanner.scan s with
      | error f s'' =>
        have hnext := next_of_scan_error hp hr
        refine ⟨fun p s' h => ?_, fun t s' h => ?_⟩
        · cases hnext.symm.trans h
          exact hhere.2 p _ hr
        · cases hnext.symm.trans h
      | ok t s'' =>
        rw [hr] at hhere
        have hnext := next_of_scan_ok hp hr
        refine ⟨fun p s' h => ?_, fun t' s' h => ?_⟩
        · cases hnext.symm.trans h
        · cases hnext.symm.trans h
          exact hhere.1

/-- **Comments that are left open.**  A text has been taken up, and calls have led to
the scanner `s`, in whatever faults they ended but that of a stray carriage return.  If
a comment is noted, then the text is at its end, and it has the opener of a block
comment with no closing mark behind it, to which the scanner has come behind a gap.
Then the next token is the fault of this comment, if no token was given back: no token
comes from the text while the note stands.  And the fault of an open comment is had for
no other reason. -/
theorem inComment_leftOpen {text : String} {s₀ s₁ : Scanner} (hload : load text s₀ = .ok () s₁)
    (h : LeadsTo s₁ s) :
    (s.inComment → s.cursor.atEnd ∧ LeftOpen text.toList s₁ s)
      ∧ (s.pending = [] → s.inComment →
        next s = .error ⟨.unterminatedComment, .after text.toList⟩
          { s with tokenStart := .after text.toList })
      ∧ (s.pending = [] → ∀ t s', next s = .ok t s' →
        s.inComment = false ∧ s'.inComment = false)
      ∧ ∀ p s', next s = .error ⟨.unterminatedComment, p⟩ s' →
        p = .after text.toList ∧ s'.inComment ∧ s'.cursor.atEnd
          ∧ LeftOpen text.toList s₁ s' := by
  have htrue := Truthful.leftOpen hload h
  refine ⟨htrue.noted, htrue.next_of_inComment, fun hp t s' hr => ?_, fun p s' hr => ?_⟩
  · constructor
    · by_contra hs
      have hfault := htrue.next_of_inComment hp (by simpa using hs)
      cases hr.symm.trans hfault
    · rcases htrue.next_or hp with ⟨s'', hfault, -⟩ | ⟨-, hnote⟩
      · cases hr.symm.trans hfault
      · exact hnote t s' hr
  · have hp : s.pending = [] := by
      cases hq : s.pending with
      | nil => rfl
      | cons t q => cases hr.symm.trans (next_of_pending hq)
    have hcall : Calls s s' := by
      refine ⟨.next, by rw [Call.run, hr]; rfl, ?_⟩
      rw [Call.reply, hr]
      rintro f ⟨⟩
      exact Cause.noConfusion
    rcases htrue.next_or hp with ⟨s'', hfault, hnote⟩ | ⟨hnone, -⟩
    · cases hr.symm.trans hfault
      exact ⟨rfl, hnote, (Truthful.leftOpen hload (h.tail hcall)).noted hnote⟩
    · exact absurd hr (hnone p s')

/-- A quoted text that is read on request from the middle of a numeral on, so that a
comment begins behind what was passed over as its quotes. -/
theorem inComment_leftOpen_midway :
    ∃ s₁ s, load "0\"/*/" new = .ok () s₁ ∧ s = Call.next.run (Call.readQuoted.run s₁)
      ∧ LeadsTo s₁ s ∧ s.inComment ∧ s.pending = []
      ∧ s.cursor.atEnd ∧ LeftOpen ['0', '"', '/', '*', '/'] s₁ s
      ∧ next s = .error ⟨.unterminatedComment, ⟨1, 5⟩⟩ { s with tokenStart := ⟨1, 5⟩ } := by
  let s₁ := stateAfter (load "0\"/*/" new)
  have hload : load "0\"/*/" new = .ok () s₁ := eq_ok_of_answer (by decide +kernel)
  have hquoted : Calls s₁ (Call.readQuoted.run s₁) := ⟨.readQuoted, rfl, by decide +kernel⟩
  have hnext : Calls (Call.readQuoted.run s₁) (Call.next.run (Call.readQuoted.run s₁)) :=
    ⟨.next, rfl, by decide +kernel⟩
  have hnote : (Call.next.run (Call.readQuoted.run s₁)).inComment := by decide +kernel
  have hpending : (Call.next.run (Call.readQuoted.run s₁)).pending = [] := by decide +kernel
  have hplace : Position.after "0\"/*/".toList = ⟨1, 5⟩ := by decide +kernel
  have hcalls := Relation.ReflTransGen.tail (.single hquoted) hnext
  obtain ⟨hopen, hfault, -⟩ := inComment_leftOpen hload hcalls
  rw [hplace] at hfault
  exact ⟨s₁, _, hload, rfl, hcalls, hnote, hpending, (hopen hnote).1, (hopen hnote).2,
    hfault hpending hnote⟩

end Scanner

end Lexis
