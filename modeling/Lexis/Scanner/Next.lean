import Lexis.Lexeme.Mark
import Lexis.Lexeme.Numeral
import Lexis.Lexeme.Quoted
import Lexis.Lexeme.Word
import Lexis.Scanner.Gap

/-!
# One token after another

The next token of a scanner is the oldest one that was given back, or else the
next one of the text: gaps are passed, and the first character behind them
tells which lexeme begins there.  A fault leaves the current token as it was.

* `Scanner.scan`: the next token of the text;
* `Scanner.next`: the next token;
* `Scanner.work`: what is still to be handed out, and `work_next_lt`: a token
  other than the end of the text leaves less of it.
-/

namespace Lexis

/-- The lexeme that begins with the character `c` in the window. -/
def readLexeme (c : Char) (start : Position) : CursorM Token :=
  match CharClass.of c with
  | .wordStart => Word.read start
  | .digit | .dot => Numeral.read start
  | .quote => Quoted.read start
  | .blank | .other => Mark.read start

namespace Scanner

/-- The token at the cursor: the end of the text, unless a comment was left
open there, or the lexeme that begins with the character in the window. -/
def scanHere (start : Position) : ScanM Token := do
  match ← ScanM.onCursor CursorM.look with
  | none =>
    if (← get).inComment then throw ⟨.unterminatedComment, start⟩
    else return .endOfText start
  | some c => ScanM.onCursor (readLexeme c start)

/-- The next token of the text. -/
def scan : ScanM Token := do
  skipGaps
  let start ← ScanM.onCursor CursorM.place
  ScanM.setTokenStart start
  scanHere start

/-- The next token: the oldest one that was given back, which leaves the text
alone, or else the next one of the text.  It becomes the current token. -/
def next : ScanM Token := fun s =>
  match s.pending with
  | t :: rest => .ok t { s with token := t, pending := rest }
  | [] =>
    match scan s with
    | .ok t s' => .ok t { s' with token := t }
    | .error e s' => .error e s'

/-! ### Lexemes on request -/

/-- What a reader makes of the text at the cursor, as a token that starts where
the last token asked for did.  It does not become the current token. -/
def readWith (reader : Position → CursorM Token) : ScanM Token := do
  ScanM.onCursor (reader (← get).tokenStart)

/-- The word at the cursor, which may be empty. -/
def readWord : ScanM Token := readWith Word.read

/-- The numeral at the cursor. -/
def readNumeral : ScanM Token := readWith Numeral.read

/-- The quoted text at the cursor. -/
def readQuoted : ScanM Token := readWith Quoted.read

/-- The mark at the cursor. -/
def readMark : ScanM Token := readWith Mark.read

end Scanner

/-! ### Progress -/

/-- A lexeme is read forward. -/
theorem forward_readLexeme (c : Char) (start : Position) :
    CursorM.Forward (readLexeme c start) := by
  rw [readLexeme]
  split
  next => exact Word.forward_read start
  next => exact Numeral.forward_read start
  next => exact Numeral.forward_read start
  next => exact Quoted.forward_read start
  next => exact Mark.forward_read start
  next => exact Mark.forward_read start

/-- A character of the class of words may begin a word. -/
theorem isWordStart_of_class {c : Char} (h : CharClass.of c = .wordStart) : isWordStart c := by
  grind [CharClass.of]

/-- A character of the class of digits is a digit. -/
theorem isDigit_of_class {c : Char} (h : CharClass.of c = .digit) : isDigit c := by
  grind [CharClass.of]

/-- The class of points has one member. -/
theorem eq_dot_of_class {c : Char} (h : CharClass.of c = .dot) : c = '.' := by
  grind [CharClass.of]

/-- A lexeme that is read is not empty. -/
theorem shortens_readLexeme {c c' : Cursor} {x : Char} {start : Position} {t : Token}
    (h : c.shown? = some x) (hr : readLexeme x start c = .ok t c') :
    CursorM.Shortens (readLexeme x start) c := by
  rw [readLexeme] at hr ⊢
  cases hx : CharClass.of x with
  | wordStart => exact Word.shortens_read h (isWordStart_of_class hx) start
  | digit => exact Numeral.shortens_read h (.inl (isDigit_of_class hx)) start
  | dot => exact Numeral.shortens_read h (.inr (eq_dot_of_class hx)) start
  | quote => exact Quoted.shortens_read h start
  | blank => rw [hx] at hr; exact Mark.shortens_read h hr
  | other => rw [hx] at hr; exact Mark.shortens_read h hr

namespace Scanner

/-- The tokens that were given back and what the cursor can still move. -/
def work (s : Scanner) : Nat := s.pending.length + s.cursor.remaining

section Progress

open ScanM

/-- The token at the cursor is read forward. -/
theorem steady_scanHere (start : Position) : Steady (scanHere start) := by
  refine steady_bind (steady_onCursor CursorM.forward_look) fun x => ?_
  cases x with
  | none =>
    exact steady_bind steady_get fun _ => steady_ite (steady_throw _) (steady_pure _)
  | some c => exact steady_onCursor (forward_readLexeme c start)

/-- The next token of the text is read forward. -/
theorem steady_scan : Steady scan :=
  steady_bind steady_skipGaps fun _ =>
    steady_bind (steady_onCursor CursorM.forward_place) fun _ =>
      steady_bind (steady_setTokenStart _) fun _ => steady_scanHere _

/-- At the end of the text there is no token but the end. -/
theorem remaining_scanHere_lt {start : Position} {s s' : Scanner} {t : Token}
    (h : scanHere start s = .ok t s') (ht : t.kind ≠ .endOfText) :
    s'.cursor.remaining < s.cursor.remaining := by
  have hlook : onCursor CursorM.look s = .ok s.cursor.shown? s := rfl
  rw [scanHere, ScanM.bind_apply, hlook] at h
  cases hx : s.cursor.shown? with
  | none =>
    have hget : (get : ScanM Scanner) s = .ok s s := rfl
    simp only [hx, ScanM.bind_apply, hget] at h
    by_cases hopen : s.inComment
    · rw [if_pos hopen] at h
      cases h
    · rw [if_neg hopen] at h
      cases h
      exact absurd rfl ht
  | some c =>
    simp only [hx] at h
    have hr : (stateAfter (onCursor (readLexeme c start) s)).cursor
        = stateAfter (readLexeme c start s.cursor) := cursor_onCursor _ _
    cases hl : readLexeme c start s.cursor with
    | ok u c' =>
      have hlt := shortens_readLexeme hx hl
      rwa [CursorM.Shortens, ← hr, h] at hlt
    | error e c' =>
      rw [onCursor, hl] at h
      cases h

/-- A token of the text other than its end is not empty. -/
theorem remaining_scan_lt {s s' : Scanner} {t : Token} (h : scan s = .ok t s')
    (ht : t.kind ≠ .endOfText) : s'.cursor.remaining < s.cursor.remaining := by
  have hskip := steady_skipGaps s
  rw [scan, ScanM.bind_apply] at h
  cases hr : skipGaps s with
  | error e s₁ =>
    rw [hr] at h
    exact nomatch h
  | ok u s₁ =>
    rw [hr] at h hskip
    exact Nat.lt_of_lt_of_le (remaining_scanHere_lt (s := { s₁ with tokenStart := _ }) h ht)
      hskip.1.remaining_le

/-- A token other than the end of the text leaves less to be handed out. -/
theorem work_next_lt {s s' : Scanner} {t : Token} (h : next s = .ok t s')
    (ht : t.kind ≠ .endOfText) : s'.work < s.work := by
  rw [next] at h
  split at h
  next u rest hp =>
    cases h
    simp only [work, hp, List.length_cons]
    omega
  next hp =>
    split at h
    next u s₁ hs =>
      cases h
      have hpend := (steady_scan s).2.1
      rw [hs] at hpend
      have hlt := remaining_scan_lt hs ht
      have hnil : s₁.pending = [] := hpend.trans hp
      simp only [work, hp, hnil, List.length_nil]
      omega
    next => exact nomatch h

end Progress

end Scanner

end Lexis
