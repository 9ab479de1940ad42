import Lexis.Proofs.Grammar.Numeral
import Lexis.Proofs.Grammar.Quoted
import Lexis.Scanner.Next

/-!
# Lexemes of a text

A lexeme is a word, a numeral, a quoted text or a mark.  Every form says what
may not follow it, by which a lexeme is the longest one that begins where it
does.

* `Lexeme`: the lexeme `l` in front of the text `v`, and the token it amounts
  to;
* `Lexeme.exists_token_eq`: what the token is does not depend on where it stands;
* `Lexeme.before`: a line break or a stray carriage return may follow any
  lexeme;
* `Lexeme.reads`: a lexeme that begins at the cursor is read as its token.
-/

namespace Lexis

open CursorM Numeral Quoted

variable {l v : List Char} {token : Position → Token}

/-! ### Marks -/

namespace Mark

/-- What a mark of one character may be confused with: the opener of a comment. -/
def opensComment (c x : Char) : Bool := c == '/' && (x == '/' || x == '*')

lemma ne_lineBreak_of_ofChar? {c : Char} {s : Symbol} (h : Symbol.ofChar? c = some s) :
    c ≠ '\r' ∧ c ≠ '\n' := by
  constructor <;> (rintro rfl; simp [Symbol.ofChar?] at h)

lemma ne_lineBreak_of_beforeEquals? {c : Char} {forms : Option Symbol × Symbol}
    (h : Symbol.beforeEquals? c = some forms) : c ≠ '\r' ∧ c ≠ '\n' := by
  constructor <;> (rintro rfl; simp [Symbol.beforeEquals?] at h)

/-- No character makes up a symbol by itself and is joined by an equals sign. -/
lemma beforeEquals?_of_ofChar? {c : Char} {s : Symbol} (h : Symbol.ofChar? c = some s) :
    Symbol.beforeEquals? c = none := by
  unfold Symbol.ofChar? at h
  split at h <;> first | rfl | simp at h

/-- The mark that begins with the character in the window. -/
lemma reads_read_of_symbol {c : Char} {start : Position} {out : Position → Except Fault Symbol}
    (hb : c ≠ '\n') (h : Reads (readSymbol c start) (c :: l) v out) :
    Reads (read start) (c :: l) v fun p =>
      (out p).map fun s => Token.bare (Kind.symbol s) start := by
  refine reads_bind_stay (reads_look _) ?_
  have hshown : ((c :: l ++ v).head?.map shownFor).getD Cursor.endMark = c := by
    simp [shownFor_of_ne hb]
  rw [hshown]
  exact reads_map (fun s => Token.bare (Kind.symbol s) start) h

/-- A mark of one character. -/
theorem reads_read_single {c : Char} {s : Symbol} (h : Symbol.ofChar? c = some s)
    (start : Position) (v : List Char) : Yields (read start) [c] v (.bare (.symbol s) start) := by
  obtain ⟨hr, hb⟩ := ne_lineBreak_of_ofChar? h
  have hsymbol : Yields (readSymbol c start) [c] v s := by
    simp only [readSymbol, beforeEquals?_of_ofChar? h, h]
    exact reads_bind_last (reads_advance hr v) (reads_pure s v)
  exact reads_read_of_symbol hb hsymbol

/-- A mark that an equals sign could join and does not. -/
theorem reads_read_alone {c : Char} {s j : Symbol}
    (h : Symbol.beforeEquals? c = some (some s, j)) (hv : NotNext (· == '=') v)
    (start : Position) : Yields (read start) [c] v (.bare (.symbol s) start) := by
  obtain ⟨hr, hb⟩ := ne_lineBreak_of_beforeEquals? h
  have hsymbol : Yields (readSymbol c start) [c] v s := by
    simp only [readSymbol, h]
    refine reads_bind_last (reads_advance hr v) ?_
    exact reads_bind_stay (reads_take_false (by decide) (hv.head?_ne (by decide)))
      (reads_pure s v)
  exact reads_read_of_symbol hb hsymbol

/-- A mark that an equals sign joins. -/
theorem reads_read_joined {c : Char} {a : Option Symbol} {j : Symbol}
    (h : Symbol.beforeEquals? c = some (a, j)) (start : Position) (v : List Char) :
    Yields (read start) [c, '='] v (.bare (.symbol j) start) := by
  obtain ⟨hr, hb⟩ := ne_lineBreak_of_beforeEquals? h
  have hsymbol : Yields (readSymbol c start) [c, '='] v j := by
    simp only [readSymbol, h]
    refine reads_bind (l := [c]) (reads_advance hr _) ?_
    exact reads_bind_last (reads_take (by decide) (by decide) v) (reads_pure j v)
  exact reads_read_of_symbol hb hsymbol

/-- A character that is nothing without an equals sign: the fault is found where
the sign is missing. -/
theorem reads_read_missing {c : Char} {j : Symbol} (h : Symbol.beforeEquals? c = some (none, j))
    (hv : NotNext (· == '=') v) (start : Position) :
    Reads (read start) [c] v fun p => .error ⟨.missingCharacter "'='" c, p⟩ := by
  obtain ⟨hr, hb⟩ := ne_lineBreak_of_beforeEquals? h
  have hsymbol : Reads (readSymbol c start) [c] v
      fun p => .error ⟨.missingCharacter "'='" c, p⟩ := by
    simp only [readSymbol, h]
    refine reads_bind_last (reads_advance hr v) ?_
    exact reads_bind_stay (reads_take_false (by decide) (hv.head?_ne (by decide)))
      (reads_failHere _ v)
  exact reads_read_of_symbol hb hsymbol

/-- A character that begins no mark is a fault. -/
theorem reads_read_unrecognized {c : Char} (hb : c ≠ '\n') (hs : Symbol.ofChar? c = none)
    (he : Symbol.beforeEquals? c = none) (start : Position) (v : List Char) :
    Fails (read start) [] (c :: v) ⟨.unrecognizedCharacter c, start⟩ := by
  refine reads_bind_stay (reads_look _) ?_
  have hshown : (([] ++ c :: v).head?.map shownFor).getD Cursor.endMark = c := by
    simp [shownFor_of_ne hb]
  rw [hshown]
  refine reads_bind_fault (F := fun _ => _) ?_
  simp only [readSymbol, he, hs]
  exact reads_fail _ _ _

end Mark

/-! ### Lexemes -/

/-- The lexeme `l` in front of the text `v`, and the token that it amounts to if
it starts at a position. -/
inductive Lexeme : List Char → List Char → (Position → Token) → Prop
  /-- A word that is reserved. -/
  | keyword {c : Char} {l v : List Char} {k : Keyword} (hc : isWordStart c)
      (hl : ∀ x ∈ l, isWordChar x) (hv : NotNext isWordChar v)
      (hk : Keyword.ofSpelling? (String.ofList (c :: l)) = some k) :
      Lexeme (c :: l) v (Token.bare (.keyword k))
  /-- A word that is not reserved. -/
  | identifier {c : Char} {l v : List Char} (hc : isWordStart c)
      (hl : ∀ x ∈ l, isWordChar x) (hv : NotNext isWordChar v)
      (hk : Keyword.ofSpelling? (String.ofList (c :: l)) = none) :
      Lexeme (c :: l) v (Token.identifier (String.ofList (c :: l)))
  /-- A mantissa without an exponent: a whole number unless it has a point. -/
  | numeral {m : Mantissa} {v : List Char} (hm : m.Valid)
      (hv : NotNext (fun x => m.goesOn x || isMarker x) v) :
      Lexeme m.text v m.alone
  /-- A mantissa with an exponent. -/
  | scaled {m : Mantissa} {e : Char} {s d v : List Char} (hm : m.Valid) (he : isMarker e)
      (hs : OptionalSign s) (hne : d ≠ []) (hd : ∀ x ∈ d, isDigit x)
      (hle : decimal d ≤ maxExponent) (hv : NotNext isDigit v) :
      Lexeme (m.text ++ e :: (s ++ d)) v (m.scaled (signed s d))
  /-- A quoted text. -/
  | quoted {body text v : List Char} (h : Spells body text) :
      Lexeme ('"' :: (body ++ ['"'])) v (Token.string (String.ofList text))
  /-- A mark of one character; a slash must not open a comment. -/
  | mark {c : Char} {s : Symbol} {v : List Char} (hs : Symbol.ofChar? c = some s)
      (hv : NotNext (Mark.opensComment c) v) : Lexeme [c] v (Token.bare (.symbol s))
  /-- A mark that an equals sign could join. -/
  | alone {c : Char} {s j : Symbol} {v : List Char}
      (hs : Symbol.beforeEquals? c = some (some s, j)) (hv : NotNext (· == '=') v) :
      Lexeme [c] v (Token.bare (.symbol s))
  /-- A mark that an equals sign joins. -/
  | joined {c : Char} {a : Option Symbol} {j : Symbol} {v : List Char}
      (hs : Symbol.beforeEquals? c = some (a, j)) :
      Lexeme [c, '='] v (Token.bare (.symbol j))

/-- A lexeme is not empty. -/
lemma Lexeme.ne_nil (h : Lexeme l v token) : l ≠ [] := by
  cases h with
  | numeral hm | scaled hm =>
    obtain ⟨x, l', hx, -⟩ := hm.exists_cons
    simp [hx]
  | _ => simp

/-- A lexeme is not the end of the text, and means the same wherever it starts. -/
theorem Lexeme.exists_token_eq (h : Lexeme l v token) :
    ∃ kind text n x, kind ≠ Kind.endOfText ∧ ∀ p, token p = ⟨kind, p, text, n, x⟩ := by
  cases h with
  | @numeral m => cases m <;> exact ⟨_, _, _, _, Kind.noConfusion, fun _ => rfl⟩
  | @scaled m => cases m <;> exact ⟨_, _, _, _, Kind.noConfusion, fun _ => rfl⟩
  | _ => exact ⟨_, _, _, _, Kind.noConfusion, fun _ => rfl⟩

lemma Lexeme.kind_ne (h : Lexeme l v token) (p : Position) : (token p).kind ≠ .endOfText := by
  obtain ⟨kind, text, n, x, hkind, htoken⟩ := h.exists_token_eq
  rw [htoken]
  exact hkind

/-- A token stands where it is told to. -/
lemma Lexeme.position_eq (h : Lexeme l v token) (p : Position) : (token p).position = p := by
  obtain ⟨kind, text, n, x, -, htoken⟩ := h.exists_token_eq
  rw [htoken]

/-! ### What follows a lexeme -/

/-- A line break or a stray carriage return may follow any lexeme. -/
theorem Lexeme.before {v' : List Char} (h : Lexeme l v token)
    (hv : ∀ x ∈ v'.head?, x ∈ v.head? ∨ x = '\n' ∨ x = '\r') : Lexeme l v' token := by
  cases h with
  | keyword hc hl hw hk => exact .keyword hc hl (hw.before hv (by decide) (by decide)) hk
  | identifier hc hl hw hk => exact .identifier hc hl (hw.before hv (by decide) (by decide)) hk
  | @numeral m _ hm hw =>
    obtain ⟨hb, hr⟩ := m.goesOn_lineBreak
    refine .numeral hm (hw.before hv ?_ ?_)
    · rw [hb]
      decide
    · rw [hr]
      decide
  | scaled hm he hs hne hd hle hw =>
    exact .scaled hm he hs hne hd hle (hw.before hv (by decide) (by decide))
  | quoted h => exact .quoted h
  | @mark c _ _ hs hw =>
    have hopens : Mark.opensComment c '\n' = false ∧ Mark.opensComment c '\r' = false := by
      simp [Mark.opensComment]
    exact .mark hs (hw.before hv hopens.1 hopens.2)
  | alone hs hw => exact .alone hs (hw.before hv (by decide) (by decide))
  | joined hs => exact .joined hs

/-! ### Reading -/

lemma CharClass.of_isWordStart {c : Char} (h : isWordStart c) : CharClass.of c = .wordStart := by
  rw [CharClass.of, if_pos h]

/-- Digits begin no word. -/
lemma not_isWordStart_of_isDigit {c : Char} (h : isDigit c) : isWordStart c = false := by
  simp only [isDigit, Bool.and_eq_true, decide_eq_true_eq, Char.le_def,
    UInt32.le_iff_toNat_le] at h
  simp only [isWordStart, Bool.or_eq_false_iff, Bool.and_eq_false_iff, decide_eq_false_iff_not,
    Char.le_def, UInt32.le_iff_toNat_le, beq_eq_false_iff_ne]
  refine ⟨⟨Or.inl ?_, Or.inl ?_⟩, ?_⟩
  · simp only [Char.reduceVal, UInt32.reduceToNat] at h ⊢
    omega
  · simp only [Char.reduceVal, UInt32.reduceToNat] at h ⊢
    omega
  · rintro rfl
    exact absurd h (by decide)

lemma CharClass.of_isDigit {c : Char} (h : isDigit c) : CharClass.of c = .digit := by
  rw [CharClass.of, if_neg (by simp [not_isWordStart_of_isDigit h]), if_pos h]

lemma CharClass.of_ofChar? {c : Char} {s : Symbol} (h : Symbol.ofChar? c = some s) :
    CharClass.of c = .other := by
  unfold Symbol.ofChar? at h
  split at h <;> first | decide | simp at h

lemma CharClass.of_beforeEquals? {c : Char} {forms : Option Symbol × Symbol}
    (h : Symbol.beforeEquals? c = some forms) : CharClass.of c = .other := by
  unfold Symbol.beforeEquals? at h
  split at h <;> first | decide | simp at h

/-- Where a word begins a word is read. -/
lemma readLexeme_of_isWordStart {c : Char} (h : isWordStart c) : readLexeme c = Word.read := by
  funext start
  rw [readLexeme, CharClass.of_isWordStart h]

/-- Where a numeral begins a numeral is read. -/
lemma readLexeme_of_numeral {c : Char} (h : isDigit c ∨ c = '.') : readLexeme c = Numeral.read := by
  funext start
  rcases h with h | rfl
  · rw [readLexeme, CharClass.of_isDigit h]
  · rfl

/-- Where neither begins, nor a quote or a blank, a mark is read. -/
lemma readLexeme_of_other {c : Char} (h : CharClass.of c = .other) : readLexeme c = Mark.read := by
  funext start
  rw [readLexeme, h]

/-- **A lexeme** that begins at the cursor is read as its token. -/
theorem Lexeme.reads (h : Lexeme l v token) (hclean : '\r' ∉ l) (start : Position) :
    ∃ x l', l = x :: l' ∧ x ≠ '\n' ∧ Yields (readLexeme x start) l v (token start) := by
  cases h with
  | @keyword c l v k hc hl hv hk =>
    refine ⟨c, l, rfl, by rintro rfl; exact absurd hc (by decide), ?_⟩
    have hword : Word.token (String.ofList (c :: l)) start = .bare (.keyword k) start := by
      simp only [Word.token, hk]
    rw [readLexeme_of_isWordStart hc, ← hword]
    exact Word.reads_read (List.forall_mem_cons.mpr ⟨isWordChar_of_isWordStart hc, hl⟩) hv start
  | @identifier c l v hc hl hv hk =>
    refine ⟨c, l, rfl, by rintro rfl; exact absurd hc (by decide), ?_⟩
    have hword : Word.token (String.ofList (c :: l)) start
        = .identifier (String.ofList (c :: l)) start := by
      simp only [Word.token, hk]
    rw [readLexeme_of_isWordStart hc, ← hword]
    exact Word.reads_read (List.forall_mem_cons.mpr ⟨isWordChar_of_isWordStart hc, hl⟩) hv start
  | @numeral m v hm hv =>
    obtain ⟨x, l', hx, hfirst⟩ := hm.exists_cons
    refine ⟨x, l', hx, by rintro rfl; exact absurd hfirst (by decide), ?_⟩
    rw [readLexeme_of_numeral hfirst, ← List.append_nil m.text]
    have hgoesOn : NotNext m.goesOn v := hv.imp fun x hx => (Bool.or_eq_false_iff.mp hx).1
    have hmarker : NotNext isMarker v := hv.imp fun x hx => (Bool.or_eq_false_iff.mp hx).2
    exact reads_mantissa hm hgoesOn (reads_finish_alone hmarker)
  | @scaled m e s d v hm he hs hne hd hle hv =>
    obtain ⟨x, l', hx, hfirst⟩ := hm.exists_cons
    refine ⟨x, l' ++ e :: (s ++ d), by rw [hx]; rfl,
      by rintro rfl; exact absurd hfirst (by decide), ?_⟩
    rw [readLexeme_of_numeral hfirst]
    refine reads_mantissa hm ?_ (reads_finish_scaled he hs hne hd hle hv)
    rw [List.cons_append, notNext_cons]
    rcases eq_of_isMarker he with rfl | rfl <;> cases m <;> rfl
  | @quoted body text v h =>
    refine ⟨'"', body ++ ['"'], rfl, by decide, ?_⟩
    exact Quoted.reads_read h (fun hmem => hclean (by simp [hmem])) start v
  | @mark c s v hs hv =>
    refine ⟨c, [], rfl, (Mark.ne_lineBreak_of_ofChar? hs).2, ?_⟩
    rw [readLexeme_of_other (CharClass.of_ofChar? hs)]
    exact Mark.reads_read_single hs start v
  | @alone c s j v hs hv =>
    refine ⟨c, [], rfl, (Mark.ne_lineBreak_of_beforeEquals? hs).2, ?_⟩
    rw [readLexeme_of_other (CharClass.of_beforeEquals? hs)]
    exact Mark.reads_read_alone hs hv start
  | @joined c a j v hs =>
    refine ⟨c, ['='], rfl, (Mark.ne_lineBreak_of_beforeEquals? hs).2, ?_⟩
    rw [readLexeme_of_other (CharClass.of_beforeEquals? hs)]
    exact Mark.reads_read_joined hs start v

end Lexis
