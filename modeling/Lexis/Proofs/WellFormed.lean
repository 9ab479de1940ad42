import Lexis.Proofs.Positions
import Lexis.Proofs.Scan.Session
import Lexis.Proofs.Scan.Yield

/-!
# Tokens that are well formed

Whatever a scanner went through, faults in the middle of a lexeme included, after
which its window may show a character that it has seen before: every token that it
takes from its text is well formed.  It carries what belongs to its kind and nothing
else, a word is the one that the window showed, and it stands on a line and in a
column of the text.

* `Token.WellFormed`: what a token of a text carries;
* `Yielded.wellFormed`, `Yielded.collects_spelling`: every lexeme is read as such a token,
  and a keyword where the window shows its spelling;
* `Cursor.Standing`: where a character in the window stands;
* `Scanner.standing_afterSteps`: the scanner stands in the text that it was given
  last;
* `Scanner.next_wellFormed`: all of it together;
* `tokenize_lineBreaks`: a text of nothing but line breaks, however many, among which is
  the one that has no line for its end.
-/

namespace Lexis

open CursorM

variable {c c' : Cursor} {t : Token} {start : Position} {text : List Char}

/-! ### What a token carries -/

/-- A word that is not reserved. -/
def IsName (word : String) : Prop :=
  (∃ x l, word.toList = x :: l ∧ isWordStart x ∧ ∀ y ∈ l, isWordChar y)
    ∧ Keyword.ofSpelling? word = none

/-- A token carries what belongs to its kind, and nothing else. -/
structure Token.WellFormed (t : Token) : Prop where
  /-- Words that are not reserved and quoted texts have characters. -/
  text_eq : t.kind ≠ .identifier → t.kind ≠ .string → t.text = ""
  /-- Whole numbers have a whole value. -/
  intValue_eq : t.kind ≠ .integer → t.intValue = 0
  /-- The other numbers have a value of their own. -/
  floatValue_eq : t.kind ≠ .float → t.floatValue = 0
  /-- The symbols that are kept for later use are in no text. -/
  kind_ne : t.kind ≠ .symbol .arrow ∧ t.kind ≠ .symbol .dollar
  /-- The characters of a word make up a name. -/
  name : t.kind = .identifier → IsName t.text
  /-- A quote in a quoted text stands directly behind a backslash. -/
  quotes : t.kind = .string → Quoted.QuotesEscaped t.text.toList
  /-- A whole number has no sign. -/
  nonneg : 0 ≤ t.intValue

/-- A token that means no more than its kind. -/
lemma Token.wellFormed_bare (kind : Kind) (hname : kind ≠ .identifier)
    (hsymbol : ∀ m, kind = .symbol m → m.isReserved = false) (p : Position) :
    (Token.bare kind p).WellFormed where
  text_eq _ _ := rfl
  intValue_eq _ := rfl
  floatValue_eq _ := rfl
  kind_ne := ⟨fun h => absurd (hsymbol _ h) (by decide), fun h => absurd (hsymbol _ h) (by decide)⟩
  name h := absurd h hname
  quotes _ := Quoted.quotesEscaped_nil
  nonneg := Int64.le_refl 0

lemma Token.wellFormed_identifier {word : String} (h : IsName word) (p : Position) :
    (Token.identifier word p).WellFormed where
  text_eq h' := absurd rfl h'
  intValue_eq _ := rfl
  floatValue_eq _ := rfl
  kind_ne := ⟨nofun, nofun⟩
  name _ := h
  quotes := nofun
  nonneg := Int64.le_refl 0

lemma Token.wellFormed_string {text : String} (h : Quoted.QuotesEscaped text.toList)
    (p : Position) : (Token.string text p).WellFormed where
  text_eq _ h' := absurd rfl h'
  intValue_eq _ := rfl
  floatValue_eq _ := rfl
  kind_ne := ⟨nofun, nofun⟩
  name := nofun
  quotes _ := h
  nonneg := Int64.le_refl 0

lemma Token.wellFormed_integer {n : Nat} (h : n ≤ maxInteger) (p : Position) :
    (Token.integer (Int64.ofNat n) p).WellFormed where
  text_eq _ _ := rfl
  intValue_eq h' := absurd rfl h'
  floatValue_eq _ := rfl
  kind_ne := ⟨nofun, nofun⟩
  name := nofun
  quotes := nofun
  nonneg := by
    rw [Token.integer, Int64.le_iff_toInt_le, Numeral.toInt_ofNat_of_le h]
    exact Int.natCast_nonneg n

lemma Token.wellFormed_float (x : Float) (p : Position) : (Token.float x p).WellFormed where
  text_eq _ _ := rfl
  intValue_eq _ := rfl
  floatValue_eq h := absurd rfl h
  kind_ne := ⟨nofun, nofun⟩
  name := nofun
  quotes := nofun
  nonneg := Int64.le_refl 0

/-- A word amounts to its keyword or to a name. -/
lemma Word.wellFormed_token {x : Char} {l : List Char} (hx : isWordStart x)
    (hl : ∀ y ∈ l, isWordChar y) (p : Position) :
    (Word.token (String.ofList (x :: l)) p).WellFormed := by
  unfold Word.token
  split
  next k hk => exact Token.wellFormed_bare (.keyword k) nofun nofun p
  next hk => exact Token.wellFormed_identifier ⟨⟨x, l, by simp, hx, hl⟩, hk⟩ p

/-- **A lexeme** is read as a token that is well formed. -/
theorem Yielded.wellFormed (h : Yielded start c c' t) : t.WellFormed := by
  cases h with
  | word hx h => exact Word.wellFormed_token hx (fun y hy => h.isWordChar y (by simp [hy])) start
  | integer h => exact Token.wellFormed_integer h start
  | float x => exact Token.wellFormed_float x start
  | string h => exact Token.wellFormed_string h start
  | @symbol m h =>
    refine Token.wellFormed_bare (.symbol m) nofun (fun m' hm => ?_) start
    obtain rfl : m = m' := by simpa using hm
    exact h

/-- A keyword is read where the window shows its spelling. -/
theorem Yielded.collects_spelling {k : Keyword} (h : Yielded start c c' t)
    (hk : t.kind = .keyword k) : Word.Collects c k.spelling.toList c' := by
  cases h with
  | @word x l hx h =>
    unfold Word.token at hk
    split at hk
    next k' hk' =>
      obtain rfl : k' = k := by simpa [Token.bare] using hk
      rwa [Keyword.ofSpelling?_eq_some_iff.mp hk', String.toList_ofList]
    next => cases hk
  | integer | float | string | symbol => cases hk

/-- It starts where it is told to. -/
lemma Yielded.position_eq (h : Yielded start c c' t) : t.position = start := by
  cases h with
  | word =>
    unfold Word.token
    split <;> rfl
  | integer | float | string | symbol => rfl

/-! ### Where a token stands -/

/-- The position counts out what was taken, and if there is a character in the
window, then it is behind one that ends no line. -/
def Cursor.Standing (text : List Char) (c : Cursor) : Prop :=
  ∃ taken, text = taken ++ c.rest ∧ c.position = .after taken
    ∧ ∀ x, c.glyph? = some (.char x) → ∃ a y, taken = a ++ [y] ∧ y ≠ '\n'

lemma Cursor.Standing.placed (h : c.Standing text) : c.Placed text := by
  obtain ⟨taken, htext, hplace, -⟩ := h
  exact ⟨taken, htext, hplace⟩

/-- A move of the window brings the cursor to stand. -/
lemma Cursor.Placed.standing (h : c.Placed text) :
    (stateAfter (CursorM.advance c)).Standing text := by
  obtain ⟨taken, htext, hplace⟩ := h
  obtain ⟨ahead, o⟩ := c
  cases ahead with
  | ended => exact ⟨taken, htext, hplace, by simp [CursorM.advance, stateAfter, glyph?]⟩
  | shows g rest =>
    obtain ⟨more, hrest, hmove, hlast⟩ := exists_taken g rest o
    refine ⟨taken ++ more, ?_, ?_, fun x hx => ?_⟩
    · rw [List.append_assoc, ← hrest]
      exact htext
    · rw [hmove, Position.after_append]
      exact congrArg (Position.through · more) hplace
    · obtain ⟨a, y, rfl, hy⟩ := hlast x hx
      exact ⟨taken ++ a, y, by simp, hy⟩

/-- It stands after all further moves. -/
theorem Cursor.Standing.onward (h : c.Standing text) (hmoves : Onward c c') :
    c'.Standing text := by
  induction hmoves with
  | refl => exact h
  | move _ ih => exact ih.placed.standing

/-- A character in the window has a line and a column. -/
theorem Cursor.Standing.counted {x : Char} (h : c.Standing text)
    (hlen : text.length < UInt32.size) (hx : c.glyph? = some (.char x)) :
    1 ≤ c.position.line ∧ 1 ≤ c.position.column := by
  obtain ⟨taken, htext, hplace, hlast⟩ := h
  obtain ⟨a, y, rfl, hy⟩ := hlast x hx
  have hlines : a.count '\n' ≤ a.length := List.count_le_length
  have hcolumns := Position.length_rtakeWhile_le a
  rw [htext, List.length_append, List.length_append, List.length_singleton] at hlen
  rw [hplace, Position.after_append_of_ne hy, Position.first_eq]
  constructor
  · rw [UInt32.le_iff_toNat_le, UInt32.toNat_ofNat_of_lt' (by omega)]
    exact Nat.le_add_right 1 _
  · rw [UInt32.le_iff_toNat_le, UInt32.toNat_ofNat_of_lt' (by omega)]
    exact Nat.le_add_left 1 _

/-- Every place of a text has a line, but the end of the text whose line breaks are
too many to be counted. -/
theorem Cursor.Standing.line (h : c.Standing text) (hlen : text.length < UInt32.size) :
    1 ≤ c.position.line ∨ text = List.replicate (UInt32.size - 1) '\n' := by
  obtain ⟨taken, htext, hplace, -⟩ := h
  have hlines : taken.count '\n' ≤ taken.length := List.count_le_length
  rw [htext, List.length_append] at hlen
  by_cases hlt : 1 + taken.count '\n' < UInt32.size
  · left
    rw [hplace, Position.after, UInt32.le_iff_toNat_le, UInt32.toNat_ofNat_of_lt' hlt]
    exact Nat.le_add_right 1 _
  · -- then there is no room for anything but line breaks, and they have all been taken
    right
    have hall : taken.count '\n' = taken.length := by omega
    have hrest : c.rest = [] := List.length_eq_zero_iff.mp (by omega)
    have htaken : taken.length = UInt32.size - 1 := by omega
    rw [htext, hrest, List.append_nil, ← htaken]
    exact List.eq_replicate_of_mem fun y hy => (List.count_eq_length.mp hall y hy).symm

namespace Scanner

variable {ρ : Type} {s s' : Scanner} {steps : List (Step ρ)}

/-- **The scanner stands** in the empty text or in one that it was given. -/
theorem standing_afterSteps (steps : List (Step ρ)) :
    ∃ text : String, (text = "" ∨ ∃ step ∈ steps, step.text? = some text)
      ∧ (new.afterSteps steps).cursor.Standing text.toList := by
  have hload (text : String) (s : Scanner) :
      (stateAfter (load text s)).cursor.Standing text.toList := by
    have hbefore : (Cursor.before text.toList).Placed text.toList := ⟨[], rfl, rfl⟩
    rw [load, ScanM.cursor_onCursor]
    exact hbefore.standing
  let P (s : Scanner) : Prop := ∃ text : String,
    (text = "" ∨ ∃ step ∈ steps, step.text? = some text) ∧ s.cursor.Standing text.toList
  refine afterSteps_induction (P := P) ?_ fun step hmem s hs => ?_
  · exact ⟨"", Or.inl rfl, [], rfl, rfl, by simp [new, Cursor.empty, Cursor.glyph?]⟩
  cases step with
  | load text => exact ⟨text, Or.inr ⟨_, hmem, rfl⟩, hload text s⟩
  | call k =>
    obtain ⟨text, htext, hstanding⟩ := hs
    exact ⟨text, htext, hstanding.onward (k.onward_run s)⟩
  | loadFile contents =>
    cases contents with
    | error failure => exact hs
    | ok text =>
      refine ⟨text, Or.inr ⟨_, hmem, rfl⟩, ?_⟩
      rw [Step.run, stateAfter_loadFile]
      exact hload text s

/-- **Tokens that are well formed.**  After any steps with texts of fewer characters
than can be counted, a token that is taken from the text and not from the tokens that
were given back is well formed.  If it is a keyword, then the window has shown the
spelling of this keyword behind the gap, one character after the other.  It stands on
a line and, unless it is the end of the text, in a column; only the end of a text of
line breaks which are too many to be counted has no line. -/
theorem next_wellFormed {steps : List (Step ρ)}
    (hlen : ∀ step ∈ steps, ∀ text ∈ step.text?, text.length < UInt32.size)
    (hpending : (new.afterSteps steps).pending = [])
    (h : next (new.afterSteps steps) = .ok t s') :
    t.WellFormed
      ∧ (∀ k, t.kind = .keyword k → ∃ u, skipGaps (new.afterSteps steps) = .ok () u
        ∧ Word.Collects u.cursor k.spelling.toList s'.cursor)
      ∧ (t.kind ≠ .endOfText → 1 ≤ t.position.line ∧ 1 ≤ t.position.column)
      ∧ (1 ≤ t.position.line ∨ t.kind = .endOfText ∧ ∃ step ∈ steps,
        step.text? = some (String.ofList (List.replicate (UInt32.size - 1) '\n'))) := by
  obtain ⟨text, htext, hstands⟩ := standing_afterSteps steps
  have hlen' : text.toList.length < UInt32.size := by
    rw [String.length_toList]
    rcases htext with rfl | ⟨step, hmem, htext⟩
    · decide
    · exact hlen step hmem text htext
  obtain ⟨u, hskip, hu⟩ := exists_of_next hpending h
  have hstands' : u.cursor.Standing text.toList := by
    have hmoves := (steady_skipGaps (new.afterSteps steps)).1
    rw [hskip] at hmoves
    exact hstands.onward hmoves
  rcases hu with ⟨-, rfl⟩ | ⟨x, hx, hread⟩
  · refine ⟨Token.wellFormed_bare .endOfText nofun nofun _, nofun, fun hne => absurd rfl hne, ?_⟩
    refine (hstands'.line hlen').imp_right fun hbreaks => ⟨rfl, ?_⟩
    rw [← hbreaks, String.ofList_toList]
    -- the empty text has no line breaks
    refine htext.resolve_left fun hempty => ?_
    have hlength := congrArg List.length hbreaks
    rw [hempty, List.length_replicate] at hlength
    exact absurd hlength (by decide)
  · have hyielded := yielded_of_readLexeme (by simp [Cursor.shown?, hx, Glyph.shown]) hread
    have hcounted := hstands'.counted hlen' hx
    rw [← hyielded.position_eq] at hcounted
    exact ⟨hyielded.wellFormed, fun k hk => ⟨u, hskip, hyielded.collects_spelling hk⟩,
      fun _ => hcounted, Or.inl hcounted.1⟩

/-- A word whose reading ended in a stray carriage return, and the keyword that the
window then shows across it. -/
theorem next_wellFormed_stale :
    let steps : List (Step Empty) := [.load "i\rxf", .call .next]
    let s := new.afterSteps steps
    let s' := stateAfter (next s)
    next s = .ok (.bare (.keyword .ifWord) ⟨1, 3⟩) s'
      ∧ ∃ u, skipGaps s = .ok () u ∧ Word.Collects u.cursor ['i', 'f'] s'.cursor := by
  intro steps s s'
  have hnext : next s = .ok (.bare (.keyword .ifWord) ⟨1, 3⟩) s' :=
    eq_ok_of_answer (by decide +kernel)
  have hlen : ∀ step ∈ steps, ∀ text ∈ step.text?, text.length < UInt32.size := by
    have hshort : "i\rxf".length < UInt32.size := by decide
    simpa [steps, Step.text?] using hshort
  obtain ⟨-, hword, -⟩ := next_wellFormed hlen (by decide +kernel) hnext
  exact ⟨hnext, hword .ifWord rfl⟩

end Scanner

/-! ### Line breaks that are too many to be counted -/

lemma Position.after_lineBreaks (n : Nat) :
    after (List.replicate n '\n') = ⟨UInt32.ofNat (1 + n), 0⟩ := by
  induction n with
  | zero => rfl
  | succ n ih =>
    rw [List.replicate_succ', after_append_lineFeed, ih, ← Nat.add_assoc,
      UInt32.ofNat_add (1 + n) 1]
    rfl

lemma gaps_lineBreaks (n : Nat) : Gaps (List.replicate n '\n') [] := by
  induction n with
  | zero => exact .nil
  | succ n ih =>
    have hbreak : Gaps ['\n'] (List.replicate n '\n' ++ []) := .of_piece (.blank (by simp))
    exact hbreak.append ih

/-- Of a text of line breaks there is its end only; beyond the largest line the lines
are counted from zero again.  With `UInt32.size - 1` line breaks the end stands in line
zero: this is the exception in `Scanner.next_wellFormed`. -/
theorem tokenize_lineBreaks (n : Nat) :
    tokenize (String.ofList (List.replicate n '\n'))
      = .ok [.endOfText ⟨UInt32.ofNat (1 + n), 0⟩] := by
  have hclean : '\r' ∉ List.replicate n '\n' := by simp
  have hfolded : folded (String.ofList (List.replicate n '\n')).toList = List.replicate n '\n' := by
    rw [String.toList_ofList, folded_of_noReturn hclean]
  have hpass : Passes .start (folded (String.ofList (List.replicate n '\n')).toList) [] [] := by
    rw [hfolded]
    exact .gap (gaps_lineBreaks n)
  rw [tokenize_of_passes (by rwa [hfolded]) hpass, hfolded, Position.after_lineBreaks]
  rfl

end Lexis
