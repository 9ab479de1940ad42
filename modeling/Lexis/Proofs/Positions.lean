import Lexis.Proofs.Scan.Call
import Lexis.Proofs.Scan.Passage

/-!
# Positions

The position of a scanner counts out what it has taken from its text, whatever
was asked of it and however that ended.  The tokens of a text stand at their
first characters, in the order of the text, and its end does not stand before
them.

* `Cursor.Placed`: the position counts out what was taken;
* `Cursor.Placed.advance`, `Cursor.Placed.onward`: a move of the window keeps to
  that, and so do all moves together;
* `Passes.stands`, `Passes.pairwise`: where the tokens of a passage stand;
* `positions_counted_out`: scanners and tokens stand where the text says.
-/

namespace Lexis

open CursorM

variable {text b l v u r : List Char} {token : Position → Token} {ts : List Token}

/-! ### What was taken -/

/-- The text is what was taken and what is behind the window, and the position
counts out what was taken. -/
def Cursor.Placed (text : List Char) (c : Cursor) : Prop :=
  ∃ taken, text = taken ++ c.rest ∧ c.position = .after taken

/-- A move of the window takes what it moves over: one character, a line ending,
or a stray carriage return and the character after it.  If the window then shows a
character, what was taken does not end a line. -/
lemma exists_taken (g : Glyph) (rest : List Char) (o : Position) :
    let c := stateAfter (advance ⟨.shows g rest, o⟩)
    ∃ taken, rest = taken ++ c.rest ∧ c.position = o.through taken
      ∧ ∀ x, c.glyph? = some (.char x) → ∃ a y, taken = a ++ [y] ∧ y ≠ '\n' := by
  simp only [advance]
  fun_cases Pull.of rest with
  | case1 => exact ⟨[], rfl, rfl, by simp [stateAfter, Cursor.glyph?]⟩
  | case2 rest => exact ⟨['\n'], rfl, rfl, by simp [stateAfter, Cursor.glyph?]⟩
  | case3 rest => exact ⟨['\r', '\n'], rfl, rfl, by simp [stateAfter, Cursor.glyph?]⟩
  | case4 x rest hx =>
    have hplace : o.through ['\r', x] = o.right 2 := by
      rw [Position.through_cons, Position.through_cons, Position.through_nil,
        Position.past_of_ne hx, Position.past_of_ne (c := '\r') (by decide)]
      simp only [Position.right, UInt32.add_assoc]
      rfl
    exact ⟨['\r', x], rfl, hplace.symm, fun _ _ => ⟨['\r'], x, rfl, hx⟩⟩
  | case5 => exact ⟨['\r'], rfl, rfl, fun _ _ => ⟨[], '\r', rfl, by decide⟩⟩
  | case6 x rest hx =>
    exact ⟨[x], rfl, (Position.past_of_ne hx o).symm, fun _ _ => ⟨[], x, rfl, hx⟩⟩

/-- A move of the window keeps the position counting out what was taken. -/
theorem Cursor.Placed.advance {c : Cursor} (h : c.Placed text) :
    (stateAfter (advance c)).Placed text := by
  obtain ⟨taken, htext, hplace⟩ := h
  obtain ⟨ahead, o⟩ := c
  cases ahead with
  | ended => exact ⟨taken, htext, hplace⟩
  | shows g rest =>
    obtain ⟨more, hrest, hmove, -⟩ := exists_taken g rest o
    refine ⟨taken ++ more, ?_, ?_⟩
    · rw [List.append_assoc, ← hrest]
      exact htext
    · rw [hmove, Position.after_append]
      exact congrArg (Position.through · more) hplace

/-- So do all moves together. -/
theorem Cursor.Placed.onward {c c' : Cursor} (h : c.Placed text) (hmoves : Onward c c') :
    c'.Placed text := by
  induction hmoves with
  | refl => exact h
  | move _ ih => exact ih.advance

/-! ### Where tokens stand -/

/-- The token of a lexeme of the text `w` behind the text `b`, at its first
character. -/
def Stands (b w : List Char) (t : Token) : Prop :=
  ∃ g l v token, w = g ++ (l ++ v) ∧ Lexeme l v token
    ∧ t = token ((Position.after (b ++ g)).right 1)

/-- The tokens of a passage stand at their lexemes. -/
theorem Passes.stands {o : Position} (h : Passes o u r ts) (ho : o = .after b) :
    ∀ t ∈ ts, Stands b (u ++ r) t := by
  induction h generalizing b with
  | gap => simp
  | @token o g l u r token ts hg hl hv h ih =>
    subst ho
    have hplace : ((Position.after b).through g).through l = .after (b ++ (g ++ l)) :=
      (Position.after_append_append b g l).symm
    intro t ht
    rcases List.mem_cons.mp ht with rfl | ht
    · exact ⟨g, l, u ++ r, token, by simp, hl, by rw [Position.after_append]⟩
    · obtain ⟨g', l', v', token', hw, hl', rfl⟩ := ih hplace t ht
      exact ⟨g ++ l ++ g', l', v', token', by simp [hw], hl', by simp⟩

/-- The tokens of a passage stand in the order of the text. -/
theorem Passes.pairwise {o : Position} (h : Passes o u r ts) (ho : o = .after b)
    (hlen : (b ++ (u ++ r)).length < UInt32.size) :
    ts.Pairwise fun t t' => t.position < t'.position := by
  induction h generalizing b with
  | gap => exact .nil
  | @token o g l u r token ts hg hl hv h ih =>
    subst ho
    have hplace : ((Position.after b).through g).through l = .after (b ++ (g ++ l)) :=
      (Position.after_append_append b g l).symm
    refine .cons (fun t ht => ?_) (ih hplace (by simpa using hlen))
    obtain ⟨g', l', v', token', hw, hl', rfl⟩ := h.stands hplace t ht
    -- a later token stands behind this lexeme, with a lexeme of its own behind it
    have hlen' : (b ++ g ++ (l ++ g')).length + 1 < UInt32.size := by
      have hl₀ := List.length_pos_iff.mpr hl'.ne_nil
      simp only [List.append_assoc, List.length_append, hw] at hlen ⊢
      omega
    have hlt := Position.first_lt (by simp [hl.ne_nil]) hlen'
    rw [hl.position_eq, hl'.position_eq, ← Position.after_append]
    simpa using hlt

/-- The end of a text does not stand before a token. -/
lemma Stands.not_after_lt {w : List Char} {t : Token} (h : Stands [] w t) (hclean : '\r' ∉ w)
    (hlen : w.length < UInt32.size) : ¬Position.after w < t.position := by
  obtain ⟨g, l, v, token, rfl, hl, rfl⟩ := h
  obtain ⟨x, l', rfl, hx, -⟩ := hl.reads (fun hmem => hclean (by simp [hmem])) .start
  rw [hl.position_eq, List.nil_append, List.cons_append]
  exact Position.not_after_lt hx hlen

/-- **Positions.**  A scanner stands behind what it has taken from its text,
whatever calls led to it.  If the text has tokens, then they are those of its
lexemes, every one stands at the first character of its lexeme, they stand in the
order of the text, and the end of the text stands behind its last character and
before none of them.  Lines are counted in 32 bits: of the texts of fewer than
`2 ^ 32` characters only that of `2 ^ 32 - 1` line feeds has more of them than can
be counted, and stands in line zero at its end. -/
theorem positions_counted_out (text : String) :
    (∀ s, Scanner.Reaches text s → s.cursor.Placed text.toList)
      ∧ (text.length < UInt32.size → ∀ us, tokenize text = .ok us →
        ∃ ts, us = ts ++ [.endOfText (.after text.toList)]
          ∧ Passes .start (folded text.toList) [] ts
          ∧ (∀ t ∈ ts, ∃ b l v token, text.toList = b ++ (l ++ v)
            ∧ Lexeme (folded l) (folded v) token ∧ t = token ((Position.after b).right 1))
          ∧ (ts.Pairwise fun t t' => t.position < t'.position)
          ∧ ∀ t ∈ ts, ¬Position.after text.toList < t.position) := by
  constructor
  · intro s hs
    exact Cursor.Placed.onward ⟨[], rfl, rfl⟩ hs.onward
  · intro hlen us htokens
    obtain ⟨hclean, ts, hpass, rfl⟩ := passes_of_tokenize htokens
    have hlen' : (folded text.toList).length < UInt32.size :=
      calc
        (folded text.toList).length ≤ text.toList.length := length_folded_le text.toList
        _ = text.length := String.length_toList
        _ < UInt32.size := hlen
    have hstands := hpass.stands (b := []) rfl
    rw [List.append_nil] at hstands
    refine ⟨ts, by rw [Position.after_folded], hpass, fun t ht => ?_, ?_, fun t ht => ?_⟩
    · obtain ⟨g, l, v, token, hw, hl, rfl⟩ := hstands t ht
      obtain ⟨b, w, htext, rfl, hw'⟩ := exists_of_folded_eq_append hw
      obtain ⟨l, v, rfl, rfl, rfl⟩ := exists_of_folded_eq_append hw'
      exact ⟨b, l, v, token, htext, hl, by rw [List.nil_append, Position.after_folded]⟩
    · exact hpass.pairwise (b := []) rfl (by simpa using hlen')
    · rw [← Position.after_folded]
      exact (hstands t ht).not_after_lt hclean hlen'

/-- A text of one word: its scanner, and its tokens. -/
theorem positions_counted_out_word :
    (stateAfter (Scanner.load "a" .new)).cursor.Placed ['a']
      ∧ tokenize "a" = .ok ([.identifier "a" ⟨1, 1⟩] ++ [.endOfText ⟨1, 1⟩])
      ∧ ∃ ts, [Token.identifier "a" ⟨1, 1⟩] ++ [.endOfText ⟨1, 1⟩]
          = ts ++ [.endOfText (.after ['a'])]
        ∧ (ts.Pairwise fun t t' => t.position < t'.position)
        ∧ ∀ t ∈ ts, ¬Position.after ['a'] < t.position := by
  have hword : Lexeme ['a'] [] (Token.identifier "a") :=
    .identifier (by decide) (by simp) (by simp) (by decide)
  have htokens : tokenize "a" = .ok ([.identifier "a" ⟨1, 1⟩] ++ [.endOfText ⟨1, 1⟩]) :=
    tokenize_of_lexeme (by decide) hword
  obtain ⟨hreached, htext⟩ := positions_counted_out "a"
  obtain ⟨ts, hts, -, -, hpairwise, hend⟩ := htext (by decide) _ htokens
  exact ⟨hreached _ (.load .new), htokens, ts, hts, hpairwise, hend⟩

end Lexis
