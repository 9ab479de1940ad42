import Lexis.Proofs.Scan.Displaced

/-!
# Blank texts

A text of blanks and complete comments leaves no trace when it is put in front
of another text: what the scanner makes of the other text is the same, and stands
where it now stands.  Nothing in the body of a comment matters, be it a quote, the
opener of another comment, a star or the end mark.

* `BlankPiece`, `Blank`: blanks and complete comments as they are written;
* `BlankPiece.gaps`, `Blank.gaps`: folded, they are gaps in front of every text;
* `Blank.folded_append`: they part no line ending;
* `tokenize_blank_append`: they are elided.
-/

namespace Lexis

variable {body g p l m : List Char}

/-! ### Bodies of comments -/

/-- Within a line only a stray carriage return is a carriage return. -/
lemma noReturn_of_line (hline : '\n' ∉ body) (hclean : ¬HasStrayReturn body) : '\r' ∉ body := by
  rwa [hasStrayReturn_iff, folded_of_noLineFeed hline] at hclean

/-! ### Blanks and comments as they are written -/

/-- The end of a line as it may be written. -/
def IsLineEnding (l : List Char) : Prop := l = ['\n'] ∨ l = ['\r', '\n']

/-- A blank or a complete comment, as it is written. -/
inductive BlankPiece : List Char → Prop
  /-- A space or a tab. -/
  | blank {c : Char} (hc : c = ' ' ∨ c = '\t') : BlankPiece [c]
  /-- The end of a line. -/
  | lineEnding {e : List Char} (he : IsLineEnding e) : BlankPiece e
  /-- A line comment with the end of its line. -/
  | lineComment {body e : List Char} (hline : '\n' ∉ body) (hclean : ¬HasStrayReturn body)
      (he : IsLineEnding e) : BlankPiece ('/' :: '/' :: (body ++ e))
  /-- A block comment up to its first closing mark. -/
  | blockComment {body : List Char} (hbody : Gap.Unclosed body) (hclean : ¬HasStrayReturn body) :
    BlankPiece ('/' :: '*' :: (body ++ ['*', '/']))

/-- Any number of blanks and complete comments. -/
inductive Blank : List Char → Prop
  /-- None. -/
  | nil : Blank []
  /-- One and more of them. -/
  | cons {p g : List Char} (hp : BlankPiece p) (hg : Blank g) : Blank (p ++ g)

lemma IsLineEnding.folded_eq (h : IsLineEnding l) : folded l = ['\n'] := by
  rcases h with rfl | rfl <;> rfl

lemma IsLineEnding.getLast?_eq (h : IsLineEnding l) : l.getLast? = some '\n' := by
  rcases h with rfl | rfl <;> rfl

/-- Behind a text without carriage returns a line ending is folded alone. -/
lemma IsLineEnding.folded_append (h : IsLineEnding l) (hbody : '\r' ∉ body) :
    folded (body ++ l) = body ++ ['\n'] := by
  have hlast : body.getLast? ≠ some '\r' := fun hlast => hbody (List.mem_of_getLast? hlast)
  rw [Lexis.folded_append fun hr => absurd hr hlast, h.folded_eq, folded_of_noReturn hbody]

/-- A block comment is folded within its body. -/
lemma folded_blockComment (body : List Char) :
    folded ('/' :: '*' :: (body ++ ['*', '/'])) = '/' :: '*' :: (folded body ++ ['*', '/']) := by
  rw [folded_cons_of_ne (by decide), folded_cons_of_ne (by decide), folded_append (by simp)]
  rfl

namespace BlankPiece

/-- A blank or comment does not end in the midst of a line ending. -/
lemma getLast?_ne (h : BlankPiece p) : p.getLast? ≠ some '\r' := by
  cases h with
  | blank hc => rcases hc with rfl | rfl <;> simp
  | lineEnding he => simp [he.getLast?_eq]
  | lineComment _ _ he => simp [List.getLast?_cons, List.getLast?_append, he.getLast?_eq]
  | blockComment => simp [List.getLast?_cons, List.getLast?_append]

/-- A blank or comment, folded, is a gap in front of every text, and no stray
carriage return stands in it. -/
theorem gaps (h : BlankPiece p) (v : List Char) : Gaps (folded p) v ∧ '\r' ∉ folded p := by
  have hbreak : ∀ v, Gaps ['\n'] v := fun v => .of_piece (.blank (by simp))
  cases h with
  | @blank c hc =>
    have hfolded : folded [c] = [c] := by rcases hc with rfl | rfl <;> rfl
    rw [hfolded]
    refine ⟨.of_piece (.blank (by tauto)), ?_⟩
    rcases hc with rfl | rfl <;> simp
  | lineEnding he =>
    rw [he.folded_eq]
    exact ⟨hbreak v, by simp⟩
  | @lineComment body e hline hclean he =>
    have hbody := noReturn_of_line hline hclean
    have hfolded : folded ('/' :: '/' :: (body ++ e)) = ('/' :: '/' :: body) ++ ['\n'] := by
      rw [folded_cons_of_ne (by decide), folded_cons_of_ne (by decide), he.folded_append hbody]
      rfl
    rw [hfolded]
    -- the comment leaves the end of its line to the blanks
    exact ⟨.append (.of_piece (.lineComment hline (by simp))) (hbreak v), by simpa using hbody⟩
  | @blockComment body hbody hclean =>
    rw [folded_blockComment]
    rw [hasStrayReturn_iff] at hclean
    exact ⟨.of_piece (.blockComment (Gap.unclosed_folded_iff.mpr hbody)), by simpa using hclean⟩

end BlankPiece

namespace Blank

/-- Blanks and comments part no line ending from what follows them. -/
theorem folded_append (h : Blank g) (w : List Char) : folded (g ++ w) = folded g ++ folded w := by
  induction h with
  | nil => rfl
  | @cons p g hp hg ih =>
    have hcut : ∀ w, folded (p ++ w) = folded p ++ folded w :=
      fun w => Lexis.folded_append fun hlast => absurd hlast hp.getLast?_ne
    rw [List.append_assoc, hcut, ih, hcut, List.append_assoc]

/-- Blanks and comments, folded, are gaps in front of every text, and no stray
carriage return stands in them. -/
theorem gaps (h : Blank g) (v : List Char) : Gaps (folded g) v ∧ '\r' ∉ folded g := by
  induction h with
  | nil => exact ⟨.nil, by simp⟩
  | @cons p g hp hg ih =>
    have hcut : folded (p ++ g) = folded p ++ folded g :=
      Lexis.folded_append fun hlast => absurd hlast hp.getLast?_ne
    obtain ⟨hpiece, hclean⟩ := hp.gaps (folded g ++ v)
    rw [hcut]
    exact ⟨hpiece.append ih.1, by simp [hclean, ih.2]⟩

end Blank

/-! ### Elision -/

/-- A passage behind a blank text. -/
lemma Passes.behind_blank {u r : List Char} {ts : List Token} (h : Passes .start u r ts)
    (hg : Blank g) (hcarries : Position.Carries (Position.behind g) .start (u ++ r)) :
    Passes .start (folded g ++ u) r (ts.map (·.displaced (Position.behind g))) := by
  have hstart : Position.start.behind g = Position.start.through (folded g) := by
    rw [Position.behind_start, Position.through_folded, Position.through_start]
  refine .of_gaps (hg.gaps (u ++ r)).1 ?_
  rw [← hstart]
  exact h.displaced hcarries

/-- **Blank texts** are elided.  Behind blanks and complete comments a text has
the tokens or the fault that it has alone, and they stand behind the blank
text.  Lines are counted in 32 bits: of the texts of fewer than `2 ^ 32` characters
only that of `2 ^ 32 - 1` line feeds has so many that the count begins again at
zero. -/
theorem tokenize_blank_append {g q : String} (hg : Blank g.toList)
    (hlen : (g ++ q).length < UInt32.size) :
    tokenize (g ++ q) = match tokenize q with
      | .ok us => .ok (us.map (·.displaced (Position.behind g.toList)))
      | .error f => .error (f.displaced (Position.behind g.toList)) := by
  have hcarries : Position.Carries (Position.behind g.toList) .start (folded q.toList) := by
    refine Position.carries_behind g.toList ?_
    have hfolded := length_folded_le q.toList
    rw [String.length_append, ← String.length_toList, ← String.length_toList] at hlen
    omega
  obtain ⟨u, r, ts, hq, hclean, hpass, hend⟩ := exists_passage .start (folded q.toList)
  rw [hq] at hcarries
  have hw : folded (g ++ q).toList = folded g.toList ++ u ++ r := by
    rw [String.toList_append, hg.folded_append, hq, List.append_assoc]
  have hpass' := hpass.behind_blank hg hcarries
  have hplace := Position.through_folded_append hcarries
  have hclean' : '\r' ∉ folded g.toList ++ u := by simp [(hg.gaps u).2, hclean]
  rcases hend with rfl | ⟨f, hf⟩
  · -- the text behind the blank one has tokens, and with them its end is displaced
    rw [List.append_nil] at hq hw
    rw [Position.through_start, Position.through_start, ← hw, ← hq] at hplace
    rw [← hq] at hclean hpass
    rw [← hw] at hclean' hpass'
    rw [tokenize_of_passes hclean hpass, tokenize_of_passes hclean' hpass', hplace]
    simp only [List.map_append]
    rfl
  · -- the text behind the blank one has a fault
    have hf' := hf.displaced hcarries.drop
    rw [← hplace] at hf'
    rw [tokenize_of_faulty hq hclean hpass hf, tokenize_of_faulty hw hclean' hpass' hf']

/-- A comment of one star between an exclamation mark and the start of its
line. -/
theorem tokenize_blank_append_star :
    Blank "\n/***/".toList ∧ ("\n/***/" ++ "!").length < UInt32.size
      ∧ tokenize "!" = .error ⟨.missingCharacter "'='" '!', ⟨1, 1⟩⟩
      ∧ tokenize ("\n/***/" ++ "!") = .error ⟨.missingCharacter "'='" '!', ⟨2, 6⟩⟩ := by
  have hbody : Gap.Unclosed ['*'] := Gap.unclosed_cons.mpr ⟨by simp, Gap.unclosed_nil⟩
  have hclean : ¬HasStrayReturn ['*'] := by
    rw [hasStrayReturn_iff]
    decide
  have hcomment : BlankPiece "/***/".toList := .blockComment hbody hclean
  have hg : Blank "\n/***/".toList := .cons (.lineEnding (Or.inl rfl)) (.cons hcomment .nil)
  have hlen : ("\n/***/" ++ "!").length < UInt32.size := by decide
  have hmark : Faulty .start ['!'] ⟨.missingCharacter "'='" '!', ⟨1, 1⟩⟩ :=
    .missingEquals (by simp) (by simp)
  have hq : tokenize "!" = .error ⟨.missingCharacter "'='" '!', ⟨1, 1⟩⟩ :=
    tokenize_of_faulty (u := []) rfl (by simp) (.gap .nil) hmark
  refine ⟨hg, hlen, hq, ?_⟩
  rw [tokenize_blank_append hg hlen, hq]
  rfl

end Lexis
