import Lexis.Proofs.Scan.InStep
import Lexis.Proofs.Scan.Passage

/-!
# Line breaks as spaces

To nothing but a line comment does it matter where a line ends.  In a text without
line comments every line feed may be a space instead: the text has the same tokens,
if at other places, or the same fault, wherever the line feeds stand.

* `Respaced`: a text with spaces in place of some of its line feeds;
* `Cursor.Alike`, `Cursor.likeness`: cursors in two such texts show the same
  characters;
* `Gap.ahead?_alike`: the same pieces of gaps begin at them;
* `Scanner.inStep_skipGaps`, `Scanner.inStep_next`: scanners of two such texts pass
  their gaps in step, and hand out their tokens so;
* `tokenize_respaced`: line feeds or spaces, it comes to the same.
-/

namespace Lexis

open CursorM ScanM

variable {α β : Type} {R : α → β → Prop} {a b : List Char}

/-- The second text is the first one with a space in place of some of its line
feeds. -/
inductive Respaced : List Char → List Char → Prop
  /-- Nothing is left. -/
  | nil : Respaced [] []
  /-- A character is kept, which may be a line feed. -/
  | keep (c : Char) {a b : List Char} (h : Respaced a b) : Respaced (c :: a) (c :: b)
  /-- A line feed becomes a space. -/
  | lineFeed {a b : List Char} (h : Respaced a b) : Respaced ('\n' :: a) (' ' :: b)

/-- No other character comes to be the first one of a text. -/
lemma Respaced.head?_eq_some_iff (h : Respaced a b) {x : Char} (hb : x ≠ '\n') (hs : x ≠ ' ') :
    b.head? = some x ↔ a.head? = some x := by
  cases h with
  | nil | keep => rfl
  | lineFeed => simp [hb.symm, hs.symm]

/-! ### The cursor -/

/-- Two cursors show the same character, and behind their windows the one text is
that of the other with spaces in place of line feeds.  No line comment begins from
the window on. -/
inductive Cursor.Alike : Cursor → Cursor → Prop
  | ended (o o' : Position) : Alike ⟨.ended, o⟩ ⟨.ended, o'⟩
  | shows {g g' : Glyph} {r r' : List Char} (o o' : Position) (hg : g'.shown = g.shown)
    (hr : Respaced r r') (hclean : '\r' ∉ r) (hslash : ¬['/', '/'] <:+: g.shown :: r) :
    Alike ⟨.shows g r, o⟩ ⟨.shows g' r', o'⟩

/-- A slash begins no line comment if none begins in the text from it on, be it
broken or not. -/
lemma noLineComment_shown {c : Char} {r : List Char} (h : ¬['/', '/'] <:+: c :: r) :
    ¬['/', '/'] <:+: (if c = '\n' then ' ' else c) :: r := by
  by_cases hc : c = '\n'
  · rw [pair_infix_cons] at h ⊢
    rw [if_pos hc]
    simp only [Char.reduceEq, false_and, false_or]
    exact fun hr => h (Or.inr hr)
  · rwa [if_neg hc]

/-- The windows move on in step. -/
lemma Cursor.inStep_advance : InStep Cursor.Alike Eq advance advance := by
  intro c c' h
  cases h with
  | ended o o' => exact .ok rfl (.ended o o')
  | @shows g g' r r' o o' hg hr hclean hslash =>
    have hbehind : ¬['/', '/'] <:+: r := fun h => hslash (pair_infix_cons.mpr (Or.inr h))
    cases hr with
    | nil => exact .ok rfl (.ended o o')
    | @keep x r r' hr =>
      obtain ⟨hx, hclean⟩ : x ≠ '\r' ∧ '\r' ∉ r := by simpa [eq_comm] using hclean
      have hshown := noLineComment_shown hbehind
      simp only [advance, Pull.of_cons hx]
      by_cases hb : x = '\n'
      · rw [if_pos hb] at hshown
        rw [if_pos hb, if_pos hb]
        exact .ok rfl (.shows _ _ rfl hr hclean hshown)
      · rw [if_neg hb] at hshown
        rw [if_neg hb, if_neg hb]
        exact .ok rfl (.shows _ _ rfl hr hclean hshown)
    | @lineFeed r r' hr =>
      have hclean : '\r' ∉ r := fun h => hclean (List.mem_cons_of_mem '\n' h)
      exact .ok rfl (.shows _ _ rfl hr hclean (noLineComment_shown hbehind))

/-- **Cursors** in two such texts show the same characters. -/
theorem Cursor.likeness : Likeness Cursor.Alike where
  shown? := by
    rintro c c' h
    cases h with
    | ended => rfl
    | shows o o' hg => exact congrArg some hg
  advance := Cursor.inStep_advance

/-! ### Gaps -/

/-- The same piece of a gap begins at both cursors, and it is no line comment. -/
lemma Gap.ahead?_alike {c c' : Cursor} (h : c.Alike c') :
    ahead? c' = ahead? c ∧ ahead? c ≠ some .lineComment := by
  cases h with
  | ended => exact ⟨rfl, by simp [ahead?, Cursor.shown?, Cursor.glyph?]⟩
  | @shows g g' r r' o o' hg hr hclean hslash =>
    have hline := hr.head?_eq_some_iff (x := '/') (by decide) (by decide)
    have hblock := hr.head?_eq_some_iff (x := '*') (by decide) (by decide)
    refine ⟨ahead?_congr (congrArg some hg) hline hblock, fun hahead => hslash ?_⟩
    obtain ⟨hshown, hnext⟩ := slashes_of_ahead? hahead
    exact pair_infix_cons.mpr (.inl ⟨Option.some.inj hshown, hnext⟩)

/-! ### Scanners -/

/-- Two scanners are alike if their cursors are, both are inside a comment or neither
is, and none has tokens that were given back. -/
structure Scanner.Alike (s s' : Scanner) : Prop where
  cursor : s.cursor.Alike s'.cursor
  inComment : s'.inComment = s.inComment
  pending : s.pending = [] ∧ s'.pending = []

/-- What is done to the cursors alone, from whatever cursors it starts. -/
lemma SameResult.onCursor {x : CursorM α} {y : CursorM β} {s s' : Scanner}
    (h : SameResult Cursor.Alike R (x s.cursor) (y s'.cursor))
    (hcomment : s'.inComment = s.inComment) (hpending : s.pending = [] ∧ s'.pending = []) :
    SameResult Scanner.Alike R (onCursor x s) (onCursor y s') := by
  unfold ScanM.onCursor
  generalize x s.cursor = r at h
  generalize y s'.cursor = r' at h
  cases h with
  | ok h hc => exact .ok h ⟨hc, hcomment, hpending⟩
  | error h => exact .error h

lemma inStep_onCursor {x : CursorM α} {y : CursorM β} (hx : InStep Cursor.Alike R x y) :
    InStep Scanner.Alike R (onCursor x) (onCursor y) :=
  fun _ _ hs => (hx _ _ hs.cursor).onCursor hs.inComment hs.pending

lemma inStep_setInComment (b : Bool) :
    InStep Scanner.Alike Eq (setInComment b) (setInComment b) :=
  fun _ _ hs => .ok rfl ⟨hs.cursor, rfl, hs.pending⟩

lemma inStep_setTokenStart (p q : Position) :
    InStep Scanner.Alike Eq (setTokenStart p) (setTokenStart q) :=
  fun _ _ hs => .ok rfl ⟨hs.cursor, hs.inComment, hs.pending⟩

/-- A piece of a gap other than a line comment is passed in step. -/
lemma Gap.inStep_skip {gap : Gap} (h : gap ≠ .lineComment) :
    InStep Scanner.Alike Eq gap.skip gap.skip := by
  have hadvance := Cursor.likeness.advance
  cases gap with
  | blank => exact inStep_onCursor hadvance
  | lineComment => exact absurd rfl h
  | blockComment =>
    have hopener : InStep Cursor.Alike Eq passOpener passOpener :=
      hadvance.bind_eq fun _ => hadvance
    have hbody : InStep Cursor.Alike Eq passBlock passBlock := by
      refine (Cursor.likeness.foldShown _ _).bind_eq fun _ => ?_
      refine Cursor.likeness.look.bind_eq fun shown => ?_
      cases shown with
      | none => exact inStep_pure rfl
      | some _ => exact hadvance.bind_eq fun _ => inStep_pure rfl
    refine (inStep_onCursor hopener).bind_eq fun _ => (inStep_setInComment true).bind_eq fun _ => ?_
    exact (inStep_onCursor hbody).bind_eq fun _ =>
      .ite (inStep_setInComment false) (inStep_pure rfl)

namespace Scanner

/-- The same piece of a gap is announced to both scanners, and passed in step. -/
lemma Alike.skip {s s' : Scanner} {gap : Gap} (hs : s.Alike s')
    (hgap : Gap.ahead? s.cursor = some gap) :
    Gap.ahead? s'.cursor = some gap ∧ SameResult Alike Eq (gap.skip s) (gap.skip s') := by
  obtain ⟨hsame, hline⟩ := Gap.ahead?_alike hs.cursor
  rw [hgap] at hsame hline
  -- the one piece that depends on where its line ends is not announced
  exact ⟨hsame, Gap.inStep_skip (fun h => hline (congrArg some h)) s s' hs⟩

/-- **Gaps** are passed in step. -/
theorem inStep_skipGaps : InStep Alike Eq skipGaps skipGaps := by
  intro s s' hs
  fun_induction skipGaps s generalizing s' with
  | case1 s hgap =>
    rw [skipGaps_of_none (by rw [(Gap.ahead?_alike hs.cursor).1, hgap])]
    exact .ok rfl hs
  | case2 s gap hgap f s₁ hr =>
    obtain ⟨hgap', hskip⟩ := hs.skip hgap
    obtain ⟨f', s₁', hr', hcause⟩ := (hr ▸ hskip).exists_error
    rw [skipGaps_of_some hgap', hr']
    exact .error hcause
  | case3 s gap hgap u s₁ hr ih =>
    obtain ⟨hgap', hskip⟩ := hs.skip hgap
    obtain ⟨_, s₁', hr', -, hs₁⟩ := (hr ▸ hskip).exists_ok
    rw [skipGaps_of_some hgap', hr']
    exact ih _ hs₁

/-- The token at the cursor is read in step. -/
lemma inStep_scanHere (p q : Position) :
    InStep Alike Token.Resembles (scanHere p) (scanHere q) := by
  refine (inStep_onCursor Cursor.likeness.look).bind_eq fun shown => ?_
  cases shown with
  | some c => exact inStep_onCursor (Cursor.likeness.readLexeme c p q)
  | none =>
    have hget : InStep Alike Alike (get : ScanM Scanner) get := fun _ _ hs => .ok hs hs
    refine hget.bind fun s s' hs => ?_
    rw [hs.inComment]
    exact .ite (inStep_throw rfl) (inStep_pure (Token.resembles_bare _ p q))

/-- The next token of the text is read in step. -/
lemma inStep_scan : InStep Alike Token.Resembles scan scan := by
  refine inStep_skipGaps.bind_eq fun _ => ?_
  refine (inStep_onCursor Likeness.place).bind fun p q _ => ?_
  exact (inStep_setTokenStart p q).bind_eq fun _ => inStep_scanHere p q

/-- **The next token** is handed out in step. -/
theorem inStep_next : InStep Alike Token.Resembles next next := by
  intro s s' hs
  have h := inStep_scan s s' hs
  simp only [next, hs.pending.1, hs.pending.2]
  generalize scan s = r at h
  generalize scan s' = r' at h
  cases h with
  | ok h hs₁ => exact .ok h ⟨hs₁.cursor, hs₁.inComment, hs₁.pending⟩
  | error h => exact .error h

/-- The two texts are taken up in step. -/
lemma inStep_load {s s' : String} (hclean : '\r' ∉ s.toList)
    (hslash : ¬['/', '/'] <:+: s.toList) (h : Respaced s.toList s'.toList) :
    SameResult Alike Eq (load s new) (load s' new) := by
  have hstart : ¬['/', '/'] <:+: Cursor.endMark :: s.toList := by
    rw [pair_infix_cons]
    simpa [Cursor.endMark] using hslash
  have hbefore : (Cursor.before s.toList).Alike (.before s'.toList) :=
    .shows .start .start rfl h hclean hstart
  exact SameResult.onCursor (Cursor.likeness.advance _ _ hbefore) rfl ⟨rfl, rfl⟩

end Scanner

/-! ### All tokens -/

/-- Two texts amount to the same: to tokens of the same kinds and meanings in the same
order, or to faults of the same cause. -/
inductive SameTokens : Except Fault (List Token) → Except Fault (List Token) → Prop
  | ok {ts us : List Token} (h : List.Forall₂ Token.Resembles ts us) : SameTokens (.ok ts) (.ok us)
  | error {f f' : Fault} (h : f'.cause = f.cause) : SameTokens (.error f) (.error f')

lemma Token.Resembles.kind_eq {t u : Token} (h : t.Resembles u) : u.kind = t.kind := by
  rw [h]

/-- **All tokens** are handed out in step. -/
theorem Scanner.Alike.tokens {s s' : Scanner} (hs : s.Alike s') :
    SameTokens s.tokens s'.tokens := by
  have hnext := Scanner.inStep_next s s' hs
  fun_induction Scanner.tokens s generalizing s' with
  | case1 s f s₁ hr =>
    obtain ⟨f', s₁', hr', hcause⟩ := (hr ▸ hnext).exists_error
    rw [Scanner.tokens_of_error hr']
    exact .error hcause
  | case2 s t s₁ hr hkind =>
    obtain ⟨u, s₁', hr', h, -⟩ := (hr ▸ hnext).exists_ok
    rw [Scanner.tokens_of_end hr' (h.kind_eq.trans hkind)]
    exact .ok (.cons h .nil)
  | case3 s t s₁ hr hkind ih =>
    obtain ⟨u, s₁', hr', h, hs₁⟩ := (hr ▸ hnext).exists_ok
    rw [Scanner.tokens_of_ok hr' (h.kind_eq ▸ hkind)]
    have hrest := ih hs₁ (Scanner.inStep_next s₁ s₁' hs₁)
    generalize Scanner.tokens s₁ = w at hrest
    generalize Scanner.tokens s₁' = w' at hrest
    cases hrest with
    | ok hts => exact .ok (.cons h hts)
    | error hcause => exact .error hcause

/-- **Line breaks as spaces.**  A text without carriage returns and without two slashes
next to each other has tokens of the same kinds and meanings in the same order, or a
fault of the same cause, whichever of its line feeds are spaces instead. -/
theorem tokenize_respaced {s s' : String} (hclean : '\r' ∉ s.toList)
    (hslash : ¬['/', '/'] <:+: s.toList) (h : Respaced s.toList s'.toList) :
    SameTokens (tokenize s) (tokenize s') := by
  have hload := Scanner.inStep_load hclean hslash h
  unfold tokenize
  generalize Scanner.load s .new = r at hload
  generalize Scanner.load s' .new = r' at hload
  cases hload with
  | ok _ hs => exact hs.tokens
  | error hcause => exact .error hcause

/-- A line feed behind a backslash in a quoted text, one in a block comment that has
slashes at the end of its line, and one between the characters of a mark. -/
theorem tokenize_respaced_comment :
    '\r' ∉ "\"\\\n\"/*/\n/*/<\n=".toList ∧ ¬['/', '/'] <:+: "\"\\\n\"/*/\n/*/<\n=".toList
      ∧ Respaced "\"\\\n\"/*/\n/*/<\n=".toList "\"\\ \"/*/ /*/< =".toList
      ∧ SameTokens (tokenize "\"\\\n\"/*/\n/*/<\n=") (tokenize "\"\\ \"/*/ /*/< =") := by
  have hclean : '\r' ∉ "\"\\\n\"/*/\n/*/<\n=".toList := by decide
  have hslash : ¬['/', '/'] <:+: "\"\\\n\"/*/\n/*/<\n=".toList := by simp [pair_infix_cons]
  have h : Respaced "\"\\\n\"/*/\n/*/<\n=".toList "\"\\ \"/*/ /*/< =".toList :=
    .keep _ <| .keep _ <| .lineFeed <| .keep _ <| .keep _ <| .keep _ <| .keep _ <| .lineFeed <|
      .keep _ <| .keep _ <| .keep _ <| .keep _ <| .lineFeed <| .keep _ .nil
  exact ⟨hclean, hslash, h, tokenize_respaced hclean hslash h⟩

end Lexis
