import Lexis.Proofs.Grammar.Word
import Lexis.Scanner.Gap

/-!
# Gaps of a text

A gap is a sequence of blanks, line comments and block comments.  A comment
shows by its first two characters; a block comment has a first closing mark, or
it reaches up to the end of the text and is left open.

* `Gap.Piece`: a piece of a gap in front of what follows it;
* `Gaps`: a gap in front of what follows it;
* `Gap.exists_piece_or`: where a piece is announced there is one, or a block
  comment is left open;
* `Gap.reads_pass`, `Gap.reads_pass_open`: a piece is passed by the cursor;
* `Scanner.SkipsTo.of_gaps`: a gap is passed by the scanner.
-/

namespace Lexis

open CursorM

variable {l v body : List Char} {gap : Gap}

/-- Two characters stand next to each other at the front of a text or behind it. -/
lemma pair_infix_cons {a b c : Char} :
    [a, b] <:+: c :: l ↔ (c = a ∧ l.head? = some b) ∨ [a, b] <:+: l := by
  have hfront : [a, b] <+: c :: l ↔ c = a ∧ l.head? = some b := by
    cases l with
    | nil => simp
    | cons x l =>
      simp only [List.cons_prefix_cons, List.nil_prefix, and_true, List.head?_cons,
        Option.some.injEq]
      exact and_congr eq_comm eq_comm
  rw [List.infix_cons_iff, hfront]

namespace Gap

/-! ### Closing marks -/

/-- No closing mark stands in the body of a block comment. -/
def Unclosed (body : List Char) : Prop := ¬ ['*', '/'] <:+: body

lemma unclosed_nil : Unclosed [] := by simp [Unclosed]

/-- A closing mark is not split by a first character. -/
lemma unclosed_cons {c : Char} :
    Unclosed (c :: body) ↔ (c = '*' → body.head? ≠ some '/') ∧ Unclosed body := by
  rw [Unclosed, pair_infix_cons, Unclosed]
  tauto

/-- **Closing marks.**  A text has a first closing mark, or none. -/
theorem exists_close_or (w : List Char) :
    (∃ body v, w = body ++ '*' :: '/' :: v ∧ Unclosed body) ∨ Unclosed w := by
  induction w with
  | nil => exact Or.inr unclosed_nil
  | cons c w ih =>
    by_cases hclose : c = '*' ∧ w.head? = some '/'
    · obtain ⟨rfl, hw⟩ := hclose
      obtain ⟨v, rfl⟩ := List.head?_eq_some_iff.mp hw
      exact Or.inl ⟨[], v, rfl, unclosed_nil⟩
    · have hc : c = '*' → w.head? ≠ some '/' := fun h hw => hclose ⟨h, hw⟩
      rcases ih with ⟨body, v, rfl, hbody⟩ | hw
      · refine Or.inl ⟨c :: body, v, rfl, unclosed_cons.mpr ⟨?_, hbody⟩⟩
        intro h hhead
        obtain ⟨rest, rfl⟩ := List.head?_eq_some_iff.mp hhead
        exact hc h rfl
      · exact Or.inr (unclosed_cons.mpr ⟨hc, hw⟩)

/-- A text without a closing mark is so from its beginning on. -/
lemma Unclosed.of_append {a b : List Char} (h : Unclosed (a ++ b)) : Unclosed a := by
  rintro ⟨x, y, rfl⟩
  exact h ⟨x, y ++ b, by simp⟩

/-- Folding neither brings about a closing mark nor parts one. -/
lemma unclosed_folded_iff : Unclosed (folded body) ↔ Unclosed body := by
  constructor
  · rintro h ⟨a, b, rfl⟩
    refine h ⟨folded a, folded b, ?_⟩
    rw [List.append_assoc, List.append_assoc, folded_append (by simp), folded_append (by simp)]
    rfl
  · rintro h ⟨x, y, hxy⟩
    obtain ⟨a, b, rfl, ha, -⟩ := exists_of_folded_eq_append hxy.symm
    obtain ⟨a, m, rfl, -, hm⟩ := exists_of_folded_eq_append ha
    exact h ⟨a, b, by rw [eq_of_folded_eq hm (by decide)]⟩

/-! ### Pieces -/

/-- A piece of a gap in front of the text `v`. -/
inductive Piece : Gap → List Char → List Char → Prop
  /-- A space, a tab or a line break. -/
  | blank {c : Char} {v : List Char} (hc : c = ' ' ∨ c = '\t' ∨ c = '\n') : Piece blank [c] v
  /-- A comment up to the end of the line or of the text. -/
  | lineComment {body v : List Char} (hbody : '\n' ∉ body) (hv : v.head?.all (· = '\n')) :
    Piece lineComment ('/' :: '/' :: body) v
  /-- A comment up to its first closing mark. -/
  | blockComment {body v : List Char} (hbody : Unclosed body) :
    Piece blockComment ('/' :: '*' :: (body ++ ['*', '/'])) v

/-- The piece of a gap that the text begins with, as far as its first two
characters tell. -/
def opener? : List Char → Option Gap
  | ' ' :: _ | '\t' :: _ | '\n' :: _ => some blank
  | '/' :: '/' :: _ => some lineComment
  | '/' :: '*' :: _ => some blockComment
  | _ => none

/-- A piece shows by its beginning. -/
lemma Piece.opener?_eq (h : Piece gap l v) : opener? (l ++ v) = some gap := by
  cases h with
  | blank hc => rcases hc with rfl | rfl | rfl <;> rfl
  | lineComment => rfl
  | blockComment => rfl

lemma Piece.ne_nil (h : Piece gap l v) : l ≠ [] := by
  cases h <;> simp

/-- Only a line break may take the place of what follows a piece. -/
lemma Piece.before {v' : List Char} (h : Piece gap l v)
    (hv : ∀ x ∈ v'.head?, x ∈ v.head? ∨ x = '\n') : Piece gap l v' := by
  cases h with
  | blank hc => exact .blank hc
  | blockComment hbody => exact .blockComment hbody
  | lineComment hbody hend =>
    refine .lineComment hbody ?_
    rw [Option.all_eq_true] at hend ⊢
    intro x hx
    rcases hv x hx with h | h
    · exact hend x h
    · simpa using h

/-- Where a piece is announced there is one, or a block comment is left open. -/
theorem exists_piece_or {w : List Char} (h : opener? w = some gap) :
    (∃ l v, w = l ++ v ∧ Piece gap l v)
      ∨ gap = blockComment ∧ ∃ body, w = '/' :: '*' :: body ∧ Unclosed body := by
  unfold opener? at h
  split at h
  next v => exact Or.inl ⟨[' '], v, rfl, by cases h; exact .blank (by simp)⟩
  next v => exact Or.inl ⟨['\t'], v, rfl, by cases h; exact .blank (by simp)⟩
  next v => exact Or.inl ⟨['\n'], v, rfl, by cases h; exact .blank (by simp)⟩
  next w =>
    cases h
    obtain ⟨body, v, rfl, hbody, hv⟩ := exists_run (· ≠ '\n') w
    refine Or.inl ⟨'/' :: '/' :: body, v, rfl, .lineComment (fun hmem => ?_) ?_⟩
    · simpa using hbody '\n' hmem
    · rw [Option.all_eq_true]
      exact fun x hx => by simpa using hv x hx
  next w =>
    cases h
    rcases exists_close_or w with ⟨body, v, rfl, hbody⟩ | hw
    · exact Or.inl ⟨'/' :: '*' :: (body ++ ['*', '/']), v, by simp, .blockComment hbody⟩
    · exact Or.inr ⟨rfl, w, rfl, hw⟩
  next => simp at h

/-! ### What is announced at the cursor -/

/-- A slash in the window opens a comment if the text behind it goes on so; a
line ending that folding changes does not matter. -/
lemma ahead?_slash (o : Position) (rest : List Char) :
    ahead? ⟨.shows (.ofChar '/') rest, o.past '/'⟩ = opener? ('/' :: folded rest) := by
  cases rest using foldedInduction with
  | nil => rfl
  | lineEnding text =>
    rw [folded_lineEnding]
    rfl
  | keep c text hc =>
    rw [folded_cons hc]
    by_cases hline : c = '/'
    · rw [hline]
      rfl
    · by_cases hblock : c = '*'
      · rw [hblock]
        rfl
      · simp [ahead?, opener?, Cursor.shown?, Cursor.glyph?, Cursor.next?, Cursor.rest,
          Glyph.ofChar, Glyph.shown, hline, hblock]

/-- The cursor tells which piece its text begins with. -/
lemma ahead?_eq {c : Cursor} {o : Position} {w : List Char} (h : c.At o w) :
    ahead? c = opener? w := by
  cases h with
  | ended => rfl
  | shows _ x rest hx =>
    by_cases hslash : x = '/'
    · rw [hslash]
      exact ahead?_slash o rest
    · by_cases hb : x = '\n'
      · rw [hb]
        rfl
      · have hshown : (Glyph.ofChar x).shown = x := shownFor_of_ne hb
        simp only [ahead?, Cursor.shown?, Cursor.glyph?, Option.map_some, hshown]
        unfold opener?
        split <;> simp_all

/-- The character in the window and the marks behind it tell which piece begins. -/
lemma ahead?_congr {c c' : Cursor} (hshown : c'.shown? = c.shown?)
    (hline : c'.next? = some '/' ↔ c.next? = some '/')
    (hblock : c'.next? = some '*' ↔ c.next? = some '*') : ahead? c' = ahead? c := by
  simp only [ahead?, hshown]
  grind

/-- A line comment begins with two slashes. -/
lemma slashes_of_ahead? {c : Cursor} (h : ahead? c = some lineComment) :
    c.shown? = some '/' ∧ c.next? = some '/' := by
  simp only [ahead?] at h
  grind

/-! ### Passing a piece -/

/-- What a piece does to the cursor.  Does it leave a comment open? -/
def pass : Gap → CursorM Bool
  | blank => do
    advance
    return false
  | lineComment => do
    passOpener
    passLine
    return false
  | blockComment => do
    passOpener
    let closed ← passBlock
    return !closed

lemma reads_passOpener {a b : Char} (ha : a ≠ '\r') (hb : b ≠ '\r') (v : List Char) :
    Yields passOpener [a, b] v () :=
  reads_bind (l := [a]) (reads_advance ha _) (reads_advance hb v)

/-- A line comment is passed up to the end of its line. -/
lemma reads_passLine (hbody : '\n' ∉ body) (hclean : '\r' ∉ body)
    (hv : ∀ x ∈ v.head?, x = '\n' ∨ x = '\r') : Yields passLine body v () := by
  refine reads_foldWhile ?_ hclean fun x hx hr => ?_
  · clear hclean
    induction body with
    | nil => rfl
    | cons c body ih =>
      have hc : c ≠ '\n' := by
        rintro rfl
        simp at hbody
      have hglyph : Glyph.ofChar c ≠ .lineBreak := by simp [Glyph.ofChar, hc]
      rw [List.foldlM_cons, if_neg hglyph]
      exact ih fun h => hbody (List.mem_cons_of_mem c h)
  · rcases hv x hx with rfl | rfl
    · rfl
    · exact absurd rfl hr

/-- A body without a closing mark is taken in as a whole. -/
lemma Unclosed.foldlM_extendBlock (h : Unclosed body) (star : Bool)
    (hstar : star → body.head? ≠ some '/') :
    ∃ star', body.foldlM (fun s c => extendBlock s (shownFor c)) star = some star' := by
  induction body generalizing star with
  | nil => exact ⟨star, rfl⟩
  | cons c body ih =>
    obtain ⟨hc, hbody⟩ := unclosed_cons.mp h
    have hshown : ∀ x ∈ ['*', '/'], shownFor c = x → c = x := by
      intro x hx hs
      by_cases hb : c = '\n'
      · rw [hb, shownFor_lineFeed] at hs
        simp [← hs] at hx
      · rwa [shownFor_of_ne hb] at hs
    have hgo : ¬(star && shownFor c = '/') := by
      intro hend
      simp only [Bool.and_eq_true, decide_eq_true_eq] at hend
      exact hstar hend.1 (by rw [hshown '/' (by simp) hend.2]; rfl)
    rw [List.foldlM_cons, extendBlock, if_neg hgo]
    refine ih hbody _ fun hs => hc ?_
    exact hshown '*' (by simp) (by simpa using hs)

/-- A block comment is passed with its closing mark. -/
lemma reads_passBlock (h : Unclosed body) (hclean : '\r' ∉ body) (v : List Char) :
    Yields passBlock (body ++ ['*', '/']) v true := by
  obtain ⟨star, hstar⟩ := h.foldlM_extendBlock false (by simp)
  have hrun : Yields (foldShown extendBlock false) (body ++ ['*']) (['/'] ++ v) true := by
    refine reads_foldShown ?_ (by simpa using hclean) ?_
    · rw [List.foldlM_append, hstar]
      cases star <;> rfl
    · rintro x ⟨⟩ -
      rfl
  rw [List.append_cons]
  refine reads_bind hrun (reads_bind_stay (reads_look _) ?_)
  exact reads_bind_last (reads_advance (by decide) v) (reads_pure _ v)

/-- What is left open is passed up to the end of the text or up to a stray
carriage return. -/
lemma reads_passBlock_open (h : Unclosed body) (hclean : '\r' ∉ body)
    (hv : ∀ x ∈ v.head?, x = '\r') : Yields passBlock body v false := by
  obtain ⟨star, hstar⟩ := h.foldlM_extendBlock false (by simp)
  have hrun : Yields (foldShown extendBlock false) body v star :=
    reads_foldShown hstar hclean fun x hx hr => absurd (hv x hx) hr
  refine reads_bind_last hrun ?_
  cases v with
  | nil => exact reads_bind_stay (reads_look []) (reads_pure false [])
  | cons x v =>
    obtain rfl : x = '\r' := hv x rfl
    exact reads_before_stray _ v _

/-- **A piece of a gap** is passed and leaves no comment open. -/
theorem reads_pass (h : Piece gap l v) (hclean : '\r' ∉ l) : Yields gap.pass l v false := by
  cases h with
  | @blank c _ hc =>
    have hr : c ≠ '\r' := by
      rintro rfl
      simp at hclean
    exact reads_bind_last (reads_advance hr v) (reads_pure false v)
  | @lineComment body _ hbody hv =>
    have hend : ∀ x ∈ v.head?, x = '\n' ∨ x = '\r' := by
      rw [Option.all_eq_true] at hv
      exact fun x hx => Or.inl (by simpa using hv x hx)
    refine reads_bind (l := ['/', '/']) (reads_passOpener (by decide) (by decide) _) ?_
    refine reads_bind_last (reads_passLine hbody (fun hmem => hclean ?_) hend) (reads_pure false v)
    simp [hmem]
  | @blockComment body _ hbody =>
    refine reads_bind (l := ['/', '*']) (reads_passOpener (by decide) (by decide) _) ?_
    refine reads_bind_last (reads_passBlock hbody (fun hmem => hclean ?_) v) (reads_pure false v)
    simp [hmem]

/-- A block comment that is left open is passed as far as it goes. -/
theorem reads_pass_open (h : Unclosed body) (hclean : '\r' ∉ body)
    (hv : ∀ x ∈ v.head?, x = '\r') : Yields blockComment.pass ('/' :: '*' :: body) v true := by
  refine reads_bind (l := ['/', '*']) (reads_passOpener (by decide) (by decide) _) ?_
  exact reads_bind_last (reads_passBlock_open h hclean hv) (reads_pure true v)

/-- A line comment is passed up to a stray carriage return. -/
theorem reads_pass_stray (hbody : '\n' ∉ body) (hclean : '\r' ∉ body) (v : List Char) :
    Yields lineComment.pass ('/' :: '/' :: body) ('\r' :: v) false := by
  refine reads_bind (l := ['/', '/']) (reads_passOpener (by decide) (by decide) _) ?_
  refine reads_bind_last (reads_passLine hbody hclean ?_) (reads_pure false _)
  rintro x ⟨⟩
  exact Or.inr rfl

/-! ### The scanner -/

/-- The scanner passes a piece as its cursor does: it ends in the same fault, or
takes note of a comment that is left open. -/
theorem skip_eq_pass {s : Scanner} (gap : Gap) (hs : s.inComment = false) :
    match gap.pass s.cursor with
    | .ok left c => gap.skip s = .ok () { s with cursor := c, inComment := left }
    | .error f _ => ∃ s', gap.skip s = .error f s' := by
  cases gap with
  | blank =>
    simp only [pass, skip, CursorM.bind_apply, ScanM.onCursor]
    cases advance s.cursor with
    | ok _ c =>
      simp [pure, EStateM.pure, ← hs]
    | error f c => exact ⟨_, rfl⟩
  | lineComment =>
    simp only [pass, skip, CursorM.bind_apply, ScanM.bind_apply, ScanM.onCursor]
    cases passOpener s.cursor with
    | ok _ c =>
      simp only
      cases passLine c with
      | ok _ c' => simp [pure, EStateM.pure, ← hs]
      | error f c' => exact ⟨_, rfl⟩
    | error f c => exact ⟨_, rfl⟩
  | blockComment =>
    simp only [pass, skip, CursorM.bind_apply, ScanM.bind_apply, ScanM.onCursor]
    cases passOpener s.cursor with
    | ok _ c =>
      simp only [ScanM.setInComment_apply]
      cases passBlock c with
      | ok closed c' => cases closed <;> rfl
      | error f c' => exact ⟨_, rfl⟩
    | error f c => exact ⟨_, rfl⟩

end Gap

/-! ### Gaps -/

/-- A gap in front of the text `v`. -/
inductive Gaps : List Char → List Char → Prop
  | nil {v : List Char} : Gaps [] v
  | cons {gap : Gap} {l g v : List Char} (hl : gap.Piece l (g ++ v)) (hg : Gaps g v) :
    Gaps (l ++ g) v

namespace Gaps

variable {g : List Char}

/-- A gap of one piece. -/
lemma of_piece (h : gap.Piece l v) : Gaps l v := by
  simpa using Gaps.cons (g := []) h .nil

/-- A gap after a gap. -/
lemma append {g' : List Char} (h : Gaps g (g' ++ v)) (h' : Gaps g' v) : Gaps (g ++ g') v := by
  generalize hw : g' ++ v = w at h
  induction h with
  | nil => exact h'
  | @cons gap l g w hl hg ih =>
    subst hw
    have hl' : gap.Piece l ((g ++ g') ++ v) := by rwa [List.append_assoc]
    rw [List.append_assoc]
    exact .cons hl' (ih rfl)

/-- Only a line break may take the place of what follows a gap. -/
lemma before {v' : List Char} (h : Gaps g v) (hv : ∀ x ∈ v'.head?, x ∈ v.head? ∨ x = '\n') :
    Gaps g v' := by
  induction h with
  | nil => exact .nil
  | @cons gap l g v hl hg ih =>
    refine .cons (hl.before fun x hx => ?_) (ih hv)
    cases g with
    | nil => exact hv x hx
    | cons y g => exact Or.inl hx

end Gaps

namespace Scanner

lemma skipGaps_of_none {s : Scanner} (h : Gap.ahead? s.cursor = none) :
    skipGaps s = .ok () s := by
  rw [skipGaps]
  split
  next => rfl
  next gap hgap => simp [hgap] at h

lemma skipGaps_of_some {s : Scanner} (h : Gap.ahead? s.cursor = some gap) :
    skipGaps s = match gap.skip s with
      | .error f s' => .error f s'
      | .ok _ s' => skipGaps s' := by
  rw [skipGaps]
  split
  next hnone => simp [hnone] at h
  next gap' hgap =>
    obtain rfl : gap' = gap := by simpa [hgap] using h
    split <;> simp_all

/-- The scanner meets with a stray carriage return at the text `v`, or goes on
from there, inside a comment or not. -/
structure SkipsTo (s : Scanner) (o : Position) (v : List Char) (left : Bool) : Prop where
  stray : ∀ v', v = '\r' :: v' →
    ∃ s', skipGaps s = .error ⟨.malformedLineEnding, o.right (strayWidth v')⟩ s'
  here : v.head? ≠ some '\r' →
    ∃ c : Cursor, c.At o v ∧ skipGaps s = skipGaps { s with cursor := c, inComment := left }

/-- A scanner skips to where another one does that it goes on as. -/
lemma SkipsTo.of_eq {s : Scanner} {c : Cursor} {o : Position} {left left' : Bool}
    (hgo : skipGaps s = skipGaps { s with cursor := c, inComment := left' })
    (h : SkipsTo { s with cursor := c, inComment := left' } o v left) : s.SkipsTo o v left where
  stray v' hv' := by
    obtain ⟨s', hr⟩ := h.stray v' hv'
    exact ⟨s', hgo.trans hr⟩
  here hclear := by
    obtain ⟨c', hat, hr⟩ := h.here hclear
    exact ⟨c', hat, hgo.trans hr⟩

/-- A piece of a gap is passed. -/
lemma SkipsTo.of_pass {s : Scanner} {o : Position} {left : Bool} (hs : s.inComment = false)
    (hat : s.cursor.At o (l ++ v)) (hopen : Gap.opener? (l ++ v) = some gap)
    (h : Yields gap.pass l v left) : s.SkipsTo (o.through l) v left := by
  have hahead : Gap.ahead? s.cursor = some gap := by rw [Gap.ahead?_eq hat, hopen]
  have hskip := gap.skip_eq_pass hs
  have hm := h.meets s.cursor o hat
  constructor
  · intro v' hv'
    obtain ⟨c, hr⟩ := hm.stray v' hv'
    rw [hr] at hskip
    obtain ⟨s', hskip⟩ := hskip
    exact ⟨s', by rw [skipGaps_of_some hahead, hskip]⟩
  · intro hclear
    obtain ⟨c, hc, hr⟩ := hm.here hclear
    rw [hr] at hskip
    exact ⟨c, hc, by rw [skipGaps_of_some hahead, hskip]⟩

/-- **A gap** is passed, and what follows it is before the scanner. -/
theorem SkipsTo.of_gaps {s : Scanner} {o : Position} {g : List Char} (hs : s.inComment = false)
    (hat : s.cursor.At o (g ++ v)) (h : Gaps g v) (hclean : '\r' ∉ g) :
    s.SkipsTo (o.through g) v false := by
  induction h generalizing s o with
  | nil =>
    refine ⟨?_, fun _ => ⟨s.cursor, hat, ?_⟩⟩
    · rintro v' rfl
      exact absurd rfl hat.head?_ne
    · rw [← hs]
  | @cons gap l g v hl hg ih =>
    have hl' : '\r' ∉ l := fun hmem => hclean (by simp [hmem])
    have hg' : '\r' ∉ g := fun hmem => hclean (by simp [hmem])
    rw [List.append_assoc] at hat
    have hpiece := SkipsTo.of_pass hs hat hl.opener?_eq (Gap.reads_pass hl hl')
    rw [Position.through_append]
    rcases strayFirst_or (g ++ v) with ⟨v', hv'⟩ | hclear
    · -- the stray carriage return stands behind the last piece
      obtain rfl : g = [] := eq_nil_of_strayFirst hg' hv'
      exact ⟨hpiece.stray, fun hhead => absurd (by rw [← List.nil_append v, hv']; rfl) hhead⟩
    · obtain ⟨c, hc, hgo⟩ := hpiece.here hclear
      exact .of_eq hgo (ih rfl hc hg')

end Scanner

end Lexis
