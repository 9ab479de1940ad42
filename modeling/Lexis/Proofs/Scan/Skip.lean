import Lexis.Proofs.Scan.Keep
import Lexis.Proofs.Scan.Token

/-!
# Behind a gap

A scanner outside of comments passes the gap before it and comes to what is behind it.
It is inside a comment then only if the gap ends with the opener of a block comment
that is not closed, and in that case it is at the end of the text.  Nothing but a stray
carriage return keeps it from either.

* `Reads.yields_or`: a reader passes its piece, or is broken off;
* `Gap.pass_or`, `Gap.skip_or`: so it is with a piece of a gap, which may leave a
  comment open;
* `Scanner.Skips`: what a scanner comes to behind a gap;
* `Scanner.skips_skipGaps`: this is all that it comes to.
-/

namespace Lexis

open CursorM

variable {α : Type} {l v w : List Char} {o : Position} {c : Cursor} {gap : Gap}

/-- With no text left the cursor is at the end. -/
lemma Cursor.At.atEnd (hat : c.At o []) : c.atEnd := by
  rw [Cursor.atEnd, hat.glyph?_eq]
  rfl

/-- At the end of the text the window shows nothing. -/
lemma Cursor.shown?_of_atEnd (hend : c.atEnd) : c.shown? = none := by
  simpa [Cursor.shown?, Cursor.atEnd] using hend

/-- A reader passes its piece and yields, or is broken off. -/
lemma Reads.yields_or {x : CursorM α} {a : α} (h : Yields x l v a) (hat : c.At o (l ++ v)) :
    BrokenOff (x c) ∨ ∃ c', c'.At (o.through l) v ∧ x c = .ok a c' := by
  have hm := h.meets c o hat
  rcases strayFirst_or v with ⟨v', hv⟩ | hclear
  · obtain ⟨c', hr⟩ := hm.stray v' hv
    rw [hr]
    exact Or.inl rfl
  · obtain ⟨c', hat', hr⟩ := hm.here hclear
    exact Or.inr ⟨c', hat', hr⟩

/-! ### Pieces of gaps -/

namespace Gap

/-- **A piece of a gap** that is announced is passed, or it is a block comment that
is left open and passed up to the end of the text, or a stray carriage return is
met. -/
theorem pass_or (hat : c.At o w) (hopen : opener? w = some gap) :
    BrokenOff (gap.pass c)
      ∨ (∃ l v c', w = l ++ v ∧ Piece gap l v ∧ c'.At (o.through l) v
        ∧ gap.pass c = .ok false c')
      ∨ ∃ body c', w = '/' :: '*' :: body ∧ Unclosed body ∧ c'.At (o.through w) []
        ∧ gap.pass c = .ok true c' := by
  have hbreaks {x : CursorM Bool} {l v : List Char} {left : Bool} (h : Yields x l ('\r' :: v) left)
      (hat : c.At o (l ++ '\r' :: v)) : BrokenOff (x c) := by
    obtain ⟨c', hr⟩ := h.breaks hat
    rw [hr]
    rfl
  rcases exists_piece_or hopen with ⟨l, v, rfl, hl⟩ | ⟨rfl, body, rfl, hbody⟩
  · by_cases hclean : '\r' ∈ l
    · -- the piece is broken off at its first stray carriage return
      left
      cases hl with
      | blank hc => rcases hc with rfl | rfl | rfl <;> simp at hclean
      | @lineComment body v hline =>
        obtain ⟨a, b, rfl, ha⟩ := List.eq_append_cons_of_mem (by simpa using hclean : '\r' ∈ body)
        exact hbreaks (reads_pass_stray (fun h => hline (by simp [h])) ha (b ++ v))
          (by simpa using hat)
      | @blockComment body v hbody =>
        obtain ⟨a, b, rfl, ha⟩ := List.eq_append_cons_of_mem (by simpa using hclean : '\r' ∈ body)
        exact hbreaks (reads_pass_open (v := '\r' :: (b ++ '*' :: '/' :: v)) hbody.of_append ha
          (by simp)) (by simpa using hat)
    · exact ((reads_pass hl hclean).yields_or hat).imp_right fun ⟨c', hat', hr⟩ =>
        Or.inl ⟨l, v, c', rfl, hl, hat', hr⟩
  · by_cases hclean : '\r' ∈ body
    · obtain ⟨a, b, rfl, ha⟩ := List.eq_append_cons_of_mem hclean
      exact Or.inl (hbreaks (reads_pass_open hbody.of_append ha (by simp)) hat)
    · have hpass := reads_pass_open (v := []) hbody hclean (by simp)
      rcases hpass.yields_or (by simpa using hat) with hbroken | ⟨c', hat', hr⟩
      · exact Or.inl hbroken
      · exact Or.inr (Or.inr ⟨body, c', rfl, hbody, hat', hr⟩)

/-- A scanner outside of comments passes it so. -/
lemma skip_or {s : Scanner} (hs : s.inComment = false) (hat : s.cursor.At o w)
    (hopen : opener? w = some gap) :
    (∃ f s', gap.skip s = .error f s' ∧ f.cause = .malformedLineEnding)
      ∨ (∃ l v c, w = l ++ v ∧ Piece gap l v ∧ c.At (o.through l) v
        ∧ gap.skip s = .ok () { s with cursor := c })
      ∨ ∃ body c, w = '/' :: '*' :: body ∧ Unclosed body ∧ c.At (o.through w) []
        ∧ gap.skip s = .ok () { s with cursor := c, inComment := true } := by
  have hskip := gap.skip_eq_pass hs
  rcases pass_or hat hopen with hbroken | ⟨l, v, c, hw, hl, hat', hpass⟩
    | ⟨body, c, hw, hbody, hat', hpass⟩
  · cases hpass : gap.pass s.cursor with
    | ok left c =>
      rw [hpass] at hbroken
      cases hbroken
    | error f c =>
      rw [hpass] at hskip hbroken
      obtain ⟨s', hskip⟩ := hskip
      exact Or.inl ⟨f, s', hskip, hbroken⟩
  · rw [hpass, ← hs] at hskip
    exact Or.inr (Or.inl ⟨l, v, c, hw, hl, hat', hskip⟩)
  · rw [hpass] at hskip
    exact Or.inr (Or.inr ⟨body, c, hw, hbody, hat', hskip⟩)

end Gap

/-! ### Gaps -/

namespace Scanner

variable {s : Scanner}

/-- There is no gap at the end of the text. -/
lemma skipGaps_of_atEnd (hend : s.cursor.atEnd) : skipGaps s = .ok () s :=
  skipGaps_of_none (by rw [Gap.ahead?, Cursor.shown?_of_atEnd hend])

/-- What a scanner outside of comments comes to when it passes the gap before it, at
the place `o` and in front of the text `w`. -/
inductive Skips (o : Position) (w : List Char) (s : Scanner) :
    EStateM.Result Fault Scanner Unit → Prop
  /-- It is behind the gap. -/
  | behind {g v : List Char} {c : Cursor} (hw : w = g ++ v) (hg : Gaps g v)
    (hat : c.At (o.through g) v) : Skips o w s (.ok () { s with cursor := c })
  /-- It is at the end of the text, inside a comment that is left open. -/
  | inside {g body : List Char} {c : Cursor} (hw : w = g ++ '/' :: '*' :: body)
    (hg : Gaps g ('/' :: '*' :: body)) (hbody : Gap.Unclosed body) (hat : c.At (o.through w) []) :
    Skips o w s (.ok () { s with cursor := c, inComment := true })
  /-- It has met with a stray carriage return. -/
  | broken {f : Fault} {s' : Scanner} (hf : f.cause = .malformedLineEnding) :
    Skips o w s (.error f s')

/-- One more piece in front of a gap. -/
lemma Skips.of_piece {r : EStateM.Result Fault Scanner Unit} (hl : gap.Piece l v)
    (h : Skips (o.through l) v { s with cursor := c } r) : Skips o (l ++ v) s r := by
  cases h with
  | @behind g v c hw hg hat =>
    subst hw
    rw [← Position.through_append] at hat
    exact .behind (List.append_assoc l g v).symm (.cons hl hg) hat
  | @inside g body c hw hg hbody hat =>
    subst hw
    rw [← Position.through_append] at hat
    exact .inside (List.append_assoc l g _).symm (.cons hl hg) hbody hat
  | broken hf => exact .broken hf

/-- **A gap** is passed by a scanner outside of comments. -/
theorem skips_skipGaps (hs : s.inComment = false) (hat : s.cursor.At o w) :
    s.Skips o w (skipGaps s) := by
  fun_induction skipGaps s generalizing o w with
  | case1 s hgap => exact .behind (g := []) rfl .nil hat
  | case2 s gap hgap f s' hr =>
    rw [Gap.ahead?_eq hat] at hgap
    rcases Gap.skip_or hs hat hgap with ⟨f, s', hskip, hf⟩ | ⟨_, _, _, -, -, -, hskip⟩
      | ⟨_, _, -, -, -, hskip⟩
    all_goals cases hr.symm.trans hskip
    exact .broken hf
  | case3 s gap hgap _ s' hr ih =>
    rw [Gap.ahead?_eq hat] at hgap
    rcases Gap.skip_or hs hat hgap with ⟨_, _, hskip, -⟩ | ⟨l, v, c, rfl, hl, hat', hskip⟩
      | ⟨body, c, rfl, hbody, hat', hskip⟩
    all_goals cases hr.symm.trans hskip
    · exact (ih hs hat').of_piece hl
    · -- there is nothing behind a comment that is left open
      rw [skipGaps_of_atEnd hat'.atEnd]
      exact .inside (g := []) rfl .nil hbody hat'

end Scanner

end Lexis
