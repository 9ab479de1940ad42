import Lexis.Scanner.Basic

/-!
# Gaps between lexemes

Between two lexemes there may be blanks, line comments and block comments.  A
line comment reaches up to the end of its line, which it leaves to the blanks.
A block comment reaches up to the first closing mark, so that block comments
do not nest.  One that is not closed reaches up to the end of the text; the
scanner takes note of it, and the fault is raised where a token is asked for.

* `Gap.ahead?`: the piece of a gap that begins at the cursor;
* `Scanner.skipGaps`: the cursor moves on to the next lexeme;
* `Scanner.steady_skipGaps`: gaps are passed forward.
-/

namespace Lexis

/-- A piece of what stands between lexemes. -/
inductive Gap where
  /-- A space, a tab or a line break. -/
  | blank
  /-- A comment up to the end of the line. -/
  | lineComment
  /-- A comment up to its closing mark. -/
  | blockComment
deriving DecidableEq

namespace Gap

/-- The piece of a gap that begins at the cursor, if one does: a comment shows
by the character behind the window. -/
def ahead? (c : Cursor) : Option Gap :=
  match c.shown? with
  | some ' ' | some '\t' => some blank
  | some '/' =>
    match c.next? with
    | some '/' => some lineComment
    | some '*' => some blockComment
    | _ => none
  | _ => none

/-- The two characters that open a comment. -/
def passOpener : CursorM Unit := do
  CursorM.advance
  CursorM.advance

/-- The text of a line comment: everything up to the end of the line. -/
def passLine : CursorM Unit :=
  CursorM.foldWhile (fun _ g => if g = .lineBreak then none else some ()) ()

/-- One more character of a block comment, unless it closes the comment.  The
state tells whether the character before it was a star. -/
def extendBlock (star : Bool) (c : Char) : Option Bool :=
  if star && c = '/' then none else some (c = '*')

/-- The text of a block comment with its closing mark.  Is there such a mark? -/
def passBlock : CursorM Bool := do
  let _ ← CursorM.foldShown extendBlock false
  match ← CursorM.look with
  | none => return false
  | some _ =>
    CursorM.advance
    return true

/-- The cursor moves on behind the piece that begins at it. -/
def skip : Gap → ScanM Unit
  | blank => ScanM.onCursor CursorM.advance
  | lineComment => do
    ScanM.onCursor passOpener
    ScanM.onCursor passLine
  | blockComment => do
    ScanM.onCursor passOpener
    ScanM.setInComment true
    if ← ScanM.onCursor passBlock then ScanM.setInComment false

/-! ### Progress -/

section Progress

open CursorM ScanM

/-- The opener of a comment is passed forward. -/
theorem forward_passOpener : Forward passOpener :=
  forward_bind forward_advance fun _ => forward_advance

/-- The text of a line comment is passed forward. -/
theorem forward_passLine : Forward passLine := forward_foldWhile _ _

/-- The text of a block comment is passed forward. -/
theorem forward_passBlock : Forward passBlock := by
  refine forward_bind (forward_foldShown _ _) fun _ => forward_bind forward_look fun x => ?_
  cases x with
  | none => exact forward_pure _
  | some _ => exact forward_bind forward_advance fun _ => forward_pure _

/-- A piece of a gap is passed forward. -/
theorem steady_skip (gap : Gap) : Steady gap.skip := by
  cases gap with
  | blank => exact steady_onCursor forward_advance
  | lineComment =>
    exact steady_bind (steady_onCursor forward_passOpener) fun _ =>
      steady_onCursor forward_passLine
  | blockComment =>
    refine steady_bind (steady_onCursor forward_passOpener) fun _ =>
      steady_bind (steady_setInComment _) fun _ =>
        steady_bind (steady_onCursor forward_passBlock) fun _ => ?_
    exact steady_ite (steady_setInComment _) (steady_pure _)

/-- A piece of a gap begins with a character. -/
theorem shown?_of_ahead? {c : Cursor} {gap : Gap} (h : ahead? c = some gap) :
    ∃ x, c.shown? = some x := by
  cases hx : c.shown? with
  | some x => exact ⟨x, rfl⟩
  | none => simp [ahead?, hx] at h

/-- A piece of a gap that begins at the cursor is not empty. -/
theorem skip_lt {s : Scanner} {gap : Gap} (h : ahead? s.cursor = some gap) :
    (stateAfter (gap.skip s)).cursor.remaining < s.cursor.remaining := by
  obtain ⟨x, hx⟩ := shown?_of_ahead? h
  have hopen : Shortens passOpener s.cursor :=
    (shortens_advance hx).bind fun _ => forward_advance
  -- a comment loses its opener, and nothing comes back after that
  have hcomment (rest : ScanM Unit) (hrest : Steady rest) :
      (stateAfter ((onCursor passOpener >>= fun _ => rest) s)).cursor.remaining
        < s.cursor.remaining := by
    have hlt := hopen
    rw [Shortens, ← cursor_onCursor] at hlt
    rw [ScanM.bind_apply]
    cases hr : onCursor passOpener s with
    | ok a s' =>
      rw [hr] at hlt
      exact Nat.lt_of_le_of_lt (hrest s').1.remaining_le hlt
    | error e s' =>
      rw [hr] at hlt
      exact hlt
  cases gap with
  | blank =>
    have hlt := shortens_advance hx
    rwa [Shortens, ← cursor_onCursor] at hlt
  | lineComment => exact hcomment _ (steady_onCursor forward_passLine)
  | blockComment =>
    refine hcomment _ (steady_bind (steady_setInComment _) fun _ => ?_)
    refine steady_bind (steady_onCursor forward_passBlock) fun _ => ?_
    exact steady_ite (steady_setInComment _) (steady_pure _)

end Progress

end Gap

namespace Scanner

/-- The cursor moves on to the next lexeme or to the end of the text. -/
def skipGaps : ScanM Unit := fun s =>
  match _piece : Gap.ahead? s.cursor with
  | none => .ok () s
  | some gap =>
    match _move : gap.skip s with
    | .error e s' => .error e s'
    | .ok _ s' => skipGaps s'
termination_by s => s.cursor.remaining
decreasing_by
  have := Gap.skip_lt _piece
  rwa [_move] at this

/-- Gaps are passed forward. -/
theorem steady_skipGaps : ScanM.Steady skipGaps := by
  intro s
  fun_induction skipGaps s with
  | case1 => exact ⟨.refl, rfl, rfl⟩
  | case2 s gap hgap e s' hr =>
    have h := Gap.steady_skip gap s
    rwa [hr] at h
  | case3 s gap hgap u s' hr ih =>
    have h := Gap.steady_skip gap s
    rw [hr] at h
    exact ⟨h.1.trans ih.1, ih.2.1.trans h.2.1, ih.2.2.trans h.2.2⟩

end Scanner

end Lexis
