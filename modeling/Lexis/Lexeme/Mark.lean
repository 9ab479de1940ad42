import Lexis.Source.Reader
import Lexis.Token.Basic

/-!
# Operator and punctuation marks

A mark takes the characters of its symbol and no more.  A character that an
equals sign may follow takes the sign with it; an exclamation mark is nothing
without it.

* `Mark.read`: the mark at the cursor;
* `Mark.shortens_read`: a mark that is read is not empty.
-/

namespace Lexis.Mark

/-- The symbol whose first character `c` is in the window, with the equals sign
after it if that is there. -/
def readBeforeEquals (c : Char) (alone : Option Symbol) (joined : Symbol) : CursorM Symbol := do
  CursorM.advance
  if ← CursorM.take '=' then
    return joined
  else
    match alone with
    | some symbol => return symbol
    | none => CursorM.fail (.missingCharacter "'='" c) (← CursorM.place)

/-- The symbol whose first character `c` is in the window.  A character that
begins no symbol is a fault at `start`, and stays in the window. -/
def readSymbol (c : Char) (start : Position) : CursorM Symbol :=
  match Symbol.beforeEquals? c with
  | some (alone, joined) => readBeforeEquals c alone joined
  | none =>
    match Symbol.ofChar? c with
    | some symbol => do
      CursorM.advance
      return symbol
    | none => CursorM.fail (.unrecognizedCharacter c) start

/-- The mark at the cursor, as a token that starts at `start`.  At the end of
the text it is the end mark that begins no symbol. -/
def read (start : Position) : CursorM Token := do
  let shown ← CursorM.look
  let symbol ← readSymbol (shown.getD Cursor.endMark) start
  return .bare (.symbol symbol) start

/-! ### Progress -/

open CursorM

/-- A symbol that an equals sign may join is read forward. -/
theorem forward_readBeforeEquals (c : Char) (alone : Option Symbol) (joined : Symbol) :
    Forward (readBeforeEquals c alone joined) := by
  refine forward_bind forward_advance fun _ => forward_bind (forward_take _) fun _ =>
    forward_ite (forward_pure _) ?_
  cases alone with
  | none => exact forward_bind forward_place fun _ => forward_fail _ _
  | some symbol => exact forward_pure _

/-- A symbol is read forward. -/
theorem forward_readSymbol (c : Char) (start : Position) : Forward (readSymbol c start) := by
  unfold readSymbol
  split
  next => exact forward_readBeforeEquals _ _ _
  next =>
    split
    next => exact forward_bind forward_advance fun _ => forward_pure _
    next => exact forward_fail _ _

/-- A mark is read forward. -/
theorem forward_read (start : Position) : Forward (read start) :=
  forward_bind forward_look fun _ => forward_bind (forward_readSymbol _ _) fun _ =>
    forward_pure _

/-- A symbol that is read takes at least the character in the window. -/
theorem shortens_readSymbol {c c' : Cursor} {x : Char} {start : Position} {s : Symbol}
    (h : c.shown? = some x) (hr : readSymbol x start c = .ok s c') :
    Shortens (readSymbol x start) c := by
  have hadvance := shortens_advance h
  unfold readSymbol at hr ⊢
  cases hb : Symbol.beforeEquals? x with
  | some forms =>
    obtain ⟨alone, joined⟩ := forms
    refine hadvance.bind fun _ => forward_bind (forward_take _) fun _ =>
      forward_ite (forward_pure _) ?_
    cases alone with
    | none => exact forward_bind forward_place fun _ => forward_fail _ _
    | some symbol => exact forward_pure _
  | none =>
    cases hc : Symbol.ofChar? x with
    | some symbol => exact hadvance.bind fun _ => forward_pure _
    | none =>
      simp only [hb, hc] at hr
      exact nomatch hr

/-- A mark that is read is not empty. -/
theorem shortens_read {c c' : Cursor} {x : Char} {start : Position} {t : Token}
    (h : c.shown? = some x) (hr : read start c = .ok t c') : Shortens (read start) c := by
  have hlook : look c = .ok (some x) c := by rw [look, h]
  refine Shortens.bind_of_eq hlook (Shortens.bind ?_ fun _ => forward_pure _)
  rw [read, bind_apply, hlook] at hr
  simp only [Option.getD_some, bind_apply] at hr
  cases hs : readSymbol x start c with
  | ok symbol c'' => exact shortens_readSymbol h hs
  | error e c'' =>
    rw [hs] at hr
    cases hr

end Lexis.Mark
