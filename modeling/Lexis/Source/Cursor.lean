import Lexis.Source.Position

/-!
# The cursor

A cursor goes through a text with a window of one glyph.  A glyph is a
character or a line break, and a line break is shown as a space.  The cursor
counts the lines it has broken and the characters it has taken on the last of
them, both characters of a carriage return and line feed included.

* `Cursor.glyph?`, `Cursor.shown?`: what the window shows;
* `Cursor.rest`: what the text holds behind the window;
* `Cursor.remaining`: how much the cursor can still move, which is nothing
  exactly if the text is at its end (`remaining_eq_zero_iff`).
-/

namespace Lexis

/-- What the window of a cursor can show. -/
inductive Glyph where
  /-- The end of a line. -/
  | lineBreak
  /-- A character, as it stands in the text. -/
  | char (c : Char)
deriving DecidableEq

/-- The character that stands for a glyph: a line break is shown as a space. -/
def Glyph.shown : Glyph → Char
  | .lineBreak => ' '
  | .char c => c

/-- What a cursor has before it. -/
inductive Ahead where
  /-- The text is at its end. -/
  | ended
  /-- A glyph is in the window, and the rest of the text is behind it. -/
  | shows (glyph : Glyph) (rest : List Char)
deriving DecidableEq

/-- A place in a text that is being read. -/
structure Cursor where
  /-- What is still to be read. -/
  ahead : Ahead := .ended
  /-- The line, and the number of characters taken on it. -/
  position : Position := .start
deriving DecidableEq

namespace Cursor

/-- The cursor of no text. -/
def empty : Cursor := {}

/-- The character that is shown when there is nothing to be seen. -/
def endMark : Char := '\x00'

/-- The cursor in front of a text, before its first glyph comes into the
window. -/
def before (text : List Char) : Cursor := ⟨.shows (.char endMark) text, .start⟩

/-! ### The window -/

/-- The glyph in the window. -/
def glyph? (c : Cursor) : Option Glyph :=
  match c.ahead with
  | .ended => none
  | .shows g _ => some g

/-- The character in the window. -/
def shown? (c : Cursor) : Option Char := c.glyph?.map (·.shown)

/-- The character in the window, or the end mark. -/
def current (c : Cursor) : Char := c.shown?.getD endMark

/-- Is the text at its end? -/
def atEnd (c : Cursor) : Bool := c.glyph?.isNone

/-- Does the window show a line break? -/
def atLineBreak (c : Cursor) : Bool := c.glyph? = some .lineBreak

/-- What the text holds behind the window. -/
def rest (c : Cursor) : List Char :=
  match c.ahead with
  | .ended => []
  | .shows _ rest => rest

/-- The character behind the window, as it stands in the text: a carriage
return is not joined to its line feed. -/
def next? (c : Cursor) : Option Char := c.rest.head?

/-! ### How far the cursor can still move -/

/-- The characters behind the window, and one for the window itself unless the
text is at its end. -/
def remaining (c : Cursor) : Nat :=
  match c.ahead with
  | .ended => 0
  | .shows _ rest => rest.length + 1

/-- A text is at its end exactly if the cursor cannot move any more. -/
theorem remaining_eq_zero_iff (c : Cursor) : c.remaining = 0 ↔ c.atEnd := by
  unfold remaining atEnd glyph?
  split <;> simp_all

/-- A cursor that shows something has the window and the rest before it. -/
theorem ahead_of_glyph? {c : Cursor} {g : Glyph} (h : c.glyph? = some g) :
    c.ahead = .shows g c.rest := by
  unfold glyph? at h
  unfold rest
  split at h <;> simp_all

/-- A cursor that shows nothing is at the end of the text. -/
theorem ahead_of_glyph?_none {c : Cursor} (h : c.glyph? = none) : c.ahead = .ended := by
  unfold glyph? at h
  split at h <;> simp_all

/-- The window and the rest count what remains. -/
theorem remaining_of_glyph? {c : Cursor} {g : Glyph} (h : c.glyph? = some g) :
    c.remaining = c.rest.length + 1 := by
  rw [remaining, ahead_of_glyph? h]

end Cursor

end Lexis
