import Lexis.Source.Alphabet
import Lexis.Source.Reader
import Lexis.Token.Basic

/-!
# Words

A word is made of letters, digits and underscores.  It is a keyword if it is
spelled like one, and otherwise a name.

* `Word.token`: the token that a word amounts to;
* `Word.read`: the longest word at the cursor;
* `Word.shortens_read`: a word that begins with one of its characters is not
  empty.
-/

namespace Lexis.Word

/-- The token that a word amounts to: its keyword if it spells one, which then
carries no text, and else a name. -/
def token (word : String) (start : Position) : Token :=
  match Keyword.ofSpelling? word with
  | some keyword => .bare (.keyword keyword) start
  | none => .identifier word start

/-- A word takes in one more character, if that may stand in a word. -/
def extend (word : String) (c : Char) : Option String :=
  if isWordChar c then some (word.push c) else none

/-- The longest word at the cursor, as a token that starts at `start`. -/
def read (start : Position) : CursorM Token := do
  let word ← CursorM.foldShown extend ""
  return token word start

/-! ### Progress -/

/-- A word is read forward. -/
theorem forward_read (start : Position) : CursorM.Forward (read start) :=
  CursorM.forward_bind (CursorM.forward_foldShown _ _) fun _ => CursorM.forward_pure _

/-- A word that begins with one of its characters is not empty. -/
theorem shortens_read {c : Cursor} {x : Char} (h : c.shown? = some x) (hx : isWordStart x)
    (start : Position) : CursorM.Shortens (read start) c := by
  have hs : extend "" x = some ("".push x) := by simp [extend, isWordChar_of_isWordStart hx]
  exact (CursorM.foldShown_lt h hs).bind fun _ => CursorM.forward_pure _

end Lexis.Word
