import Lexis.Source.Reader
import Lexis.Token.Basic

/-!
# Quoted texts

A quoted text stands between double quotes.  A backslash gives the character
after it a meaning: a line feed, a carriage return or a tab for the letters
`n`, `r` and `t`, and a backslash for a second one.  Before any other character
the backslash stands for itself; before a quote it also keeps the quote from
closing the text.  A line break inside the quotes means a space.

* `Quoted.meaning`: what a character means after a backslash;
* `Quoted.read`: the quoted text at the cursor;
* `Quoted.shortens_read`: at least the opening quote is passed.
-/

namespace Lexis.Quoted

/-- What a character means after a backslash. -/
def meaning : Char → String
  | '\\' => "\\"
  | 'n' => "\n"
  | 'r' => "\r"
  | 't' => "\t"
  | c => "\\".push c

/-- What has been read between the quotes. -/
structure Body where
  /-- The text meant so far. -/
  text : String := ""
  /-- Was the last character a backslash that waits for its companion? -/
  escaped : Bool := false

/-- The body with one more character, unless that closes it. -/
def Body.extend (b : Body) (c : Char) : Option Body :=
  if b.escaped then some ⟨b.text ++ meaning c, false⟩
  else if c = '"' then none
  else if c = '\\' then some { b with escaped := true }
  else some ⟨b.text.push c, false⟩

/-- The body and the closing quote, as a token that starts at `start`. -/
def readBody (start : Position) : CursorM Token := do
  let body ← CursorM.foldShown Body.extend {}
  match ← CursorM.look with
  | none => CursorM.fail .unterminatedString start
  | some _ =>
    CursorM.advance
    return .string body.text start

/-- The quoted text at the cursor, as a token that starts at `start`.  Whatever
the window shows is passed as the opening quote. -/
def read (start : Position) : CursorM Token := do
  CursorM.advance
  readBody start

/-! ### Progress -/

open CursorM

/-- The body is read forward. -/
theorem forward_readBody (start : Position) : Forward (readBody start) := by
  refine forward_bind (forward_foldShown _ _) fun body => forward_bind forward_look fun x => ?_
  cases x with
  | none => exact forward_fail _ _
  | some _ => exact forward_bind forward_advance fun _ => forward_pure _

/-- A quoted text is read forward. -/
theorem forward_read (start : Position) : Forward (read start) :=
  forward_bind forward_advance fun _ => forward_readBody start

/-- At least the opening quote is passed. -/
theorem shortens_read {c : Cursor} {x : Char} (h : c.shown? = some x) (start : Position) :
    Shortens (read start) c :=
  (shortens_advance h).bind fun _ => forward_readBody start

end Lexis.Quoted
