import Lexis.Source.Position
import Lexis.Diagnostic.Code

/-!
# Diagnostics

A diagnostic is a message about a text, ready to be shown: how grave it is,
what it says, where, under which code, and what is to be added by way of
explanation and of advice.

* `Diagnostic.note` and `Diagnostic.help` add one line each, in order;
* `Diagnostic.render`: the diagnostic in writing, one line for the message, one
  for the place if it has one, and one for every note and every help.
-/

namespace Lexis

/-- How grave a diagnostic is. -/
inductive Level where
  /-- The work at hand cannot go on. -/
  | error
  /-- The work goes on all the same. -/
  | warning
  /-- An explanation. -/
  | note
  /-- A piece of advice. -/
  | help
deriving DecidableEq

/-- The level in writing. -/
def Level.render : Level → String
  | .error => "error"
  | .warning => "warning"
  | .note => "note"
  | .help => "help"

/-- A message about a text. -/
structure Diagnostic where
  /-- How grave it is. -/
  level : Level
  /-- What it says. -/
  message : String
  /-- Where, with `Position.nowhere` for a message about no place. -/
  position : Position := .nowhere
  /-- The code of its kind, if it has one. -/
  code : Option Code := none
  /-- Explanations, in order. -/
  notes : List String := []
  /-- Pieces of advice, in order. -/
  helps : List String := []
deriving DecidableEq

namespace Diagnostic

/-- The diagnostic under a code. -/
def coded (d : Diagnostic) (c : Code) : Diagnostic := { d with code := some c }

/-- The diagnostic about a place. -/
def located (d : Diagnostic) (p : Position) : Diagnostic := { d with position := p }

/-- The diagnostic with one more explanation. -/
def note (d : Diagnostic) (text : String) : Diagnostic :=
  { d with notes := d.notes ++ [text] }

/-- The diagnostic with one more piece of advice. -/
def help (d : Diagnostic) (text : String) : Diagnostic :=
  { d with helps := d.helps ++ [text] }

/-! ### In writing -/

/-- The first line: level, code in brackets, message. -/
def headline (d : Diagnostic) : String :=
  match d.code with
  | some c => d.level.render ++ "[" ++ c.render ++ "]: " ++ d.message
  | none => d.level.render ++ ": " ++ d.message

/-- The line of the place, which a message about no place does not have. -/
def locationLines (d : Diagnostic) : List String :=
  if d.position.isNowhere then [] else ["  --> " ++ d.position.render]

/-- All lines of the diagnostic. -/
def lines (d : Diagnostic) : List String :=
  d.headline :: d.locationLines
    ++ d.notes.map ("  = note: " ++ ·)
    ++ d.helps.map ("  = help: " ++ ·)

/-- The diagnostic in writing: its lines, with a line feed between them. -/
def render (d : Diagnostic) : String := "\n".intercalate d.lines

end Diagnostic

end Lexis
