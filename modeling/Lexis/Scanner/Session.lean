import Lexis.Scanner.Next

/-!
# Sessions

A scanner is pointed at one text after another.  A new text takes the place of
the old one with everything that was known about it; only the tokens that were
given back are kept.  A text may also come from a file, whose reading may
fail, and then the scanner stays at its old text.

* `SessionFault`: why a session with a file cannot begin, be it for a fault of its
  text or for a reason of the system's;
* `Scanner.load`: a new text;
* `Scanner.loadFile`: a new text out of what the reading of a file brought.
-/

namespace Lexis

/-- Why a file cannot be scanned. -/
inductive ReadFailure where
  /-- There is no such file. -/
  | notFound
  /-- There is a directory in its place. -/
  | isDirectory
  /-- What the file holds is no text in UTF-8. -/
  | notText
deriving DecidableEq

/-- The failure as the system words it. -/
def ReadFailure.message : ReadFailure → String
  | .notFound => "No such file or directory (os error 2)"
  | .isDirectory => "Is a directory (os error 21)"
  | .notText => "stream did not contain valid UTF-8"

/-- Why a session with a file cannot begin, if `ρ` are the reasons for which a file
cannot be read. -/
inductive SessionFault (ρ : Type) where
  /-- The file cannot be read. -/
  | unreadable (failure : ρ)
  /-- The first glyph of its text is malformed. -/
  | lexical (fault : Fault)
deriving DecidableEq

/-- Why a session with a file of the system cannot begin. -/
abbrev SourceFault := SessionFault ReadFailure

/-- The reason in one sentence. -/
def SourceFault.message : SourceFault → String
  | .unreadable failure => "failed to read source: " ++ failure.message
  | .lexical fault => fault.message

/-- The text that the bytes of a file stand for. -/
def decodeText (bytes : ByteArray) : Except ReadFailure String :=
  match String.fromUTF8? bytes with
  | some text => .ok text
  | none => .error .notText

namespace Scanner

/-- The scanner before a new text: no token has been handed out or begun, no comment
was opened, and the stream has not come to its end. -/
def renewed (s : Scanner) : Scanner :=
  { s with token := .endOfText .start, tokenStart := .start, inComment := false,
           exhausted := false }

/-- A new text, with its first glyph in the window. -/
def load (text : String) : ScanM Unit := fun s =>
  ScanM.onCursor (CursorM.load text.toList) s.renewed

/-- A new text out of what the reading of a file brought.  If it brought no
text, the scanner stays as it is. -/
def loadFile {ρ : Type} (contents : Except ρ String) :
    EStateM (SessionFault ρ) Scanner Unit := fun s =>
  match contents with
  | .error failure => .error (.unreadable failure) s
  | .ok text =>
    match load text s with
    | .ok u s' => .ok u s'
    | .error fault s' => .error (.lexical fault) s'

end Scanner

end Lexis
