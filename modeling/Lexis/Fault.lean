import Lexis.Diagnostic.Log
import Lexis.Text.Quotation

/-!
# Lexical faults

A fault is the end of a scan: what is wrong with the text, and where.  The
scanner never mends a text; it hands the fault to its caller.

* `Cause`: what can be wrong with a text;
* `Fault.message`: the fault in one sentence;
* `Fault.diagnostic`: the fault as an error, under the code of its cause and
  with what there is to explain or to advise.
-/

namespace Lexis

/-- The largest value of a whole number. -/
def maxInteger : Nat := Nat.pow 2 63 - 1

/-- The largest exponent of a numeral, its sign left aside. -/
def maxExponent : Nat := 308

/-- What is wrong with a text. -/
inductive Cause where
  /-- A carriage return is not followed by a line feed. -/
  | malformedLineEnding
  /-- The text ends inside a block comment. -/
  | unterminatedComment
  /-- The text ends inside a quoted text. -/
  | unterminatedString
  /-- A decimal point has no digit on either side. -/
  | invalidNumber
  /-- A whole number is beyond the largest one. -/
  | integerOverflow
  /-- An exponent is beyond the largest one. -/
  | exponentOverflow
  /-- What has to come after a character is not there. -/
  | missingCharacter (expected : String) (after : Char)
  /-- A character begins no lexeme. -/
  | unrecognizedCharacter (found : Char)
deriving DecidableEq

/-- A cause and the place where it was met. -/
structure Fault where
  /-- What is wrong. -/
  cause : Cause
  /-- Where. -/
  position : Position
deriving DecidableEq

/-- The lasting code of a cause. -/
def Cause.code : Cause → Code
  | .malformedLineEnding => .malformedLineEnding
  | .unterminatedComment => .unterminatedComment
  | .unterminatedString => .unterminatedString
  | .invalidNumber => .invalidNumber
  | .integerOverflow => .integerOverflow
  | .exponentOverflow => .exponentOverflow
  | .missingCharacter .. => .missingCharacter
  | .unrecognizedCharacter _ => .unrecognizedCharacter

/-- The explanation that goes with a cause. -/
def Cause.notes : Cause → List String
  | .malformedLineEnding => ["line endings must be LF or CRLF"]
  | _ => []

/-- The advice that goes with a cause. -/
def Cause.helps : Cause → List String
  | .unterminatedComment => ["close the comment with '*/'"]
  | .unterminatedString => ["add a closing '\"'"]
  | _ => []

namespace Fault

/-- The fault in one sentence. -/
def message (f : Fault) : String :=
  let place := f.position.render
  match f.cause with
  | .malformedLineEnding =>
    "malformed line ending at " ++ place
      ++ ": carriage return must be followed by a line feed"
  | .unterminatedComment =>
    "unterminated block comment: end of input reached at " ++ place
  | .unterminatedString => "unterminated string literal starting at " ++ place
  | .invalidNumber =>
    "invalid number literal at " ++ place ++ ": expected a digit before or after '.'"
  | .integerOverflow =>
    "integer literal at " ++ place ++ " exceeds the maximum value " ++ maxInteger.repr
  | .exponentOverflow =>
    "exponent of number literal at " ++ place ++ " exceeds " ++ maxExponent.repr
  | .missingCharacter expected after =>
    "expected " ++ expected ++ " after '" ++ after.toString ++ "' at " ++ place
  | .unrecognizedCharacter found =>
    "unrecognized character " ++ Text.quoteChar found ++ " at " ++ place

/-- The fault as an error to be shown. -/
def diagnostic (f : Fault) : Diagnostic where
  level := .error
  message := f.message
  position := f.position
  code := some f.cause.code
  notes := f.cause.notes
  helps := f.cause.helps

/-- The log with the fault recorded as an error. -/
def report (f : Fault) (log : Log) : Log := log.record f.diagnostic

end Fault

end Lexis
