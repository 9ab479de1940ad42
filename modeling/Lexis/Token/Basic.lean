import Lexis.Decimal.Layout
import Lexis.Source.Position
import Lexis.Text.Quotation
import Lexis.Token.Kind

/-!
# Tokens

A token is a lexeme taken from a text: its kind, the place where it starts,
and what it means.  A word or a quoted text means its characters, a numeral
its value; the values that do not belong to the kind of a token are empty.

* `Token.bare`, `Token.identifier`, `Token.string`, `Token.integer`,
  `Token.float`, `Token.endOfText`: tokens of every kind;
* `Token.agrees`: do two tokens agree, as numbers where they are numbers?
* `Token.scalar`: the value of a number of either kind;
* `Token.spelling`: a text of which the token could have been taken;
* `Token.describe`: the token in words, as diagnostics speak of it.
-/

namespace Lexis

/-- A lexeme taken from a text. -/
structure Token where
  /-- What it is. -/
  kind : Kind
  /-- Where it starts. -/
  position : Position
  /-- The characters of a word or of a quoted text. -/
  text : String := ""
  /-- The value of a whole number. -/
  intValue : Int64 := 0
  /-- The value of a number with a fraction or an exponent. -/
  floatValue : Float := 0
deriving DecidableEq

namespace Token

/-- A token that means no more than its kind. -/
def bare (kind : Kind) (p : Position) : Token := { kind, position := p }

/-- A word that is not reserved. -/
def identifier (text : String) (p : Position) : Token := { bare .identifier p with text }

/-- A quoted text. -/
def string (text : String) (p : Position) : Token := { bare .string p with text }

/-- A whole number. -/
def integer (n : Int64) (p : Position) : Token := { bare .integer p with intValue := n }

/-- A number with a fraction or an exponent. -/
def float (x : Float) (p : Position) : Token := { bare .float p with floatValue := x }

/-- The end of the text. -/
def endOfText (p : Position) : Token := bare .endOfText p

/-- Do two tokens agree, with their numbers compared as numbers?  Then the two
zeros are equal, and what is no number differs even from itself. -/
def agrees (t u : Token) : Bool :=
  t.kind = u.kind && t.position = u.position && t.text = u.text
    && t.intValue = u.intValue && t.floatValue == u.floatValue

/-- The value of a number of either kind; what is no number counts as zero. -/
def scalar (t : Token) : Float :=
  match t.kind with
  | .integer => Float.ofInt t.intValue.toInt
  | .float => t.floatValue
  | _ => 0

/-! ### In writing -/

/-- How tokens show a number: plainly between a ten-thousandth and ten to the
sixteenth, and with an exponent outside; a tie between two decimals goes to
the greater one. -/
def numbers : Decimal.Layout where
  plainFrom := -4
  plainUpTo := 15
  exponentSign := []
  tie := .up
  infinity := "inf"
  notANumber := "NaN"

/-- The spelling of the token.  A quoted text stands between quotes as it is,
without an escape. -/
def spelling (t : Token) : String :=
  match t.kind with
  | .identifier => t.text
  | .string => "\"" ++ t.text ++ "\""
  | .integer => t.intValue.toInt.repr
  | .float => numbers.render t.floatValue
  | kind => kind.spelling

/-- The token in words. -/
def describe (t : Token) : String :=
  match t.kind with
  | .identifier => "identifier '" ++ t.text ++ "'"
  | .string => "string " ++ Text.quoteString t.text
  | .integer => "integer " ++ t.intValue.toInt.repr
  | .float => "float " ++ numbers.render t.floatValue
  | kind => kind.describe

end Token

end Lexis
