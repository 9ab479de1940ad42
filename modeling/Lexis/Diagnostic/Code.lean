/-!
# Diagnostic codes

A code names a kind of diagnostic for good: a short family name and a number,
so that a host can look the kind up whatever the wording of its message is.

* `Code.render`: the family, then the number with at least four digits;
* `Code.malformedLineEnding` and the seven codes after it: the lexical ones.
-/

namespace Lexis

/-- The lasting name of a kind of diagnostic. -/
structure Code where
  /-- The family of the code, such as `L` for the lexical ones. -/
  family : String
  /-- The number of the code within its family. -/
  number : UInt32
deriving DecidableEq

namespace Code

/-- A number in decimal, filled up with zeros on the left to four digits. -/
def paddedNumber (n : Nat) : String := String.ofList (n.repr.toList.leftpad 4 '0')

/-- A code in writing: its family, then its number with at least four digits. -/
def render (c : Code) : String := c.family ++ paddedNumber c.number.toNat

/-- A carriage return without its line feed. -/
def malformedLineEnding : Code := ⟨"L", 1⟩

/-- A block comment that the text does not close. -/
def unterminatedComment : Code := ⟨"L", 2⟩

/-- A quoted text that is not closed. -/
def unterminatedString : Code := ⟨"L", 3⟩

/-- A decimal point without a digit on either side. -/
def invalidNumber : Code := ⟨"L", 4⟩

/-- A whole number beyond the largest one. -/
def integerOverflow : Code := ⟨"L", 5⟩

/-- An exponent beyond the largest one. -/
def exponentOverflow : Code := ⟨"L", 6⟩

/-- A character that another one calls for and that is not there. -/
def missingCharacter : Code := ⟨"L", 7⟩

/-- A character that begins no lexeme. -/
def unrecognizedCharacter : Code := ⟨"L", 8⟩

end Code

end Lexis
