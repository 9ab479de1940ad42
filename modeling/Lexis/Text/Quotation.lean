import Lexis.Text.Standalone

/-!
# Quotations

A text is shown between marks in a form that can be read off a single line:
what does not stand alone is written by a letter or by its number, and the
enclosing mark is preceded by a backslash.

* `escape`: how one character is written inside a quotation;
* `quoteChar`, `quoteString`: a character between apostrophes, a text between
  double quotes;
* `escape_of_standsAlone`: a character that stands alone, and is neither the
  enclosing mark nor a backslash, is written as itself.
-/

namespace Lexis.Text

/-- A code point as an escape by number: lower-case hexadecimal digits between
braces. -/
def escapeByNumber (c : Char) : List Char :=
  '\\' :: 'u' :: '\x7b' :: Nat.toDigits 16 c.toNat ++ ['\x7d']

/-- How a character is written inside a quotation that `mark` encloses. -/
def escape (mark c : Char) : List Char :=
  if c = '\x00' then ['\\', '0']
  else if c = '\t' then ['\\', 't']
  else if c = '\r' then ['\\', 'r']
  else if c = '\n' then ['\\', 'n']
  else if c = '\\' ∨ c = mark then ['\\', c]
  else if standsAlone c then [c]
  else escapeByNumber c

/-- A quotation between two `mark`s. -/
def quote (mark : Char) (cs : List Char) : String :=
  String.ofList (mark :: cs.flatMap (escape mark) ++ [mark])

/-- A character between apostrophes. -/
def quoteChar (c : Char) : String := quote '\'' [c]

/-- A text between double quotes. -/
def quoteString (s : String) : String := quote '"' s.toList

/-- A character that stands alone, and is neither the enclosing mark nor a
backslash, is written as itself. -/
theorem escape_of_standsAlone {mark c : Char} (h : standsAlone c) (hm : c ≠ mark)
    (hb : c ≠ '\\') : escape mark c = [c] := by
  have h0 : c ≠ '\x00' := by rintro rfl; exact absurd h (by decide)
  have ht : c ≠ '\t' := by rintro rfl; exact absurd h (by decide)
  have hr : c ≠ '\r' := by rintro rfl; exact absurd h (by decide)
  have hn : c ≠ '\n' := by rintro rfl; exact absurd h (by decide)
  simp [escape, h0, ht, hr, hn, hm, hb, h]

end Lexis.Text
