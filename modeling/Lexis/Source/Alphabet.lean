/-!
# The alphabet

The roles that characters play for the scanner.  Letters, digits and the
underscore are those of ASCII: a letter or digit of another script takes part
in no word and no numeral.

* `CharClass.of`: the role of a character that begins a lexeme;
* `isWordChar_of_isWordStart`: what begins a word may continue it;
* `digitValue?_lt`: a decimal digit has a value below ten.
-/

namespace Lexis

/-- The role of a character at the beginning of a lexeme. -/
inductive CharClass where
  /-- It begins a word. -/
  | wordStart
  /-- It begins a numeral with its whole part. -/
  | digit
  /-- It begins a numeral that has no whole part. -/
  | dot
  /-- It opens a quoted text. -/
  | quote
  /-- It stands between lexemes. -/
  | blank
  /-- It begins an operator mark, or nothing at all. -/
  | other
deriving DecidableEq

/-- May the character begin a word? -/
def isWordStart (c : Char) : Bool :=
  ('a' ≤ c && c ≤ 'z') || ('A' ≤ c && c ≤ 'Z') || c == '_'

/-- Is the character a decimal digit? -/
def isDigit (c : Char) : Bool := '0' ≤ c && c ≤ '9'

/-- May the character stand in a word after its first character? -/
def isWordChar (c : Char) : Bool := isWordStart c || isDigit c

/-- The value of a decimal digit. -/
def digitValue? (c : Char) : Option Nat :=
  if isDigit c then some (c.toNat - '0'.toNat) else none

/-- The role of a character at the beginning of a lexeme. -/
def CharClass.of (c : Char) : CharClass :=
  if isWordStart c then .wordStart
  else if isDigit c then .digit
  else if c = '.' then .dot
  else if c = '"' then .quote
  else if c = ' ' ∨ c = '\t' then .blank
  else .other

/-- What begins a word may also continue it. -/
theorem isWordChar_of_isWordStart {c : Char} (h : isWordStart c) : isWordChar c := by
  simp [isWordChar, h]

/-- A character has a digit's value exactly if it is a digit. -/
theorem digitValue?_isSome (c : Char) : (digitValue? c).isSome = isDigit c := by
  unfold digitValue?
  split <;> simp_all

/-- A digit's value is below ten. -/
theorem digitValue?_lt {c : Char} {d : Nat} (h : digitValue? c = some d) : d < 10 := by
  unfold digitValue? at h
  split at h
  next hc =>
    simp only [isDigit, Bool.and_eq_true, decide_eq_true_eq, Char.le_def,
      UInt32.le_iff_toNat_le] at hc
    have hd : c.toNat - '0'.toNat = d := by simpa using h
    have h9 : c.toNat ≤ 57 := hc.2
    have h0 : '0'.toNat = 48 := rfl
    omega
  next => simp at h

end Lexis
