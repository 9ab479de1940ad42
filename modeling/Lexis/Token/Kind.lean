import Lexis.Token.Keyword
import Lexis.Token.Symbol

/-!
# Kinds of tokens

A token is a word, a number, a quoted text, a keyword, a symbol, or the end of
the text.  Keywords and symbols say by themselves how they are written; the
other kinds stand for many spellings.

* `Kind.spelling`: the spelling of a kind, or a placeholder for it;
* `Kind.describe`: the kind in words, as diagnostics speak of it;
* `Kind.ofLabel?_eq_some_iff`: a kind is found by its name in records.
-/

namespace Lexis

/-- What a token is. -/
inductive Kind where
  /-- A word that is not reserved. -/
  | identifier
  /-- A whole number. -/
  | integer
  /-- A number with a fraction or an exponent. -/
  | float
  /-- A quoted text. -/
  | string
  /-- A reserved word. -/
  | keyword (word : Keyword)
  /-- An operator or punctuation mark. -/
  | symbol (mark : Symbol)
  /-- The end of the text. -/
  | endOfText
deriving DecidableEq

namespace Kind

/-- Is it a reserved word? -/
def isKeyword : Kind → Bool
  | keyword _ => true
  | _ => false

/-- Does it stand for an operation, be it by a word or by a symbol? -/
def isOperator : Kind → Bool
  | keyword word => word.isOperator
  | symbol mark => mark.isOperator
  | _ => false

/-- The spelling of the kind, or a placeholder between angle brackets if it has
no spelling of its own. -/
def spelling : Kind → String
  | identifier => "<identifier>"
  | integer => "<integer>"
  | float => "<float>"
  | string => "<string>"
  | keyword word => word.spelling
  | symbol mark => mark.spelling
  | endOfText => "<eof>"

/-- The kind in words. -/
def describe : Kind → String
  | identifier => "identifier"
  | integer => "integer literal"
  | float => "float literal"
  | string => "string literal"
  | keyword word =>
    (if word.isOperator then "operator '" else "keyword '") ++ word.spelling ++ "'"
  | symbol mark => "'" ++ mark.spelling ++ "'"
  | endOfText => "end of input"

/-! ### Names in records -/

/-- The name of the kind in records. -/
def label : Kind → String
  | identifier => "Identifier"
  | integer => "Integer"
  | float => "Float"
  | string => "String"
  | keyword word => word.label
  | symbol mark => mark.label
  | endOfText => "Eof"

/-- All kinds. -/
def all : List Kind :=
  [identifier, integer, float, string, endOfText]
    ++ Keyword.all.map keyword ++ Symbol.all.map symbol

/-- The list leaves out no kind. -/
theorem mem_all (k : Kind) : k ∈ all := by
  cases k <;> simp [all, Keyword.mem_all, Symbol.mem_all]

/-- The kind of a name in records, if it is one. -/
def ofLabel? (name : String) : Option Kind := all.find? (·.label = name)

/-- Every kind is found under its own name. -/
theorem ofLabel?_label (k : Kind) : ofLabel? k.label = some k := by
  cases k with
  | keyword word => cases word <;> decide
  | symbol mark => cases mark <;> decide
  | _ => decide

/-- A kind is found exactly by its own name. -/
theorem ofLabel?_eq_some_iff {name : String} {k : Kind} :
    ofLabel? name = some k ↔ k.label = name := by
  constructor
  · intro h
    simpa using List.find?_some h
  · rintro rfl
    exact ofLabel?_label k

end Kind

end Lexis
