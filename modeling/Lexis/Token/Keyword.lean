/-!
# Keywords

The reserved words of the language.  A word is a keyword only in its exact
spelling: `True` is one, `true` is not.

* `Keyword.spelling`: how a keyword is written;
* `Keyword.table`, `Keyword.ofSpelling?`: the keyword written so, if there is one, from
  a table of its own;
* `Keyword.spelling_of_mem_table`: the table agrees with the spellings;
* `Keyword.ofSpelling?_eq_some_iff`: the two are inverse to each other.
-/

namespace Lexis

/-- The reserved words. -/
inductive Keyword where
  | ifWord | thenWord | elseWord | forWord | toWord | downtoWord | whileWord | doWord
  | repeatWord | untilWord | ofWord | endWord | breakWord | printWord | functionWord
  | trueWord | falseWord
  | divWord | modWord | andWord | orWord | notWord | xorWord
deriving DecidableEq

namespace Keyword

/-- How a keyword is written. -/
def spelling : Keyword → String
  | ifWord => "if"
  | thenWord => "then"
  | elseWord => "else"
  | forWord => "for"
  | toWord => "to"
  | downtoWord => "downto"
  | whileWord => "while"
  | doWord => "do"
  | repeatWord => "repeat"
  | untilWord => "until"
  | ofWord => "of"
  | endWord => "end"
  | breakWord => "break"
  | printWord => "print"
  | functionWord => "function"
  | trueWord => "True"
  | falseWord => "False"
  | divWord => "div"
  | modWord => "mod"
  | andWord => "and"
  | orWord => "or"
  | notWord => "not"
  | xorWord => "xor"

/-- The name of a keyword in records. -/
def label : Keyword → String
  | ifWord => "If"
  | thenWord => "Then"
  | elseWord => "Else"
  | forWord => "For"
  | toWord => "To"
  | downtoWord => "Downto"
  | whileWord => "While"
  | doWord => "Do"
  | repeatWord => "Repeat"
  | untilWord => "Until"
  | ofWord => "Of"
  | endWord => "End"
  | breakWord => "Break"
  | printWord => "Print"
  | functionWord => "Function"
  | trueWord => "True"
  | falseWord => "False"
  | divWord => "Div"
  | modWord => "Mod"
  | andWord => "And"
  | orWord => "Or"
  | notWord => "Not"
  | xorWord => "Xor"

/-- Does the keyword stand for an operation on two values or on one? -/
def isOperator : Keyword → Bool
  | divWord | modWord | andWord | orWord | notWord | xorWord => true
  | _ => false

/-- The reserved words one by one. -/
def all : List Keyword :=
  [ifWord, thenWord, elseWord, forWord, toWord, downtoWord, whileWord, doWord,
    repeatWord, untilWord, ofWord, endWord, breakWord, printWord, functionWord,
    trueWord, falseWord, divWord, modWord, andWord, orWord, notWord, xorWord]

/-- Every keyword is among them. -/
theorem mem_all (k : Keyword) : k ∈ all := by
  cases k <;> decide

/-- The table in which words are looked up. -/
def table : List (String × Keyword) :=
  [("if", ifWord), ("do", doWord), ("to", toWord), ("or", orWord), ("of", ofWord),
    ("end", endWord), ("for", forWord), ("and", andWord), ("xor", xorWord), ("not", notWord),
    ("div", divWord), ("mod", modWord), ("then", thenWord), ("else", elseWord),
    ("True", trueWord), ("False", falseWord), ("while", whileWord), ("until", untilWord),
    ("break", breakWord), ("print", printWord), ("repeat", repeatWord),
    ("downto", downtoWord), ("function", functionWord)]

/-- The keyword that is written so, if there is one. -/
def ofSpelling? (word : String) : Option Keyword := table.lookup word

/-- The table has every word beside the keyword that is written so. -/
theorem spelling_of_mem_table {entry : String × Keyword} (h : entry ∈ table) :
    entry.2.spelling = entry.1 := by
  have hall : ∀ entry ∈ table, entry.2.spelling = entry.1 := by decide
  exact hall entry h

/-- Every keyword is found under its own spelling. -/
theorem ofSpelling?_spelling (k : Keyword) : ofSpelling? k.spelling = some k := by
  cases k <;> decide

/-- A word is found in the table exactly as the keyword that it spells. -/
theorem ofSpelling?_eq_some_iff {word : String} {k : Keyword} :
    ofSpelling? word = some k ↔ k.spelling = word := by
  constructor
  · intro h
    obtain ⟨l₁, l₂, htable, -⟩ := List.lookup_eq_some_iff.mp h
    have hmem : (word, k) ∈ table := by simp [htable]
    exact spelling_of_mem_table hmem
  · rintro rfl
    exact ofSpelling?_spelling k

end Keyword

end Lexis
