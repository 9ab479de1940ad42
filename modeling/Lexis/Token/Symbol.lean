/-!
# Symbols

The operator and punctuation marks.  All of them are one character, or one
character and an equals sign; two are reserved and appear in no text as yet.

* `Symbol.spelling`: how a symbol is written;
* `Symbol.ofChar?`: the symbols that one character makes up by itself;
* `Symbol.beforeEquals?`: the characters that an equals sign may follow.
-/

namespace Lexis

/-- The operator and punctuation marks. -/
inductive Symbol where
  | plus | minus | star | slash | caret
  | lt | ltEq | gt | gtEq | eq | eqEq | notEq
  | lParen | rParen | lBracket | rBracket | lBrace | rBrace
  | semicolon | colon | comma | apostrophe
  | arrow | dollar
deriving DecidableEq

namespace Symbol

/-- How a symbol is written. -/
def spelling : Symbol → String
  | plus => "+"
  | minus => "-"
  | star => "*"
  | slash => "/"
  | caret => "^"
  | lt => "<"
  | ltEq => "<="
  | gt => ">"
  | gtEq => ">="
  | eq => "="
  | eqEq => "=="
  | notEq => "!="
  | lParen => "("
  | rParen => ")"
  | lBracket => "["
  | rBracket => "]"
  | lBrace => "\x7b"
  | rBrace => "\x7d"
  | semicolon => ";"
  | colon => ":"
  | comma => ","
  | apostrophe => "'"
  | arrow => "->"
  | dollar => "$"

/-- The name of a symbol in records. -/
def label : Symbol → String
  | plus => "Plus"
  | minus => "Minus"
  | star => "Star"
  | slash => "Slash"
  | caret => "Caret"
  | lt => "Lt"
  | ltEq => "LtEq"
  | gt => "Gt"
  | gtEq => "GtEq"
  | eq => "Eq"
  | eqEq => "EqEq"
  | notEq => "NotEq"
  | lParen => "LParen"
  | rParen => "RParen"
  | lBracket => "LBracket"
  | rBracket => "RBracket"
  | lBrace => "LBrace"
  | rBrace => "RBrace"
  | semicolon => "Semicolon"
  | colon => "Colon"
  | comma => "Comma"
  | apostrophe => "Apostrophe"
  | arrow => "Arrow"
  | dollar => "Dollar"

/-- Does the symbol stand for an operation, be it on numbers, an order or an
equality? -/
def isOperator : Symbol → Bool
  | plus | minus | star | slash | caret => true
  | lt | ltEq | gt | gtEq | eq | eqEq | notEq => true
  | _ => false

/-- Is the symbol kept for later use?  No text contains it as yet. -/
def isReserved : Symbol → Bool
  | arrow | dollar => true
  | _ => false

/-- All symbols. -/
def all : List Symbol :=
  [plus, minus, star, slash, caret, lt, ltEq, gt, gtEq, eq, eqEq, notEq, lParen, rParen,
    lBracket, rBracket, lBrace, rBrace, semicolon, colon, comma, apostrophe, arrow, dollar]

/-- The list leaves out no symbol. -/
theorem mem_all (s : Symbol) : s ∈ all := by
  cases s <;> decide

/-- The symbol that one character makes up by itself, whatever follows it. -/
def ofChar? : Char → Option Symbol
  | '+' => some plus
  | '-' => some minus
  | '*' => some star
  | '/' => some slash
  | '^' => some caret
  | '(' => some lParen
  | ')' => some rParen
  | '[' => some lBracket
  | ']' => some rBracket
  | '\x7b' => some lBrace
  | '\x7d' => some rBrace
  | ';' => some semicolon
  | ':' => some colon
  | '\'' => some apostrophe
  | ',' => some comma
  | _ => none

/-- A character that an equals sign may follow: the symbol that it makes up
without the sign, if it does so, and the symbol with the sign. -/
def beforeEquals? : Char → Option (Option Symbol × Symbol)
  | '<' => some (some lt, ltEq)
  | '>' => some (some gt, gtEq)
  | '=' => some (some eq, eqEq)
  | '!' => some (none, notEq)
  | _ => none

/-- A symbol of one character is written with it. -/
theorem spelling_of_ofChar? {c : Char} {s : Symbol} (h : ofChar? c = some s) :
    s.spelling = String.ofList [c] := by
  unfold ofChar? at h
  split at h <;> simp only [Option.some.injEq, reduceCtorEq] at h <;> subst h <;> rfl

end Symbol

end Lexis
