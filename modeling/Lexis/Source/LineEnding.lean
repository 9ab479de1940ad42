/-!
# Line endings

A text breaks its lines with a line feed, or with a carriage return and a line
feed; the scanner sees one line break in either case.  A carriage return that
is not followed by a line feed is no line ending.

* `Pull.of`: the first unit of a text, and what is left behind it;
* `Pull.rest_lt`: a unit takes at least one character.
-/

namespace Lexis

/-- The first unit of a text and what is left behind it. -/
inductive Pull where
  /-- The text is empty. -/
  | exhausted
  /-- A line feed, or a carriage return and a line feed. -/
  | lineBreak (rest : List Char)
  /-- A character that takes no part in a line ending. -/
  | char (c : Char) (rest : List Char)
  /-- A carriage return without a line feed.  With the character after it, if
  there is one, it makes up the `taken` characters that are lost. -/
  | broken (taken : UInt32) (rest : List Char)

namespace Pull

/-- The first unit of a text. -/
def of : List Char → Pull
  | [] => exhausted
  | '\n' :: rest => lineBreak rest
  | '\r' :: '\n' :: rest => lineBreak rest
  | '\r' :: _ :: rest => broken 2 rest
  | ['\r'] => broken 1 []
  | c :: rest => char c rest

/-- What a unit leaves behind. -/
def rest : Pull → List Char
  | exhausted => []
  | lineBreak r => r
  | char _ r => r
  | broken _ r => r

/-- A unit takes at least one character. -/
theorem rest_lt {text : List Char} (h : text ≠ []) :
    (of text).rest.length < text.length := by
  fun_cases of text with
  | case1 => exact absurd rfl h
  | case2 rest => exact Nat.lt_succ_self _
  | case3 rest => exact Nat.lt_succ_of_lt (Nat.lt_succ_self _)
  | case4 x rest hx => exact Nat.lt_succ_of_lt (Nat.lt_succ_self _)
  | case5 => exact Nat.zero_lt_one
  | case6 c rest => exact Nat.lt_succ_self _

/-- Nothing grows behind a unit. -/
theorem rest_le (text : List Char) : (of text).rest.length ≤ text.length := by
  cases text with
  | nil => exact Nat.le_refl _
  | cons c text => exact Nat.le_of_lt (rest_lt (List.cons_ne_nil c text))

end Pull

end Lexis
