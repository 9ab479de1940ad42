import Lexis.Decimal.Layout
import Lexis.Json.Basic

/-!
# JSON in writing

A JSON value is written without a blank, its fields in their order.

* `Json.escape`: how one character is written inside a string;
* `Json.render`: a value in writing.
-/

namespace Lexis.Json

/-- How JSON shows a number: like a token, but with a sign before every
exponent, and with a tie between two decimals going to the even one. -/
def numbers : Decimal.Layout where
  plainFrom := -4
  plainUpTo := 15
  exponentSign := ['+']
  tie := .even
  infinity := "null"
  notANumber := "null"

/-- Four hexadecimal digits. -/
def hexDigits (n : Nat) : List Char := (Nat.toDigits 16 n).leftpad 4 '0'

/-- How a character is written inside a string: the quote, the backslash and the
controls below the space are escaped, everything else stands for itself. -/
def escape (c : Char) : List Char :=
  match c with
  | '"' => ['\\', '"']
  | '\\' => ['\\', '\\']
  | '\x08' => ['\\', 'b']
  | '\x0c' => ['\\', 'f']
  | '\n' => ['\\', 'n']
  | '\r' => ['\\', 'r']
  | '\t' => ['\\', 't']
  | c => if c < ' ' then '\\' :: 'u' :: hexDigits c.toNat else [c]

/-- A string in writing. -/
def stringChars (s : String) : List Char := '"' :: s.toList.flatMap escape ++ ['"']

mutual

/-- A value in writing, character by character. -/
def chars : Json → List Char
  | null => "null".toList
  | bool true => "true".toList
  | bool false => "false".toList
  | int n => n.repr.toList
  | float x => (numbers.render x).toList
  | string s => stringChars s
  | array items => '[' :: itemChars items ++ [']']
  | object fields => '\x7b' :: fieldChars fields ++ ['\x7d']

/-- The items of an array, with commas between them. -/
def itemChars : List Json → List Char
  | [] => []
  | [j] => j.chars
  | j :: k :: rest => j.chars ++ ',' :: itemChars (k :: rest)

/-- The fields of an object, with commas between them. -/
def fieldChars : List (String × Json) → List Char
  | [] => []
  | [(name, j)] => stringChars name ++ ':' :: j.chars
  | (name, j) :: f :: rest => stringChars name ++ ':' :: j.chars ++ ',' :: fieldChars (f :: rest)

end

/-- A value in writing. -/
def render (j : Json) : String := String.ofList j.chars

end Lexis.Json
