import Lexis.Decimal.Shortest

/-!
# Doubles in writing

A double is written by its shortest decimal, either plainly, with a decimal
point, or with one digit before the point and a power of ten after a mark.
What differs from one format to another is held in a `Layout`.

* `Layout.plain`, `Layout.scaled`: the two forms;
* `Layout.render`: a double in writing.
-/

namespace Lexis.Decimal

/-- The decisions of a format about its numbers. -/
structure Layout where
  /-- The least power of ten of the first digit for which the plain form is
  used. -/
  plainFrom : Int
  /-- The greatest power of ten of the first digit for which the plain form is
  used. -/
  plainUpTo : Int
  /-- What stands before an exponent that is not negative. -/
  exponentSign : List Char
  /-- Which of two equally near decimals of the same length is written. -/
  tie : Tie
  /-- The text for infinity, its sign left aside. -/
  infinity : String
  /-- The text for a value that is no number. -/
  notANumber : String

/-- The digits of a number, without the zeros at its end. -/
def significantDigits (n : Nat) : List Char :=
  (n.repr.toList.reverse.dropWhile (· = '0')).reverse

/-- The power of ten that the first digit of a decimal counts. -/
def leading (d : Decimal) : Int := d.exponent + d.coefficient.repr.length - 1

namespace Layout

/-- The plain form of digits whose first one counts `10 ^ e`: at least one digit
on either side of the point. -/
def plain (digits : List Char) (e : Int) : List Char :=
  if e < 0 then
    '0' :: '.' :: List.replicate (-e - 1).toNat '0' ++ digits
  else
    let whole := digits.take (e.toNat + 1)
    let fraction := digits.drop (e.toNat + 1)
    whole.rightpad (e.toNat + 1) '0' ++ '.' :: (if fraction.isEmpty then ['0'] else fraction)

/-- The form with a power of ten: one digit before the point, and no point if
no digit follows. -/
def scaled (l : Layout) (digits : List Char) (e : Int) : List Char :=
  let sign := if e < 0 then ['-'] else l.exponentSign
  let exponent := 'e' :: sign ++ e.natAbs.repr.toList
  match digits with
  | first :: second :: others => first :: '.' :: second :: others ++ exponent
  | _ => digits ++ exponent

/-- A positive double in writing. -/
def magnitudeText (l : Layout) (x : Double) : List Char :=
  let d := x.shortest l.tie
  let digits := significantDigits d.coefficient
  if l.plainFrom ≤ d.leading ∧ d.leading ≤ l.plainUpTo then plain digits d.leading
  else l.scaled digits d.leading

/-- A double in writing. -/
def render (l : Layout) (x : Float) : String :=
  let sign := if x.toBits.toNat < Nat.pow 2 63 then [] else ['-']
  if x.isNaN then l.notANumber
  else if x.isInf then String.ofList (sign ++ l.infinity.toList)
  else if x == 0 then String.ofList (sign ++ ['0', '.', '0'])
  else String.ofList (sign ++ l.magnitudeText (.ofBits x.toBits))

end Layout

end Lexis.Decimal
