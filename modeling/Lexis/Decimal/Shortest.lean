/-!
# The shortest decimal of a double

Every finite positive double is `m · 2 ^ q`, and it is the nearest double to
all reals of an interval around it.  The shortest decimal of the double is the
one with the fewest digits in that interval, and of two such decimals the one
nearer to the double.

* `Double.ofBits`: the double that a pattern of 64 bits stands for;
* `Double.reads`: does a decimal read back as the double?
* `Double.nearest?`: the better of the two neighbours of a double on a grid of
  decimals, if one of them reads back;
* `Double.shortest`: the first hit on the grids of one, two, up to seventeen
  digits.
-/

namespace Lexis

/-- The number `coefficient · 10 ^ exponent`. -/
structure Decimal where
  /-- The digits, as a whole number. -/
  coefficient : Nat
  /-- The power of ten by which they are scaled. -/
  exponent : Int
deriving DecidableEq

/-- Which of two equally near neighbours is taken. -/
inductive Decimal.Tie where
  /-- The greater one. -/
  | up
  /-- The one whose last digit is even. -/
  | even
deriving DecidableEq

/-- A positive double `mantissa · 2 ^ exponent`. -/
structure Double where
  /-- The digits of the double, as a whole number. -/
  mantissa : Nat
  /-- The power of two by which they are scaled. -/
  exponent : Int
  /-- Is the next double below only half as far away as the next one above? -/
  narrowBelow : Bool

namespace Double

/-- The double that a pattern of 64 bits stands for, its sign left aside. -/
def ofBits (bits : UInt64) : Double :=
  let field : Nat := bits.toNat / Nat.pow 2 52 % Nat.pow 2 11
  let fraction : Nat := bits.toNat % Nat.pow 2 52
  if field = 0 then ⟨fraction, -1074, false⟩
  else ⟨Nat.pow 2 52 + fraction, field - 1075, fraction = 0 && field ≠ 1⟩

/-! ### A grid of decimals

On the grid of the multiples of `10 ^ s` all comparisons are made between whole
numbers: a quarter of the double's last place is counted as `quarter x s`, one
step of the grid as `step x s`, both in the same unit. -/

/-- A quarter of the last place of `x`, in the unit of the grid. -/
def quarter (x : Double) (s : Int) : Nat :=
  Nat.pow 2 (x.exponent - 2).toNat * Nat.pow 10 (-s).toNat

/-- One step of the grid, in the same unit. -/
def step (x : Double) (s : Int) : Nat :=
  Nat.pow 2 (2 - x.exponent).toNat * Nat.pow 10 s.toNat

/-- Does the decimal `d · 10 ^ s` read back as `x`?  It does if it lies between
the points half way to the two doubles next to `x`; these two points read back
as `x` themselves exactly if the mantissa is even. -/
def reads (x : Double) (s : Int) (d : Nat) : Bool :=
  let below := (4 * x.mantissa - if x.narrowBelow then 1 else 2) * x.quarter s
  let above := (4 * x.mantissa + 2) * x.quarter s
  let here := d * x.step s
  if x.mantissa % 2 = 0 then below ≤ here && here ≤ above
  else below < here && here < above

/-- Is the upper one of the neighbours `d` and `d + 1` of `x` to be taken? -/
def prefersUpper (tie : Decimal.Tie) (x : Double) (s : Int) (d : Nat) : Bool :=
  let twice := 8 * x.mantissa * x.quarter s
  let middle := (2 * d + 1) * x.step s
  middle < twice || middle = twice && (tie = .up || d % 2 = 1)

/-- The greatest multiple of `10 ^ s` that is not above `x`, in steps. -/
def floor (x : Double) (s : Int) : Nat := 4 * x.mantissa * x.quarter s / x.step s

/-- The better of the two neighbours of `x` among the multiples of `10 ^ s`, if
one of them reads back as `x`. -/
def nearest? (tie : Decimal.Tie) (x : Double) (s : Int) : Option Decimal :=
  let d := x.floor s
  match x.reads s d, x.reads s (d + 1) with
  | true, true => some ⟨if prefersUpper tie x s d then d + 1 else d, s⟩
  | true, false => some ⟨d, s⟩
  | false, true => some ⟨d + 1, s⟩
  | false, false => none

/-! ### The fewest digits -/

/-- The power of ten that the first digit of `x` counts. -/
def magnitude (x : Double) : Int :=
  let numerator := 4 * x.mantissa * x.quarter 0
  let denominator := x.step 0
  if denominator ≤ numerator then (numerator / denominator).repr.length - 1
  else -((denominator - 1) / numerator).repr.length

/-- The first hit on the grid of the multiples of `10 ^ s` and the `n` finer
grids after it, of which each has one digit more. -/
def search (tie : Decimal.Tie) (x : Double) : Nat → Int → Decimal
  | 0, s => (x.nearest? tie s).getD ⟨x.floor s, s⟩
  | n + 1, s => (x.nearest? tie s).getD (x.search tie n (s - 1))

/-- The shortest decimal that reads back as `x`, and of the shortest ones the
nearest.  Seventeen digits always read back. -/
def shortest (tie : Decimal.Tie) (x : Double) : Decimal := x.search tie 16 x.magnitude

end Double

end Lexis
