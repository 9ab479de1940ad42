/-!
# Powers of ten in floating point

Two ways to raise ten to a whole power, which differ in the last places.  Neither
always comes to the double that is nearest to the power.

* `floatPower`: the power for an exponent in floating point, as the C library's `pow`
  has it;
* `squaredPower`: the power for a whole exponent, by repeated squaring with a rounding
  at every multiplication.
-/

namespace Lexis.Decimal

/-- `10 ^ e` as the C library's `pow` has it, with the exponent as a double. -/
def floatPower (e : Int) : Float := Float.pow 10 (Float.ofInt e)

/-- `result · base ^ n` by repeated squaring, from the lowest bit of `n` up. -/
def squaring (result base : Float) (n : Nat) : Float :=
  if n = 0 then result
  else squaring (if n % 2 = 1 then result * base else result) (base * base) (n / 2)
termination_by n

/-- `10 ^ e` by repeated squaring; a negative power is the inverse of the
positive one. -/
def squaredPower (e : Int) : Float :=
  let power := squaring 1 10 e.natAbs
  if e < 0 then 1 / power else power

end Lexis.Decimal
