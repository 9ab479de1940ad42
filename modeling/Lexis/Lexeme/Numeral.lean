import Lexis.Decimal.Power
import Lexis.Source.Alphabet
import Lexis.Source.Reader
import Lexis.Token.Basic

/-!
# Numerals

A numeral has a whole part, a fraction after a decimal point, and an exponent
after the letter `e` of either case.  At least one of the two parts around the
point has a digit.  A numeral without a point and without an exponent is a
whole number; every other one is a floating-point number.

A value is built up digit by digit in floating point, so that it carries the
roundings of that method: the fraction by a scale that shrinks to a tenth at
every digit, and the exponent by a power of ten.

* `Numeral.Counter`: how the digits of whole numbers and of exponents are counted;
* `Numeral.Counter.whole_upTo`, `Numeral.Counter.exponent_upTo`: both refuse a digit
  exactly if the value would go beyond their limit;
* `Numeral.digits`: a run of digits that a counter does not refuse;
* `Numeral.read`: the numeral at the cursor;
* `Numeral.shortens_read`: a numeral that begins with a digit or with a point is
  not empty.
-/

namespace Lexis.Numeral

/-! ### Counting digits -/

/-- How the value of a run of digits is counted. -/
structure Counter (α : Type) where
  /-- The value of no digits. -/
  zero : α
  /-- The value with one more digit, unless the digit is refused. -/
  more : α → Nat → Option α

/-- The product of two numbers, unless it overflows. -/
def product? (m n : Int64) : Option Int64 :=
  if m.toBitVec.smulOverflow n.toBitVec then none else some (m * n)

/-- The sum of two numbers, unless it overflows. -/
def sum? (m n : Int64) : Option Int64 :=
  if m.toBitVec.saddOverflow n.toBitVec then none else some (m + n)

namespace Counter

/-- Whole numbers: neither the product with ten nor the sum with the digit may
overflow. -/
def whole : Counter Int64 where
  zero := 0
  more value d := (product? value 10).bind (sum? · (Int64.ofNat d))

/-- Exponents: the value has to leave room for the digit before it is multiplied. -/
def exponent : Counter Int32 where
  zero := 0
  more value d :=
    let digit := Int32.ofNat d
    if (Int32.ofNat maxExponent - digit) / 10 < value then none else some (value * 10 + digit)

/-- The count with one more character of the run, `none` for the empty run. -/
def extend {α : Type} (k : Counter α) (value : Option α) (c : Char) : Option (Option α) :=
  match digitValue? c with
  | none => none
  | some d => (k.more (value.getD k.zero) d).map some

/-- The counter counts up to a limit: it refuses a digit exactly if the value would go
beyond it. -/
structure UpTo {α : Type} (k : Counter α) (ofNat : Nat → α) (limit : Nat) : Prop where
  /-- The count begins with zero. -/
  zero_eq : k.zero = ofNat 0
  /-- One more digit is taken in as long as the value keeps within the limit. -/
  more_eq : ∀ n ≤ limit, ∀ d < 10, k.more (ofNat n) d
    = if n * 10 + d ≤ limit then some (ofNat (n * 10 + d)) else none

end Counter

/-- A whole number that keeps within the largest one is what it is in 64 bits. -/
theorem toInt_ofNat_of_le {n : Nat} (h : n ≤ maxInteger) : (Int64.ofNat n).toInt = n :=
  Int64.toInt_ofNat_of_lt (Nat.lt_of_le_pred (by decide) h)

/-- What has no sign overflows in 64 bits exactly if it is beyond the largest number. -/
theorem overflows_natCast (x : Nat) :
    (decide ((x : Int) ≥ Int.pow 2 63) || decide ((x : Int) < -Int.pow 2 63))
      = !decide (x ≤ maxInteger) := by
  have hmax : maxInteger = 9223372036854775807 := rfl
  have hbound : Int.pow 2 63 = 9223372036854775808 := rfl
  rw [Bool.eq_iff_iff, hbound]
  simp only [Bool.or_eq_true, Bool.not_eq_true', decide_eq_true_eq, decide_eq_false_iff_not]
  omega

/-- Two numbers have a product as long as it keeps within the largest number. -/
theorem product?_ofNat {m n : Nat} (hm : m ≤ maxInteger) (hn : n ≤ maxInteger) :
    product? (Int64.ofNat m) (Int64.ofNat n)
      = if m * n ≤ maxInteger then some (Int64.ofNat (m * n)) else none := by
  have hm' : (Int64.ofNat m).toBitVec.toInt = m := toInt_ofNat_of_le hm
  have hn' : (Int64.ofNat n).toBitVec.toInt = n := toInt_ofNat_of_le hn
  have hover : (Int64.ofNat m).toBitVec.smulOverflow (Int64.ofNat n).toBitVec
      = !decide (m * n ≤ maxInteger) := by
    rw [BitVec.smulOverflow, hm', hn', ← Int.natCast_mul]
    exact overflows_natCast (m * n)
  rw [product?, hover, Int64.ofNat_mul]
  by_cases h : m * n ≤ maxInteger <;> simp [h]

/-- So they have a sum. -/
theorem sum?_ofNat {m n : Nat} (hm : m ≤ maxInteger) (hn : n ≤ maxInteger) :
    sum? (Int64.ofNat m) (Int64.ofNat n)
      = if m + n ≤ maxInteger then some (Int64.ofNat (m + n)) else none := by
  have hm' : (Int64.ofNat m).toBitVec.toInt = m := toInt_ofNat_of_le hm
  have hn' : (Int64.ofNat n).toBitVec.toInt = n := toInt_ofNat_of_le hn
  have hover : (Int64.ofNat m).toBitVec.saddOverflow (Int64.ofNat n).toBitVec
      = !decide (m + n ≤ maxInteger) := by
    rw [BitVec.saddOverflow, hm', hn', ← Int.natCast_add]
    exact overflows_natCast (m + n)
  rw [sum?, hover, Int64.ofNat_add]
  by_cases h : m + n ≤ maxInteger <;> simp [h]

/-- **Whole numbers** are counted up to the largest one. -/
theorem Counter.whole_upTo : whole.UpTo Int64.ofNat maxInteger where
  zero_eq := rfl
  more_eq n hn d hd := by
    have hmax : maxInteger = 9223372036854775807 := rfl
    have hmore : whole.more (Int64.ofNat n) d
        = (product? (Int64.ofNat n) (Int64.ofNat 10)).bind (sum? · (Int64.ofNat d)) := rfl
    rw [hmore, product?_ofNat hn (by omega)]
    by_cases hle : n * 10 ≤ maxInteger
    · rw [if_pos hle, Option.bind_some, sum?_ofNat hle (by omega)]
    · rw [if_neg hle, if_neg (by omega), Option.bind_none]

/-- **Exponents** are counted up to the largest one: room for a digit is left exactly
by a value that keeps within the limit with it. -/
theorem Counter.exponent_upTo : exponent.UpTo Int32.ofNat maxExponent where
  zero_eq := rfl
  more_eq n hn d hd := by
    have hmax : maxExponent = 308 := rfl
    have hroom : (Int32.ofNat maxExponent - Int32.ofNat d) / 10
        = Int32.ofNat ((maxExponent - d) / 10) := by
      rw [← Int32.ofNat_sub _ _ (by omega), Int32.ofNat_div (by omega) (by omega)]
      rfl
    have hlt : Int32.ofNat ((maxExponent - d) / 10) < Int32.ofNat n
        ↔ (maxExponent - d) / 10 < n := by
      rw [Int32.lt_iff_toInt_lt, Int32.toInt_ofNat_of_lt (by omega),
        Int32.toInt_ofNat_of_lt (by omega)]
      exact Int.ofNat_lt
    have hvalue : Int32.ofNat n * 10 + Int32.ofNat d = Int32.ofNat (n * 10 + d) := by
      rw [Int32.ofNat_add, Int32.ofNat_mul]
      rfl
    simp only [exponent, hroom, hlt, hvalue]
    by_cases h : n * 10 + d ≤ maxExponent
    · rw [if_pos h, if_neg (by omega)]
    · rw [if_neg h, if_pos (by omega)]

/-! ### Runs of digits -/

/-- Does the window show a digit? -/
def atDigit : CursorM Bool := return (← CursorM.look).any isDigit

/-- The value of the run of digits at the cursor, `none` for the empty run.  A
digit that the counter refuses is a fault, and is left in the window. -/
def digits {α : Type} (k : Counter α) (beyond : Cause) (start : Position) :
    CursorM (Option α) := do
  let value ← CursorM.foldShown k.extend none
  if ← atDigit then CursorM.fail beyond start else return value

/-! ### The fraction -/

/-- What has been read of a number with a fraction. -/
structure Fraction where
  /-- The value so far. -/
  value : Float
  /-- What the last digit counts. -/
  scale : Float := 1
  /-- Has a digit been read? -/
  nonempty : Bool := false

/-- The fraction with one more digit, which counts a tenth of the one before. -/
def Fraction.extend (f : Fraction) (c : Char) : Option Fraction :=
  (digitValue? c).map fun d =>
    let scale := f.scale * 0.1
    ⟨f.value + Float.ofNat d * scale, scale, true⟩

/-- The digits after the point, counted onto the whole part. -/
def fraction (whole : Int64) : CursorM Fraction :=
  CursorM.foldShown Fraction.extend { value := Float.ofInt whole.toInt }

/-! ### The exponent -/

/-- The sign before an exponent: is it a minus?  A plus counts as no sign. -/
def negativeSign : CursorM Bool := do
  if ← CursorM.take '-' then
    return true
  else
    let _ ← CursorM.take '+'
    return false

/-- The exponent after its marker: a sign, which may be missing, and digits,
which may not. -/
def exponent (marker : Char) (start : Position) : CursorM Int32 := do
  let negative ← negativeSign
  match ← digits Counter.exponent .exponentOverflow start with
  | none => CursorM.fail (.missingCharacter "a digit" marker) (← CursorM.place)
  | some n => return if negative then -n else n

/-- The letter that marks an exponent, if it is in the window; it is passed. -/
def marker? : CursorM (Option Char) := do
  if ← CursorM.take 'e' then
    return some 'e'
  else if ← CursorM.take 'E' then
    return some 'E'
  else
    return none

/-! ### The numeral -/

/-- The numeral at the cursor after a whole part and a point. -/
def readPointed (whole : Option Int64) (start : Position) : CursorM Token := do
  let f ← fraction (whole.getD 0)
  if whole.isNone && !f.nonempty then
    CursorM.fail .invalidNumber start
  else
    match ← marker? with
    | none => return .float f.value start
    | some marker =>
      let e ← exponent marker start
      return .float (f.value * Decimal.floatPower e.toInt) start

/-- The numeral at the cursor after a whole part that no point follows. -/
def readPlain (whole : Option Int64) (start : Position) : CursorM Token := do
  let n := whole.getD 0
  match ← marker? with
  | none => return .integer n start
  | some marker =>
    let e ← exponent marker start
    return .float (Float.ofInt n.toInt * Decimal.squaredPower e.toInt) start

/-- The numeral at the cursor, as a token that starts at `start`. -/
def read (start : Position) : CursorM Token := do
  let whole ← digits Counter.whole .integerOverflow start
  if ← CursorM.take '.' then readPointed whole start else readPlain whole start

/-! ### Progress -/

open CursorM

/-- A run of digits is read forward. -/
theorem forward_digits {α : Type} (k : Counter α) (beyond : Cause) (start : Position) :
    Forward (digits k beyond start) :=
  forward_bind (forward_foldShown _ _) fun _ =>
    forward_bind (forward_bind forward_look fun _ => forward_pure _) fun _ =>
      forward_ite (forward_fail _ _) (forward_pure _)

/-- An exponent is read forward. -/
theorem forward_exponent (marker : Char) (start : Position) :
    Forward (exponent marker start) := by
  refine forward_bind ?_ fun negative => forward_bind (forward_digits _ _ _) fun value => ?_
  · exact forward_bind (forward_take _) fun _ => forward_ite (forward_pure _)
      (forward_bind (forward_take _) fun _ => forward_pure _)
  · cases value with
    | none => exact forward_bind forward_place fun _ => forward_fail _ _
    | some n => exact forward_pure _

/-- A marker is read forward. -/
theorem forward_marker? : Forward marker? :=
  forward_bind (forward_take _) fun _ => forward_ite (forward_pure _)
    (forward_bind (forward_take _) fun _ => forward_ite (forward_pure _) (forward_pure _))

/-- What follows a point is read forward. -/
theorem forward_readPointed (whole : Option Int64) (start : Position) :
    Forward (readPointed whole start) := by
  refine forward_bind (forward_foldShown _ _) fun f => forward_ite (forward_fail _ _) ?_
  refine forward_bind forward_marker? fun marker => ?_
  cases marker with
  | none => exact forward_pure _
  | some m => exact forward_bind (forward_exponent _ _) fun _ => forward_pure _

/-- What follows a whole part without a point is read forward. -/
theorem forward_readPlain (whole : Option Int64) (start : Position) :
    Forward (readPlain whole start) := by
  refine forward_bind forward_marker? fun marker => ?_
  cases marker with
  | none => exact forward_pure _
  | some m => exact forward_bind (forward_exponent _ _) fun _ => forward_pure _

/-- A numeral is read forward. -/
theorem forward_read (start : Position) : Forward (read start) :=
  forward_bind (forward_digits _ _ _) fun _ => forward_bind (forward_take _) fun _ =>
    forward_ite (forward_readPointed _ _) (forward_readPlain _ _)

/-- One digit keeps within the limit of whole numbers. -/
theorem extend_isSome {x : Char} (hx : isDigit x) :
    ∃ value, Counter.whole.extend none x = some value := by
  have hd := digitValue?_isSome x
  rw [hx] at hd
  obtain ⟨d, hd⟩ := Option.isSome_iff_exists.mp hd
  have hlt := digitValue?_lt hd
  have hmore := Counter.whole_upTo.more_eq 0 (Nat.zero_le _) d hlt
  have hmax : maxInteger = 9223372036854775807 := rfl
  rw [← Counter.whole_upTo.zero_eq, if_pos (by omega)] at hmore
  exact ⟨_, by simp only [Counter.extend, hd, Option.getD_none, hmore, Option.map_some]; rfl⟩

/-- A numeral that begins with a digit or with a point is not empty. -/
theorem shortens_read {c : Cursor} {x : Char} (h : c.shown? = some x)
    (hx : isDigit x ∨ x = '.') (start : Position) : Shortens (read start) c := by
  rcases hx with hx | rfl
  · obtain ⟨value, hv⟩ := extend_isSome hx
    refine Shortens.bind ((foldShown_lt h hv).bind fun _ => ?_) fun _ => ?_
    · exact forward_bind (forward_bind forward_look fun _ => forward_pure _) fun _ =>
        forward_ite (forward_fail _ _) (forward_pure _)
    · exact forward_bind (forward_take _) fun _ =>
        forward_ite (forward_readPointed _ _) (forward_readPlain _ _)
  · -- the whole part is empty, and the point is passed
    have hrefused : Counter.whole.extend none '.' = none := rfl
    have hdigits : digits Counter.whole .integerOverflow start c = .ok none c := by
      have hpoint : atDigit c = .ok false c := by
        rw [atDigit, bind_apply, look, h]
        rfl
      rw [digits, bind_apply, foldShown_of_refused h hrefused]
      simp only [bind_apply, hpoint]
      rfl
    refine Shortens.bind_of_eq hdigits ((shortens_take h).bind fun _ => ?_)
    exact forward_ite (forward_readPointed _ _) (forward_readPlain _ _)

end Lexis.Numeral
