import Lexis.Lexeme.Numeral
import Lexis.Proofs.Grammar.Word
import Mathlib.Data.Nat.BitIndices

/-!
# Numerals of a text

A numeral is a mantissa, alone or with an exponent.  A mantissa is a whole
number, or has a point with a digit on at least one of its sides.  What may not
follow a numeral depends on its form: a digit never, and nothing that the
numeral could still take in.

* `decimal`: the value of a run of digits, however long;
* `reads_digits`, `reads_digits_beyond`: a run of digits is read up to the digit
  that goes beyond the limit;
* `reads_exponent`, `reads_exponent_missing`, `reads_exponent_beyond`: the three
  ways in which an exponent can end;
* `squaredPower_eq`: repeated squaring as one product;
* `Mantissa`: the part of a numeral in front of its exponent, and what it is worth, alone
  and with a power of ten;
* `reads_mantissa`: after a mantissa the reading goes on with the exponent.
-/

namespace Lexis.Numeral

open CursorM

variable {α : Type} {k : Counter α} {ofNat : Nat → α} {limit : Nat} {beyond : Cause}
  {start : Position} {l v : List Char}

/-! ### Runs of digits -/

/-- The value of a decimal digit. -/
def digitOf (c : Char) : Nat := c.toNat - '0'.toNat

/-- The value of a number that a run of digits continues. -/
def continued (n : Nat) (l : List Char) : Nat := l.foldl (fun n c => n * 10 + digitOf c) n

/-- The value of a run of digits. -/
def decimal (l : List Char) : Nat := continued 0 l

/-- The value of a run of digits, if it has one at all. -/
def decimal? (l : List Char) : Option Nat := if l = [] then none else some (decimal l)

@[simp] lemma getD_decimal? (l : List Char) : (decimal? l).getD 0 = decimal l := by
  unfold decimal?
  split
  next h => rw [h]; rfl
  next => rfl

/-- The value of a run of digits for a counter that begins with zero. -/
lemma getD_map_decimal? (ofNat : Nat → α) (l : List Char) :
    ((decimal? l).map ofNat).getD (ofNat 0) = ofNat (decimal l) := by
  rw [← getD_decimal? l]
  cases decimal? l <;> rfl

@[simp] lemma isNone_decimal? (l : List Char) : (decimal? l).isNone = l.isEmpty := by
  unfold decimal?
  split
  next h => rw [h]; rfl
  next h => simp [h]

@[simp] lemma continued_nil (n : Nat) : continued n [] = n := rfl

@[simp] lemma continued_cons (n : Nat) (c : Char) (l : List Char) :
    continued n (c :: l) = continued (n * 10 + digitOf c) l := by
  rw [continued, List.foldl_cons, continued]

/-- A number that digits continue does not become smaller. -/
lemma le_continued (n : Nat) (l : List Char) : n ≤ continued n l := by
  induction l generalizing n with
  | nil => exact Nat.le_refl n
  | cons c l ih =>
    have h := ih (n * 10 + digitOf c)
    rw [continued_cons]
    omega

/-- The digits of a number in writing are those that numerals are made of. -/
lemma isDigit_of_mem_toDigits {n : Nat} {c : Char} (h : c ∈ Nat.toDigits 10 n) :
    Lexis.isDigit c := by
  have hc := Nat.isDigit_of_mem_toDigits (by decide) (by decide) h
  simpa [Char.isDigit, Lexis.isDigit, Char.le_def] using hc

/-- A number is the value of its digits. -/
lemma decimal_toDigits (n : Nat) : decimal (Nat.toDigits 10 n) = n := by
  have hfold := Nat.ofDigitChars_ten_toDigits (n := n)
  rw [Nat.ofDigitChars_eq_foldl] at hfold
  simpa only [decimal, continued, digitOf, Nat.mul_comm] using hfold

lemma digitValue?_of_isDigit {c : Char} (h : isDigit c) : digitValue? c = some (digitOf c) := by
  rw [digitValue?, if_pos h]
  rfl

lemma digitOf_lt {c : Char} (h : isDigit c) : digitOf c < 10 :=
  digitValue?_lt (digitValue?_of_isDigit h)

/-- A digit is taken in as long as the value keeps within the limit. -/
lemma Counter.UpTo.extend_eq (hk : k.UpTo ofNat limit) {c : Char} (h : isDigit c)
    {value : Option α} {n : Nat} (hn : n ≤ limit) (hvalue : value.getD (ofNat 0) = ofNat n) :
    k.extend value c
      = if n * 10 + digitOf c ≤ limit then some (some (ofNat (n * 10 + digitOf c)))
        else none := by
  rw [Counter.extend, digitValue?_of_isDigit h]
  simp only [hk.zero_eq, hvalue, hk.more_eq n hn _ (digitOf_lt h)]
  split <;> rfl

/-- What is no digit is not taken in. -/
lemma Counter.extend_of_not_isDigit {c : Char} (h : isDigit c = false) (value : Option α) :
    k.extend value c = none := by
  rw [extend, digitValue?, if_neg (by simp [h])]

/-- A line break is no digit, and shows none. -/
lemma isDigit_shownFor (c : Char) : isDigit (shownFor c) = isDigit c := by
  by_cases h : c = '\n'
  · rw [h]
    decide
  · rw [shownFor_of_ne h]

/-- A run of digits that keeps within the limit is taken in as a whole. -/
lemma Counter.UpTo.foldlM_extend (hk : k.UpTo ofNat limit) (hl : ∀ x ∈ l, isDigit x)
    (hle : decimal l ≤ limit) : l.foldlM k.extend none = some ((decimal? l).map ofNat) := by
  have key : ∀ (l : List Char) (n : Nat), (∀ x ∈ l, isDigit x) → continued n l ≤ limit →
      l.foldlM k.extend (some (ofNat n)) = some (some (ofNat (continued n l))) := by
    intro l
    induction l with
    | nil => intro n _ _; rfl
    | cons c l ih =>
      intro n hl hle
      have hc : n * 10 + digitOf c ≤ limit := (le_continued _ l).trans hle
      rw [List.foldlM_cons, hk.extend_eq (hl c (by simp)) (by omega) rfl, if_pos hc,
        Option.bind_eq_bind, Option.bind_some, continued_cons]
      exact ih _ (fun x hx => hl x (by simp [hx])) hle
  cases l with
  | nil => rfl
  | cons c l =>
    have hc : 0 * 10 + digitOf c ≤ limit := (le_continued _ l).trans hle
    rw [List.foldlM_cons, hk.extend_eq (hl c (by simp)) (Nat.zero_le _) rfl, if_pos hc,
      Option.bind_eq_bind, Option.bind_some, key l _ (fun x hx => hl x (by simp [hx])) hle]
    rfl

/-- A run of digits beyond the limit has a first digit that goes beyond it. -/
lemma exists_beyond {n : Nat} (hn : n ≤ limit) (hlt : limit < continued n l) :
    ∃ a d b, l = a ++ d :: b ∧ continued n a ≤ limit
      ∧ limit < continued n a * 10 + digitOf d := by
  induction l generalizing n with
  | nil => exact absurd hlt (by simpa using hn)
  | cons c l ih =>
    by_cases hc : n * 10 + digitOf c ≤ limit
    · obtain ⟨a, d, b, rfl, ha, hd⟩ := ih hc hlt
      exact ⟨c :: a, d, b, rfl, ha, hd⟩
    · exact ⟨[], c, l, rfl, hn, by simpa using hc⟩

/-- Whether a digit is in the window. -/
lemma reads_atDigit (v : List Char) : Yields atDigit [] v ((v.head?.map shownFor).any isDigit) :=
  reads_bind_stay (reads_look v) (reads_pure _ v)

lemma any_shownFor (h : NotNext isDigit v) : (v.head?.map shownFor).any isDigit = false := by
  cases v with
  | nil => rfl
  | cons x v =>
    rw [notNext_cons] at h
    simpa [isDigit_shownFor] using h

/-- **A run of digits** that keeps within the limit is read as a whole. -/
theorem reads_digits (hk : k.UpTo ofNat limit) (hl : ∀ x ∈ l, isDigit x) (hle : decimal l ≤ limit)
    (hv : NotNext isDigit v) :
    Yields (digits k beyond start) l v ((decimal? l).map ofNat) := by
  have hrun : Yields (foldShown k.extend none) l v ((decimal? l).map ofNat) := by
    refine reads_run (hk.foldlM_extend hl hle) hl (by decide) (by decide) fun x hx => ?_
    exact Counter.extend_of_not_isDigit (by rw [isDigit_shownFor, hv x hx]) _
  refine reads_bind_last hrun (reads_bind_stay (reads_atDigit v) ?_)
  rw [any_shownFor hv]
  exact reads_pure _ v

/-- A run of digits beyond the limit is read up to the first digit that goes
beyond it, whatever follows. -/
theorem reads_digits_beyond (hk : k.UpTo ofNat limit) (hl : ∀ x ∈ l, isDigit x)
    (hlt : limit < decimal l) (v : List Char) :
    ∃ a b, l = a ++ b ∧ b ≠ [] ∧ Fails (digits k beyond start) a (b ++ v) ⟨beyond, start⟩ := by
  obtain ⟨a, d, b, rfl, ha, hd⟩ : ∃ a d b, l = a ++ d :: b ∧ decimal a ≤ limit
      ∧ limit < decimal a * 10 + digitOf d := exists_beyond (Nat.zero_le limit) hlt
  have hdigit : isDigit d := hl d (by simp)
  have hrun : Yields (foldShown k.extend none) a (d :: b ++ v) ((decimal? a).map ofNat) := by
    have hla : ∀ x ∈ a, isDigit x := fun x hx => hl x (by simp [hx])
    refine reads_run (hk.foldlM_extend hla ha) hla (by decide) (by decide) ?_
    rintro x ⟨⟩
    have hx : isDigit (shownFor d) := by rw [isDigit_shownFor, hdigit]
    have hsame : shownFor d = d := shownFor_of_ne (by rintro rfl; exact absurd hdigit (by decide))
    rw [hk.extend_eq hx ha (getD_map_decimal? ofNat a), hsame, if_neg (Nat.not_le.mpr hd)]
  refine ⟨a, d :: b, rfl, by simp, reads_bind_last hrun (reads_bind_stay (reads_atDigit _) ?_)⟩
  have hany : ((d :: b ++ v).head?.map shownFor).any isDigit = true := by
    simpa [isDigit_shownFor] using hdigit
  rw [List.nil_append, hany]
  exact reads_fail _ _ _

/-! ### The fraction -/

/-- A value with the digits of a fraction counted onto it, the first of which
counts a tenth of `scale`. -/
def withTenths (value scale : Float) : List Char → Float
  | [] => value
  | c :: l =>
    withTenths (value + Float.ofNat (digitOf c) * (scale * 0.1)) (scale * 0.1) l

/-- The digits of a fraction are taken in one after the other. -/
lemma foldlM_fraction (hl : ∀ x ∈ l, isDigit x) (f : Fraction) :
    ∃ g, l.foldlM Fraction.extend f = some g ∧ g.value = withTenths f.value f.scale l
      ∧ g.nonempty = (f.nonempty || !l.isEmpty) := by
  induction l generalizing f with
  | nil => exact ⟨f, rfl, rfl, by simp⟩
  | cons c l ih =>
    obtain ⟨g, hg, hvalue, hnonempty⟩ := ih (fun x hx => hl x (by simp [hx]))
      ⟨f.value + Float.ofNat (digitOf c) * (f.scale * 0.1), f.scale * 0.1, true⟩
    refine ⟨g, ?_, hvalue, by simpa using hnonempty⟩
    rw [List.foldlM_cons, Fraction.extend, digitValue?_of_isDigit (hl c (by simp))]
    exact hg

/-- The digits after a point are read as a whole. -/
lemma reads_fraction (hl : ∀ x ∈ l, isDigit x) (hv : NotNext isDigit v) {whole : Nat}
    (hle : whole ≤ maxInteger) :
    ∃ f : Fraction, Yields (fraction (Int64.ofNat whole)) l v f
      ∧ f.value = withTenths (Float.ofNat whole) 1 l ∧ f.nonempty = !l.isEmpty := by
  obtain ⟨f, hf, hvalue, hnonempty⟩ := foldlM_fraction hl { value := Float.ofNat whole }
  refine ⟨f, ?_, hvalue, by simpa using hnonempty⟩
  rw [fraction, toInt_ofNat_of_le hle]
  refine reads_run hf hl (by decide) (by decide) fun x hx => ?_
  have hx : digitValue? (shownFor x) = none := by
    rw [digitValue?, if_neg (by simp [isDigit_shownFor, hv x hx])]
  rw [Fraction.extend, hx, Option.map_none]

/-! ### The exponent -/

/-- Does the character mark an exponent? -/
def isMarker (c : Char) : Bool := c == 'e' || c == 'E'

/-- Is the character a sign? -/
def isSign (c : Char) : Bool := c == '+' || c == '-'

/-- A sign, or none. -/
def OptionalSign (s : List Char) : Prop := s = [] ∨ ∃ c, isSign c ∧ s = [c]

/-- The value of an exponent with this sign and these digits. -/
def signed (s l : List Char) : Int := if s = ['-'] then -(decimal l : Int) else decimal l

lemma eq_of_isMarker {c : Char} (h : isMarker c) : c = 'e' ∨ c = 'E' := by
  simpa [isMarker] using h

lemma eq_of_isSign {c : Char} (h : isSign c) : c = '+' ∨ c = '-' := by
  simpa [isSign] using h

/-- The marker of an exponent is passed. -/
lemma reads_marker {m : Char} (hm : isMarker m) (v : List Char) :
    Yields marker? [m] v (some m) := by
  rcases eq_of_isMarker hm with rfl | rfl
  · exact reads_bind_last (reads_take (by decide) (by decide) v) (reads_pure _ v)
  · refine reads_bind_stay (reads_take_false (by decide) (by simp)) ?_
    exact reads_bind_last (reads_take (by decide) (by decide) v) (reads_pure _ v)

/-- Where no marker is, nothing is passed. -/
lemma reads_marker_none (hv : NotNext isMarker v) : Yields marker? [] v none := by
  refine reads_bind_stay (reads_take_false (by decide) (hv.head?_ne (by decide))) ?_
  refine reads_bind_stay (reads_take_false (by decide) (hv.head?_ne (by decide))) ?_
  exact reads_pure _ v

/-- A sign is passed, if there is one. -/
lemma reads_negativeSign {s : List Char} (hs : OptionalSign s) (hv : s = [] → NotNext isSign v) :
    Yields negativeSign s v (decide (s = ['-'])) := by
  rcases hs with rfl | ⟨c, hc, rfl⟩
  · have hv := hv rfl
    refine reads_bind_stay (reads_take_false (by decide) (hv.head?_ne (by decide))) ?_
    refine reads_bind_stay (reads_take_false (by decide) (hv.head?_ne (by decide))) ?_
    exact reads_pure _ v
  · rcases eq_of_isSign hc with rfl | rfl
    · refine reads_bind_stay (reads_take_false (by decide) (by simp)) ?_
      exact reads_bind_last (reads_take (by decide) (by decide) v) (reads_pure _ v)
    · exact reads_bind_last (reads_take (by decide) (by decide) v) (reads_pure _ v)

/-- Digits are no signs. -/
lemma notNext_isSign_of_digits (hne : l ≠ []) (hl : ∀ x ∈ l, isDigit x) (v : List Char) :
    NotNext isSign (l ++ v) := by
  cases l with
  | nil => exact absurd rfl hne
  | cons x l =>
    have hx : isDigit x := hl x (by simp)
    rw [List.cons_append, notNext_cons]
    by_contra h
    rcases eq_of_isSign (by simpa using h) with rfl | rfl <;> exact absurd hx (by decide)

/-- The value of an exponent within the limit is what it is in 32 bits. -/
lemma toInt_signed (s : List Char) (hle : decimal l ≤ maxExponent) :
    (if s = ['-'] then -Int32.ofNat (decimal l) else Int32.ofNat (decimal l)).toInt
      = signed s l := by
  have hmax : maxExponent = 308 := rfl
  have hvalue : (Int32.ofNat (decimal l)).toInt = decimal l :=
    Int32.toInt_ofNat_of_lt (by omega)
  unfold signed
  split
  next =>
    rw [Int32.toInt_neg, hvalue]
    exact Int.bmod_eq_of_le (by omega) (by omega)
  next => exact hvalue

/-- **An exponent** within the limit is read as a whole. -/
theorem reads_exponent {s : List Char} {m : Char} (hs : OptionalSign s) (hne : l ≠ [])
    (hl : ∀ x ∈ l, isDigit x) (hle : decimal l ≤ maxExponent) (hv : NotNext isDigit v) :
    ∃ e : Int32, e.toInt = signed s l ∧ Yields (exponent m start) (s ++ l) v e := by
  refine ⟨_, toInt_signed s hle, ?_⟩
  refine reads_bind (reads_negativeSign hs fun _ => notNext_isSign_of_digits hne hl v) ?_
  refine reads_bind_last (reads_digits Counter.exponent_upTo hl hle hv) ?_
  rw [decimal?, if_neg hne]
  simp only [Option.map_some, decide_eq_true_eq]
  exact reads_pure _ v

/-- An exponent without a digit is a fault where the digit is missing. -/
theorem reads_exponent_missing {s : List Char} {m : Char} (hs : OptionalSign s)
    (hv : NotNext isDigit v) (hsign : s = [] → NotNext isSign v) :
    Reads (exponent m start) s v fun p => .error ⟨.missingCharacter "a digit" m, p⟩ := by
  refine reads_bind_last (reads_negativeSign hs hsign) ?_
  have hnone : Yields (digits Counter.exponent .exponentOverflow start) [] v none :=
    reads_digits Counter.exponent_upTo (by simp) (Nat.zero_le _) hv
  exact reads_bind_stay hnone (reads_failHere _ v)

/-- An exponent beyond the limit is a fault at the start of the numeral. -/
theorem reads_exponent_beyond {s : List Char} {m : Char} (hs : OptionalSign s)
    (hl : ∀ x ∈ l, isDigit x) (hlt : maxExponent < decimal l) (v : List Char) :
    ∃ a b, l = a ++ b ∧ b ≠ []
      ∧ Fails (exponent m start) (s ++ a) (b ++ v) ⟨.exponentOverflow, start⟩ := by
  obtain ⟨a, b, hab, hb, hfails⟩ : ∃ a b, l = a ++ b ∧ b ≠ []
      ∧ Fails (digits Counter.exponent .exponentOverflow start) a (b ++ v)
        ⟨.exponentOverflow, start⟩ :=
    reads_digits_beyond Counter.exponent_upTo hl hlt v
  have hne : l ≠ [] := by
    rintro rfl
    exact absurd hlt (by decide)
  have hsign : Yields negativeSign s (a ++ (b ++ v)) (decide (s = ['-'])) := by
    refine reads_negativeSign hs fun _ => ?_
    rw [← List.append_assoc, ← hab]
    exact notNext_isSign_of_digits hne hl v
  exact ⟨a, b, hab, hb, reads_bind hsign (reads_bind_fault (F := fun _ => _) hfails)⟩

/-! ### Powers of ten -/

/-- Ten, squared `i` times, with a rounding every time. -/
def tenSquared : Nat → Float
  | 0 => 10
  | i + 1 => tenSquared i * tenSquared i

/-- Repeated squaring multiplies by the squares that the binary digits call for, the
lowest one first. -/
lemma squaring_eq (result : Float) (i n : Nat) :
    Decimal.squaring result (tenSquared i) n
      = (n.bitIndices.map fun j => tenSquared (i + j)).foldl (· * ·) result := by
  induction n using Nat.strongRecOn generalizing result i with
  | _ n ih =>
    rw [Decimal.squaring]
    by_cases hn : n = 0
    · rw [if_pos hn, hn, Nat.bitIndices_zero, List.map_nil, List.foldl_nil]
    · have hsquare : tenSquared i * tenSquared i = tenSquared (i + 1) := rfl
      have hindex : (fun j => tenSquared (i + 1 + j)) = (fun j => tenSquared (i + j)) ∘ (· + 1) :=
        funext fun j => by rw [Function.comp_apply, Nat.add_assoc, Nat.add_comm 1 j]
      rw [if_neg hn, hsquare, ih (n / 2) (by omega), hindex, ← List.map_map]
      by_cases hodd : n % 2 = 1
      · have hbits : n.bitIndices = 0 :: (n / 2).bitIndices.map (· + 1) := by
          rw [← Nat.bitIndices_two_mul_add_one, show 2 * (n / 2) + 1 = n by omega]
        rw [if_pos hodd, hbits, List.map_cons, List.foldl_cons, Nat.add_zero]
      · have hbits : n.bitIndices = (n / 2).bitIndices.map (· + 1) := by
          rw [← Nat.bitIndices_two_mul, show 2 * (n / 2) = n by omega]
        rw [if_neg hodd, hbits]

/-- Ten to a whole power by repeated squaring is such a product, or the inverse of
one. -/
lemma squaredPower_eq (e : Int) :
    Decimal.squaredPower e
      = let power := (e.natAbs.bitIndices.map tenSquared).foldl (· * ·) 1
        if e < 0 then 1 / power else power := by
  have h := squaring_eq 1 0 e.natAbs
  simp only [Nat.zero_add] at h
  rw [Decimal.squaredPower, show (10 : Float) = tenSquared 0 from rfl, h]

/-! ### The numeral -/

/-- The part of a numeral in front of its exponent. -/
inductive Mantissa where
  /-- Digits. -/
  | plain (whole : List Char)
  /-- Digits, a point, and digits. -/
  | pointed (whole fraction : List Char)

namespace Mantissa

/-- The mantissa as it is written. -/
def text : Mantissa → List Char
  | plain whole => whole
  | pointed whole fraction => whole ++ '.' :: fraction

/-- The whole part has a value that keeps within the limit, and there is a digit
on one side of the point at least. -/
def Valid : Mantissa → Prop
  | plain whole => (∀ x ∈ whole, isDigit x) ∧ decimal whole ≤ maxInteger ∧ whole ≠ []
  | pointed whole fraction =>
    (∀ x ∈ whole, isDigit x) ∧ decimal whole ≤ maxInteger ∧ (∀ x ∈ fraction, isDigit x)
      ∧ (whole ≠ [] ∨ fraction ≠ [])

/-- What the mantissa could still take in. -/
def goesOn : Mantissa → Char → Bool
  | plain _, c => isDigit c || c == '.'
  | pointed _ _, c => isDigit c

/-- The token that the mantissa amounts to alone. -/
def alone : Mantissa → Position → Token
  | plain whole => .integer (Int64.ofNat (decimal whole))
  | pointed whole fraction => .float (withTenths (Float.ofNat (decimal whole)) 1 fraction)

/-- The token that the mantissa amounts to with the exponent `e`: without a point the
power of ten is the product of the squares that the binary digits of `e` call for, the
lowest one first, and with a point it is that of the C library. -/
def scaled (m : Mantissa) (e : Int) : Position → Token :=
  match m with
  | plain whole =>
    let power := (e.natAbs.bitIndices.map tenSquared).foldl (· * ·) 1
    .float (Float.ofNat (decimal whole) * if e < 0 then 1 / power else power)
  | pointed whole fraction =>
    .float (withTenths (Float.ofNat (decimal whole)) 1 fraction * Float.pow 10 (Float.ofInt e))

/-- A mantissa begins with a digit or with its point. -/
lemma Valid.exists_cons {m : Mantissa} (h : m.Valid) :
    ∃ x l, m.text = x :: l ∧ (isDigit x ∨ x = '.') := by
  have hcons : ∀ {l : List Char}, (∀ x ∈ l, isDigit x) → l ≠ [] →
      ∃ x l', l = x :: l' ∧ isDigit x := by
    intro l hl hne
    obtain ⟨x, l', rfl⟩ := List.exists_cons_of_ne_nil hne
    exact ⟨x, l', rfl, hl x (by simp)⟩
  cases m with
  | plain whole =>
    obtain ⟨x, l, rfl, hx⟩ := hcons h.1 h.2.2
    exact ⟨x, l, rfl, Or.inl hx⟩
  | pointed whole fraction =>
    by_cases hne : whole = []
    · exact ⟨'.', fraction, by rw [hne]; rfl, Or.inr rfl⟩
    · obtain ⟨x, l, rfl, hx⟩ := hcons h.1 hne
      exact ⟨x, l ++ '.' :: fraction, rfl, Or.inl hx⟩

/-- No line break goes on a mantissa. -/
lemma goesOn_lineBreak (m : Mantissa) : m.goesOn '\n' = false ∧ m.goesOn '\r' = false := by
  cases m <;> exact ⟨rfl, rfl⟩

/-- A digit is never what follows a mantissa. -/
lemma notNext_isDigit {m : Mantissa} (h : NotNext m.goesOn v) : NotNext isDigit v := by
  cases m with
  | plain => exact h.imp fun x hx => by simp_all [goesOn]
  | pointed => exact h

end Mantissa

/-- The reading behind a mantissa: an exponent, if there is one. -/
def finish (alone : Token) (scaled : Int → Token) (start : Position) : CursorM Token := do
  match ← marker? with
  | none => return alone
  | some marker => return scaled (← exponent marker start).toInt

/-- Behind a whole part that no point follows. -/
lemma readPlain_eq {whole : List Char} (hle : decimal whole ≤ maxInteger) (start : Position) :
    readPlain ((decimal? whole).map Int64.ofNat) start
      = finish (Mantissa.alone (.plain whole) start) (Mantissa.scaled (.plain whole) · start)
        start := by
  have hvalue : ((decimal? whole).map Int64.ofNat).getD 0 = Int64.ofNat (decimal whole) :=
    getD_map_decimal? Int64.ofNat whole
  have hfloat : Float.ofInt (Int64.ofNat (decimal whole)).toInt = Float.ofNat (decimal whole) := by
    rw [toInt_ofNat_of_le hle]
    rfl
  simp only [readPlain, hvalue, hfloat, squaredPower_eq]
  rfl

/-- **After a mantissa** the reading goes on with the exponent. -/
theorem reads_mantissa {m : Mantissa} (hm : m.Valid) {out : Position → Except Fault Token}
    (hv : NotNext m.goesOn (l ++ v))
    (h : Reads (finish (m.alone start) (m.scaled · start) start) l v out) :
    Reads (read start) (m.text ++ l) v out := by
  cases m with
  | plain whole =>
    obtain ⟨hdigits, hle, -⟩ := hm
    refine reads_bind (reads_digits Counter.whole_upTo hdigits hle (Mantissa.notNext_isDigit hv)) ?_
    have hpoint : Mantissa.goesOn (.plain whole) '.' := by simp [Mantissa.goesOn]
    refine reads_bind_stay (reads_take_false (by decide) (hv.head?_ne hpoint)) ?_
    rw [← readPlain_eq hle] at h
    rw [if_neg Bool.false_ne_true]
    exact h
  | pointed whole fraction =>
    obtain ⟨hdigits, hle, hfraction, hne⟩ := hm
    have hpoint : Mantissa.text (.pointed whole fraction) ++ l
        = whole ++ (['.'] ++ (fraction ++ l)) := by
      simp [Mantissa.text]
    rw [hpoint]
    refine reads_bind (reads_digits Counter.whole_upTo hdigits hle (by simp; decide)) ?_
    refine reads_bind (reads_take (by decide) (by decide) _) ?_
    obtain ⟨f, hf, hvalue, hnonempty⟩ := reads_fraction hfraction hv hle
    have hsome : (((decimal? whole).map Int64.ofNat).isNone && !f.nonempty) = false := by
      rw [Option.isNone_map, isNone_decimal?, hnonempty]
      rcases hne with hne | hne <;> simp [hne]
    have hf' : Yields (Numeral.fraction (((decimal? whole).map Int64.ofNat).getD 0)) fraction
        (l ++ v) f := by
      have hzero := getD_map_decimal? Int64.ofNat whole
      rwa [← hzero] at hf
    refine reads_bind hf' ?_
    rw [hsome, if_neg Bool.false_ne_true, hvalue]
    exact h

/-- A mantissa that no exponent follows. -/
lemma reads_finish_alone {alone : Token} {scaled : Int → Token} (hv : NotNext isMarker v) :
    Yields (finish alone scaled start) [] v alone :=
  reads_bind_stay (reads_marker_none hv) (reads_pure _ v)

/-- The reading of an exponent behind its marker. -/
lemma reads_finish_marker {alone : Token} {scaled : Int → Token} {m : Char} (hm : isMarker m)
    {out : Position → Except Fault Token}
    (h : Reads (exponent m start >>= fun e => pure (scaled e.toInt)) l v out) :
    Reads (finish alone scaled start) (m :: l) v out :=
  reads_bind (reads_marker hm _) h

/-- A mantissa that an exponent within the limit follows. -/
lemma reads_finish_scaled {alone : Token} {scaled : Int → Token} {s : List Char} {m : Char}
    (hm : isMarker m) (hs : OptionalSign s) (hne : l ≠ []) (hl : ∀ x ∈ l, isDigit x)
    (hle : decimal l ≤ maxExponent) (hv : NotNext isDigit v) :
    Yields (finish alone scaled start) (m :: (s ++ l)) v (scaled (signed s l)) := by
  obtain ⟨e, he, hexponent⟩ : ∃ e : Int32, e.toInt = signed s l
      ∧ Yields (exponent m start) (s ++ l) v e := reads_exponent hs hne hl hle hv
  rw [← he]
  exact reads_finish_marker hm (reads_bind_last hexponent (reads_pure _ v))

/-- A whole part beyond the limit is a fault, whatever follows it. -/
theorem reads_read_overflow (hl : ∀ x ∈ l, isDigit x) (hlt : maxInteger < decimal l)
    (start : Position) (v : List Char) :
    ∃ a b, l = a ++ b ∧ b ≠ [] ∧ Fails (read start) a (b ++ v) ⟨.integerOverflow, start⟩ := by
  obtain ⟨a, b, hab, hb, hfails⟩ : ∃ a b, l = a ++ b ∧ b ≠ []
      ∧ Fails (digits Counter.whole .integerOverflow start) a (b ++ v) ⟨.integerOverflow, start⟩ :=
    reads_digits_beyond Counter.whole_upTo hl hlt v
  exact ⟨a, b, hab, hb, reads_bind_fault (F := fun _ => _) hfails⟩

/-- A point without a digit on either side is a fault. -/
theorem reads_read_barePoint (hv : NotNext isDigit v) (start : Position) :
    Fails (read start) ['.'] v ⟨.invalidNumber, start⟩ := by
  have hnone : Yields (digits Counter.whole .integerOverflow start) [] (['.'] ++ v) none :=
    reads_digits Counter.whole_upTo (by simp) (Nat.zero_le _) (by simp; decide)
  refine reads_bind_stay hnone ?_
  refine reads_bind_last (reads_take (by decide) (by decide) v) ?_
  obtain ⟨f, hf, -, hnonempty⟩ := reads_fraction (l := []) (by simp) hv (Nat.zero_le _)
  have hbare : ((none : Option Int64).isNone && !f.nonempty) = true := by simp [hnonempty]
  refine reads_bind_stay hf ?_
  rw [hbare, if_pos rfl]
  exact reads_fail _ _ v

end Lexis.Numeral
