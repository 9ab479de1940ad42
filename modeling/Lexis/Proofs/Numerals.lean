import Lexis.Proofs.Scan.Call
import Lexis.Proofs.Scan.Token

/-!
# Numerals up to their limits

What is made of a numeral is told by its parts, each as long as the text allows:
digits, a point with the digits behind it, and a marker with a sign and digits.  The
whole part and the exponent have limits, which hold of the values of their digits,
however many there are.

* `Numeral.Parts`, `Numeral.Parts.cut`: the parts of a numeral, and those that a text
  begins with;
* `Numeral.Mantissa.cut_eq`, `Numeral.Exponent.cut_eq`: each part is a longest one;
* `Numeral.Parts.verdict`: the token that the parts amount to, or their fault;
* `Numeral.read_cut`: the reading of a numeral comes to the verdict;
* `Scanner.readNumeral_cut`: so does a numeral that the scanner is asked for.
-/

namespace Lexis

open CursorM

namespace Numeral

variable {l v w : List Char} {o : Position} {c : Cursor}

/-! ### Parts -/

/-- The digits in front of the point. -/
def Mantissa.whole : Mantissa → List Char
  | plain whole => whole
  | pointed whole _ => whole

/-- Is the mantissa a point and nothing else? -/
def Mantissa.isBarePoint : Mantissa → Bool
  | pointed [] [] => true
  | _ => false

/-- An exponent as it is written. -/
structure Exponent where
  /-- The letter in front. -/
  marker : Char
  /-- The sign, which may be missing. -/
  sign : List Char
  /-- The digits. -/
  digits : List Char

/-- The characters of an exponent. -/
def Exponent.text (x : Exponent) : List Char := x.marker :: (x.sign ++ x.digits)

/-- A numeral as it is written, whatever it is worth. -/
structure Parts where
  /-- What is in front of the exponent. -/
  mantissa : Mantissa
  /-- The exponent, if there is one. -/
  exponent? : Option Exponent

/-- The characters of a numeral. -/
def Parts.text (p : Parts) : List Char :=
  p.mantissa.text ++ (p.exponent?.map Exponent.text).getD []

/-- The longest mantissa that a text begins with, and what follows it. -/
def Mantissa.cut (w : List Char) : Mantissa × List Char :=
  match w.dropWhile isDigit with
  | '.' :: v => (.pointed (w.takeWhile isDigit) (v.takeWhile isDigit), v.dropWhile isDigit)
  | v => (.plain (w.takeWhile isDigit), v)

/-- The sign that a text begins with, if it begins with one, and what follows it. -/
def cutSign : List Char → List Char × List Char
  | [] => ([], [])
  | c :: v => if isSign c then ([c], v) else ([], c :: v)

/-- The longest exponent that a text begins with, if it begins with a marker, and
what follows it. -/
def Exponent.cut : List Char → Option Exponent × List Char
  | [] => (none, [])
  | c :: v =>
    if isMarker c then
      let (sign, u) := cutSign v
      (some ⟨c, sign, u.takeWhile isDigit⟩, u.dropWhile isDigit)
    else (none, c :: v)

/-- The longest numeral that a text begins with, and what follows it. -/
def Parts.cut (w : List Char) : Parts × List Char :=
  let (mantissa, u) := Mantissa.cut w
  let (exponent?, v) := Exponent.cut u
  (⟨mantissa, exponent?⟩, v)

/-- The token that the parts of a numeral amount to that starts at `start`, or their
fault; a digit is missed at `here`. -/
def Parts.verdict (p : Parts) (start here : Position) : Except Fault Token :=
  if maxInteger < decimal p.mantissa.whole then .error ⟨.integerOverflow, start⟩
  else if p.mantissa.isBarePoint then .error ⟨.invalidNumber, start⟩
  else
    match p.exponent? with
    | none => .ok (p.mantissa.alone start)
    | some x =>
      if x.digits = [] then .error ⟨.missingCharacter "a digit" x.marker, here⟩
      else if maxExponent < decimal x.digits then .error ⟨.exponentOverflow, start⟩
      else .ok (p.mantissa.scaled (signed x.sign x.digits) start)

/-! ### Each part is a longest one -/

/-- A run of digits, or two with a point between them, in front of what does not go
on with them. -/
structure Mantissa.Longest (m : Mantissa) (v : List Char) : Prop where
  /-- The whole part is made of digits. -/
  whole : ∀ x ∈ m.whole, isDigit x
  /-- So is the fraction. -/
  fraction : ∀ a b, m = .pointed a b → ∀ x ∈ b, isDigit x
  /-- Neither a digit follows nor a first point. -/
  goesOn : NotNext m.goesOn v

/-- A text begins with a longest mantissa. -/
lemma Mantissa.cut_eq (w : List Char) :
    ∃ m v, cut w = (m, v) ∧ w = m.text ++ v ∧ m.Longest v := by
  have hw := List.takeWhile_append_dropWhile (p := isDigit) (l := w)
  have hwhole : ∀ x ∈ w.takeWhile isDigit, isDigit x := fun _ => List.mem_takeWhile_imp
  have hnext := notNext_dropWhile isDigit w
  unfold cut
  split
  next v hv =>
    rw [hv] at hw
    refine ⟨_, _, rfl, ?_, hwhole, ?_, notNext_dropWhile isDigit v⟩
    · rw [text, List.append_assoc, List.cons_append, List.takeWhile_append_dropWhile, hw]
    · rintro a b ⟨⟩
      exact fun _ => List.mem_takeWhile_imp
  next hpoint =>
    refine ⟨_, _, rfl, hw.symm, hwhole, (by rintro a b ⟨⟩), fun x hx => ?_⟩
    have hx' : x ≠ '.' := by
      rintro rfl
      obtain ⟨v, hv⟩ := List.head?_eq_some_iff.mp hx
      exact hpoint v hv
    simpa [goesOn, hx'] using hnext x hx

/-- A text begins with a sign or with none. -/
lemma cutSign_eq (w : List Char) :
    ∃ s v, cutSign w = (s, v) ∧ w = s ++ v ∧ OptionalSign s ∧ (s = [] → NotNext isSign v) := by
  obtain ⟨s, v, rfl, hs, hsign⟩ := exists_sign w
  refine ⟨s, v, ?_, rfl, hs, hsign⟩
  rcases hs with rfl | ⟨c, hc, rfl⟩
  · have hv := hsign rfl
    cases v with
    | nil => rfl
    | cons c v => rw [List.nil_append, cutSign, if_neg (by simpa using hv)]
  · rw [List.singleton_append, cutSign, if_pos hc]

/-- A marker, a sign or none, and a run of digits, in front of what does not go on
with them. -/
structure Exponent.Longest (x : Exponent) (v : List Char) : Prop where
  /-- A marker comes first. -/
  marker : isMarker x.marker
  /-- There is one sign at most. -/
  optionalSign : OptionalSign x.sign
  /-- Where there is none, none has been left out. -/
  notNext_sign : x.sign = [] → NotNext isSign (x.digits ++ v)
  /-- The digits are digits. -/
  digits : ∀ y ∈ x.digits, isDigit y
  /-- No other digit follows. -/
  notNext_digit : NotNext isDigit v

/-- A text begins with no marker or with a longest exponent. -/
lemma Exponent.cut_eq (w : List Char) :
    (cut w = (none, w) ∧ NotNext isMarker w)
      ∨ ∃ x v, cut w = (some x, v) ∧ w = x.text ++ v ∧ x.Longest v := by
  rcases notNext_or_cons isMarker w with hw | ⟨e, w, rfl, he⟩
  · refine Or.inl ⟨?_, hw⟩
    cases w with
    | nil => rfl
    | cons c w => rw [cut, if_neg (by simpa using hw)]
  · obtain ⟨s, u, hcut, rfl, hs, hsign⟩ := cutSign_eq w
    have hu := List.takeWhile_append_dropWhile (p := isDigit) (l := u)
    refine Or.inr ⟨⟨e, s, u.takeWhile isDigit⟩, u.dropWhile isDigit, ?_, ?_, he, hs, ?_,
      fun _ => List.mem_takeWhile_imp, notNext_dropWhile isDigit u⟩
    · rw [cut, if_pos he, hcut]
    · rw [text, List.cons_append, List.append_assoc, hu]
    · rwa [hu]

/-- The parts and what follows them make up the text. -/
lemma Parts.cut_append (w : List Char) : w = (cut w).1.text ++ (cut w).2 := by
  obtain ⟨m, u, hcut, rfl, -⟩ := Mantissa.cut_eq w
  rw [cut, hcut]
  rcases Exponent.cut_eq u with ⟨hcut, -⟩ | ⟨x, v, hcut, rfl, -⟩
  · simp [hcut, text]
  · simp [hcut, text]

/-- A token is that of the mantissa, alone or with the exponent, and the whole part
keeps within its limit. -/
lemma Parts.of_verdict {p : Parts} {start here : Position} {t : Token}
    (h : p.verdict start here = .ok t) :
    decimal p.mantissa.whole ≤ maxInteger
      ∧ (p.exponent? = none ∧ t = p.mantissa.alone start
        ∨ ∃ x, p.exponent? = some x ∧ t = p.mantissa.scaled (signed x.sign x.digits) start) := by
  unfold verdict at h
  split at h
  next => cases h
  next hle =>
    refine ⟨Nat.le_of_not_lt hle, ?_⟩
    split at h
    next => cases h
    next =>
      split at h
      next hnone =>
        cases h
        exact Or.inl ⟨hnone, rfl⟩
      next x hx =>
        split at h
        next => cases h
        next =>
          split at h <;> cases h
          exact Or.inr ⟨x, hx, rfl⟩

/-- A whole number has the value of its digits. -/
lemma Parts.intValue_eq {p : Parts} {start here : Position} {t : Token}
    (h : p.verdict start here = .ok t) (hkind : t.kind = .integer) :
    t.intValue.toInt = decimal p.mantissa.whole := by
  obtain ⟨hle, ⟨-, rfl⟩ | ⟨x, -, rfl⟩⟩ := of_verdict h
  · cases hm : p.mantissa with
    | plain whole =>
      rw [hm] at hle
      exact toInt_ofNat_of_le hle
    | pointed whole fraction => rw [hm] at hkind; cases hkind
  · cases hm : p.mantissa <;> rw [hm] at hkind <;> cases hkind

/-! ### The reading comes to the verdict -/

/-- A longest mantissa within the limit is valid, if the text begins as a numeral
does and there is more than a point. -/
lemma Mantissa.Longest.valid {m : Mantissa} (h : m.Longest v)
    (hfirst : ∃ x ∈ (m.text ++ v).head?, isDigit x ∨ x = '.')
    (hle : decimal m.whole ≤ maxInteger) (hbare : m.isBarePoint = false) : m.Valid := by
  obtain ⟨x, hx, hfirst⟩ := hfirst
  cases m with
  | plain whole =>
    refine ⟨h.whole, hle, ?_⟩
    rintro rfl
    have hnot := h.goesOn x hx
    rcases hfirst with hd | rfl
    · simp [Mantissa.goesOn, hd] at hnot
    · simp [Mantissa.goesOn] at hnot
  | pointed whole fraction =>
    refine ⟨h.whole, hle, h.fraction whole fraction rfl, ?_⟩
    by_contra hnone
    push Not at hnone
    obtain ⟨rfl, rfl⟩ := hnone
    exact absurd hbare (by decide)

lemma Mantissa.eq_of_isBarePoint {m : Mantissa} (h : m.isBarePoint) : m = .pointed [] [] := by
  unfold isBarePoint at h
  split at h
  next => rfl
  next => cases h

/-- A valid mantissa keeps within the limit and is more than a point. -/
lemma Mantissa.Valid.limits {m : Mantissa} (h : m.Valid) :
    ¬maxInteger < decimal m.whole ∧ ¬m.isBarePoint := by
  cases m with
  | plain => exact ⟨Nat.not_lt.mpr h.2.1, Bool.false_ne_true⟩
  | pointed whole fraction =>
    refine ⟨Nat.not_lt.mpr h.2.1, ?_⟩
    rcases h.2.2.2 with hne | hne <;> cases whole <;> cases fraction <;>
      simp_all [isBarePoint]

/-- What a reading has come to whose verdict is `r`: a token has been passed. -/
def Comes (o : Position) (l v : List Char) (r : Except Fault Token)
    (result : EStateM.Result Fault Cursor Token) : Prop :=
  ∃ c, result = outcome r c ∧ ∀ t, r = .ok t → c.At (o.through l) v

/-- The verdict is a fault. -/
lemma Comes.of_error {f : Fault} {result : EStateM.Result Fault Cursor Token}
    (h : ∃ c, result = .error f c) : Comes o l v (.error f) result := by
  obtain ⟨c, h⟩ := h
  exact ⟨c, h, by simp⟩

/-- The verdict is a token. -/
lemma Comes.of_yields {x : CursorM Token} {t : Token} (h : Yields x l v t)
    (hv : v.head? ≠ some '\r') (hat : c.At o (l ++ v)) : Comes o l v (.ok t) (x c) := by
  obtain ⟨c', hat', hx⟩ := (h.meets c o hat).here hv
  exact ⟨c', hx, fun _ _ => hat'⟩

/-- A whole part beyond the limit decides alone. -/
lemma Comes.of_overflow {m : Mantissa} {u : List Char} (hm : m.Longest u)
    (hlt : maxInteger < decimal m.whole) (hat : c.At o (m.text ++ u)) (start : Position) :
    Comes o l v (.error ⟨.integerOverflow, start⟩) (read start c) := by
  obtain ⟨t, ht⟩ : ∃ t, m.text = m.whole ++ t := by
    cases m with
    | plain => exact ⟨[], by simp [Mantissa.text, Mantissa.whole]⟩
    | pointed whole fraction => exact ⟨'.' :: fraction, rfl⟩
  obtain ⟨a, b, hab, hb, hfails⟩ : ∃ a b, m.whole = a ++ b ∧ b ≠ []
      ∧ Fails (read start) a (b ++ (t ++ u)) ⟨.integerOverflow, start⟩ :=
    reads_read_overflow hm.whole hlt start (t ++ u)
  rw [ht, hab, List.append_assoc, List.append_assoc] at hat
  exact .of_error (hfails.finds (head?_ne_of_digits (hab ▸ hm.whole) hb _) hat)

/-- Behind a valid mantissa the exponent decides. -/
lemma Comes.of_exponent {m : Mantissa} {x : Exponent} (hm : m.Valid)
    (hx : x.Longest v) (hr : v.head? ≠ some '\r') (start : Position)
    (hat : c.At o (Parts.text ⟨m, some x⟩ ++ v)) :
    let p : Parts := ⟨m, some x⟩
    Comes o p.text v (p.verdict start ((o.through p.text).toward v)) (read start c) := by
  intro p
  obtain ⟨hle, hbare⟩ := hm.limits
  simp only [Parts.verdict, p, if_neg hle, if_neg hbare]
  split
  next hnone =>
    have hsign := hx.notNext_sign
    have htext : p.text = m.text ++ x.marker :: x.sign := by
      simp [p, Parts.text, Exponent.text, hnone]
    rw [hnone] at hsign
    rw [htext] at hat ⊢
    exact .of_error ((reads_exponent_behind hm hx.marker
      (reads_exponent_missing hx.optionalSign hx.notNext_digit hsign)).finds hr hat)
  next hne =>
    split
    next hlt =>
      obtain ⟨a, b, hab, hb, hfails⟩ : ∃ a b, x.digits = a ++ b ∧ b ≠ []
          ∧ Fails (exponent x.marker start) (x.sign ++ a) (b ++ v) ⟨.exponentOverflow, start⟩ :=
        reads_exponent_beyond hx.optionalSign hx.digits hlt v
      have hb' := head?_ne_of_digits (hab ▸ hx.digits) hb v
      have hat' : c.At o (m.text ++ x.marker :: (x.sign ++ a) ++ (b ++ v)) := by
        simpa [p, Parts.text, Exponent.text, hab] using hat
      exact .of_error ((reads_exponent_behind hm hx.marker hfails).finds hb' hat')
    next hle =>
      have hgoesOn : NotNext m.goesOn (x.text ++ v) := by
        rw [Exponent.text, List.cons_append, notNext_cons]
        rcases eq_of_isMarker hx.marker with he | he <;> rw [he] <;> cases m <;> rfl
      exact .of_yields (reads_mantissa hm hgoesOn (reads_finish_scaled hx.marker hx.optionalSign
        hne hx.digits (Nat.le_of_not_lt hle) hx.notNext_digit)) hr hat

/-- **The reading of a numeral** comes to the verdict of the longest parts that the
text begins with. -/
theorem read_cut (hat : c.At o w) (hfirst : ∃ x ∈ w.head?, isDigit x ∨ x = '.')
    (hclean : '\r' ∉ w) (start : Position) :
    let p := (Parts.cut w).1
    let v := (Parts.cut w).2
    Comes o p.text v (p.verdict start ((o.through p.text).toward v)) (read start c) := by
  obtain ⟨m, u, hcut, rfl, hm⟩ := Mantissa.cut_eq w
  have hu : u.head? ≠ some '\r' := fun h => hclean (by simp [List.mem_of_head? h])
  simp only [Parts.cut, hcut]
  by_cases hlt : maxInteger < decimal m.whole
  · simp only [Parts.verdict, if_pos hlt]
    exact .of_overflow hm hlt hat start
  by_cases hbare : m.isBarePoint
  · simp only [Parts.verdict, if_neg hlt, if_pos hbare]
    obtain rfl := Mantissa.eq_of_isBarePoint hbare
    exact .of_error ((reads_read_barePoint hm.goesOn start).finds hu hat)
  have hvalid := hm.valid hfirst (Nat.le_of_not_lt hlt) (by simpa using hbare)
  rcases Exponent.cut_eq u with ⟨hcut, hmarker⟩ | ⟨x, v, hcut, rfl, hx⟩
  · simp only [hcut, Parts.verdict, if_neg hlt, if_neg hbare]
    have hreads : Yields (read start) (m.text ++ []) u (m.alone start) :=
      reads_mantissa hvalid hm.goesOn (reads_finish_alone hmarker)
    exact .of_yields hreads hu (by simpa [Parts.text] using hat)
  · simp only [hcut]
    have hr : v.head? ≠ some '\r' := fun h => hclean (by simp [List.mem_of_head? h])
    exact .of_exponent hvalid hx hr start (by simpa [Parts.text] using hat)

end Numeral

/-! ### A numeral that the scanner is asked for -/

/-- A cursor that shows a character which is no blank has come to a place before
it. -/
lemma Cursor.exists_at {c : Cursor} {x : Char} (hx : c.shown? = some x) (hblank : x ≠ ' ')
    (hr : x ≠ '\r') (hb : x ≠ '\n') : ∃ o, c.At o (x :: folded c.rest) := by
  obtain ⟨g, hg, hshown⟩ := Option.map_eq_some_iff.mp hx
  obtain rfl : g = .ofChar x := by
    cases g with
    | lineBreak => exact absurd hshown.symm hblank
    | char y =>
      obtain rfl : y = x := hshown
      rw [Glyph.ofChar, if_neg hb]
  have hplace : (⟨c.position.line, c.position.column - 1⟩ : Position).past x = c.position := by
    rw [Position.past_of_ne hb, Position.right, UInt32.sub_add_cancel]
  have hat := Cursor.At.shows ⟨c.position.line, c.position.column - 1⟩ x c.rest hr
  rw [← Cursor.ahead_of_glyph? hg, hplace] at hat
  exact ⟨_, hat⟩

namespace Scanner

open Numeral

/-- **Numerals up to their limits.**  A numeral that a scanner is asked for is read as
the longest parts tell that the text at the cursor begins with: a whole part beyond
the largest number is a fault whatever follows, and so is then a point without a
digit, an exponent without one, and an exponent beyond the largest one; anything
else is a token, behind whose parts the cursor has come, and a whole number has the
value of its digits. -/
theorem readNumeral_cut {s : Scanner} {x : Char} (hx : s.cursor.shown? = some x)
    (hfirst : isDigit x ∨ x = '.') (hrest : ¬HasStrayReturn s.cursor.rest) :
    let w := x :: folded s.cursor.rest
    let p := (Parts.cut w).1
    let v := (Parts.cut w).2
    w = p.text ++ v ∧ ∃ o, s.cursor.At o w ∧ ∃ c,
      let r := p.verdict s.tokenStart ((o.through p.text).toward v)
      (∀ f, r = .error f → readNumeral s = .error f { s with cursor := c })
        ∧ ∀ t, r = .ok t → readNumeral s = .ok t { s with cursor := c }
          ∧ c.At (o.through p.text) v
          ∧ (t.kind = .integer → t.intValue.toInt = decimal p.mantissa.whole) := by
  intro w p v
  have hne (y : Char) (hd : isDigit y = false) (hp : y ≠ '.') : x ≠ y := by
    rintro rfl
    rcases hfirst with h | h
    · simp [h] at hd
    · exact hp h
  have hr := hne '\r' (by decide) (by decide)
  obtain ⟨o, hat⟩ := Cursor.exists_at hx (hne ' ' (by decide) (by decide)) hr
    (hne '\n' (by decide) (by decide))
  have hclean : '\r' ∉ w := by
    rw [hasStrayReturn_iff] at hrest
    simpa [w] using ⟨Ne.symm hr, hrest⟩
  obtain ⟨c, hread, hpassed⟩ := read_cut hat ⟨x, rfl, hfirst⟩ hclean s.tokenStart
  have hreader : readNumeral s = ScanM.onCursor (Numeral.read s.tokenStart) s := rfl
  refine ⟨Parts.cut_append w, o, hat, c, fun f hf => ?_, fun t ht => ⟨?_, hpassed t ht, ?_⟩⟩
  · rw [hreader, ScanM.onCursor, hread, hf, outcome]
  · rw [hreader, ScanM.onCursor, hread, ht, outcome]
  · exact Parts.intValue_eq ht

/-- The largest whole number behind two zeros. -/
theorem readNumeral_cut_zeros :
    let s := stateAfter (load "009223372036854775807;" new)
    ∃ c o, readNumeral s = .ok (.integer 9223372036854775807 s.tokenStart) { s with cursor := c }
      ∧ c.At o [';'] := by
  intro s
  have hrest : ¬HasStrayReturn s.cursor.rest := by
    rw [hasStrayReturn_iff]
    decide +kernel
  obtain ⟨-, o, -, c, -, hread⟩ := readNumeral_cut (s := s) (x := '0') (by decide +kernel)
    (Or.inl (by decide)) hrest
  obtain ⟨htoken, hat, -⟩ := hread (.integer 9223372036854775807 s.tokenStart) rfl
  exact ⟨c, _, htoken, hat⟩

end Scanner

end Lexis
