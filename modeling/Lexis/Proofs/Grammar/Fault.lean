import Lexis.Proofs.Grammar.Gap
import Lexis.Proofs.Grammar.Lexeme

/-!
# Faults of a text

Where neither a gap nor a lexeme begins a text there is a fault.  The text tells
which one it is and where it is met: most faults are met where the lexeme
starts, and a character that is missing where it is missing.  A stray carriage
return is met by whatever has to be seen through to its end.

* `Interrupted`: what a stray carriage return may break off;
* `Faulty`: the fault that a text begins with;
* `Settled`: a text that begins with a lexeme whose end is seen, or with a fault;
* `settled_of_opener?`: so does every text that is not empty and begins with no gap.
-/

namespace Lexis

open CursorM Numeral Quoted

variable {l v r : List Char} {token : Position → Token} {o : Position} {f : Fault}

/-! ### Which characters begin something -/

/-- The character begins neither a gap nor a lexeme, and is no carriage
return. -/
structure BeginsNothing (c : Char) : Prop where
  not_stray : c ≠ '\r'
  not_gap : ∀ (gap : Gap) (l v : List Char), ¬ gap.Piece (c :: l) v
  not_lexeme : ∀ (l v : List Char) (token : Position → Token), ¬ Lexeme (c :: l) v token

/-- A digit alone is a mantissa. -/
lemma Numeral.valid_singleton {c : Char} (h : isDigit c) : (Mantissa.plain [c]).Valid := by
  have hle : digitOf c ≤ 9 := Nat.le_of_lt_succ (digitOf_lt h)
  refine ⟨by simpa using h, ?_, by simp⟩
  have hvalue : decimal [c] = digitOf c := by simp [decimal]
  rw [hvalue]
  exact hle.trans (by decide)

/-- A character that begins nothing is of no class and makes up no symbol. -/
lemma BeginsNothing.symbols {c : Char} (h : BeginsNothing c) :
    CharClass.of c = .other ∧ c ≠ '\n' ∧ Symbol.ofChar? c = none
      ∧ Symbol.beforeEquals? c = none := by
  have hblank : ¬(c = ' ' ∨ c = '\t' ∨ c = '\n') := fun hc => h.not_gap .blank [] [] (.blank hc)
  have hsymbol : Symbol.ofChar? c = none := by
    by_contra hs
    obtain ⟨s, hs⟩ := Option.ne_none_iff_exists'.mp hs
    exact h.not_lexeme [] [] _ (.mark hs (by simp))
  have hjoined : Symbol.beforeEquals? c = none := by
    by_contra hs
    obtain ⟨⟨a, j⟩, hs⟩ := Option.ne_none_iff_exists'.mp hs
    exact h.not_lexeme ['='] [] _ (.joined hs)
  refine ⟨?_, fun hb => hblank (by simp [hb]), hsymbol, hjoined⟩
  cases hclass : CharClass.of c with
  | other => rfl
  | wordStart =>
    have hc := isWordStart_of_class hclass
    cases hk : Keyword.ofSpelling? (String.ofList [c]) with
    | some k => exact absurd (.keyword hc (by simp) (by simp) hk) (h.not_lexeme [] [] _)
    | none => exact absurd (.identifier hc (by simp) (by simp) hk) (h.not_lexeme [] [] _)
  | digit =>
    have hm := valid_singleton (isDigit_of_class hclass)
    exact absurd (.numeral hm (by simp)) (h.not_lexeme [] [] _)
  | dot =>
    obtain rfl := eq_dot_of_class hclass
    have hzero : ∀ x ∈ ['0'], isDigit x := by
      intro x hx
      rw [List.mem_singleton.mp hx]
      decide
    have hm : (Mantissa.pointed [] ['0']).Valid :=
      ⟨by simp, Nat.zero_le _, hzero, Or.inr (by simp)⟩
    exact absurd (.numeral hm (by simp)) (h.not_lexeme ['0'] [] _)
  | quote =>
    have hc : c = '"' := by grind [CharClass.of]
    subst hc
    exact absurd (.quoted .nil) (h.not_lexeme ['"'] [] _)
  | blank =>
    have hc : c = ' ' ∨ c = '\t' := by grind [CharClass.of]
    exact absurd (by tauto) hblank

/-- What begins a numeral is of the class of digits or of points. -/
lemma CharClass.ne_other_of_numeral {c : Char} (h : isDigit c ∨ c = '.') :
    CharClass.of c ≠ .other := by
  rcases h with h | rfl
  · rw [CharClass.of_isDigit h]
    decide
  · decide

/-- A character of no class that makes up no symbol begins nothing. -/
lemma BeginsNothing.of_symbols {c : Char} (hclass : CharClass.of c = .other) (hr : c ≠ '\r')
    (hb : c ≠ '\n') (hs : Symbol.ofChar? c = none) (he : Symbol.beforeEquals? c = none) :
    BeginsNothing c where
  not_stray := hr
  not_gap gap l v h := by
    cases h with
    | blank hc =>
      rcases hc with rfl | rfl | rfl
      · exact absurd hclass (by decide)
      · exact absurd hclass (by decide)
      · exact hb rfl
    | lineComment => simp [Symbol.ofChar?] at hs
    | blockComment => simp [Symbol.ofChar?] at hs
  not_lexeme l v token h := by
    generalize hw : c :: l = w at h
    cases h with
    | keyword hc | identifier hc =>
      cases hw
      rw [CharClass.of_isWordStart hc] at hclass
      exact absurd hclass (by decide)
    | numeral hm | scaled hm =>
      obtain ⟨x, l', hx, hfirst⟩ := hm.exists_cons
      rw [hx] at hw
      cases hw
      exact CharClass.ne_other_of_numeral hfirst hclass
    | quoted =>
      cases hw
      exact absurd hclass (by decide)
    | mark hs' | alone hs' | joined hs' =>
      cases hw
      simp_all

/-! ### Faults -/

/-- What a stray carriage return may break off: it has not come to its end. -/
inductive Interrupted : List Char → Prop
  /-- Nothing. -/
  | nothing : Interrupted []
  /-- A lexeme whose end has not been seen. -/
  | lexeme {l : List Char} {token : Position → Token} (h : Lexeme l [] token) : Interrupted l
  /-- A point without a digit in front of it. -/
  | point : Interrupted ['.']
  /-- A mark that needs an equals sign. -/
  | mark : Interrupted ['!']
  /-- A numeral up to the digits of its exponent. -/
  | exponent {m : Mantissa} {e : Char} {s : List Char} (hm : m.Valid) (he : isMarker e)
      (hs : OptionalSign s) : Interrupted (m.text ++ e :: s)
  /-- A quoted text without its closing quote. -/
  | quoted {body : List Char} (h : Unclosed body) : Interrupted ('"' :: body)
  /-- A line comment. -/
  | lineComment {body : List Char} (h : '\n' ∉ body) : Interrupted ('/' :: '/' :: body)
  /-- A block comment without its closing mark. -/
  | blockComment {body : List Char} (h : Gap.Unclosed body) : Interrupted ('/' :: '*' :: body)

/-- The fault that a text begins with, at the place `o`. -/
inductive Faulty (o : Position) : List Char → Fault → Prop
  /-- A character begins neither a gap nor a lexeme. -/
  | unrecognizedCharacter {c : Char} {v : List Char} (hc : BeginsNothing c) :
    Faulty o (c :: v) ⟨.unrecognizedCharacter c, o.right 1⟩
  /-- A whole number is beyond the largest one, whatever follows it. -/
  | integerOverflow {d v : List Char} (hd : ∀ x ∈ d, isDigit x) (hlt : maxInteger < decimal d) :
    Faulty o (d ++ v) ⟨.integerOverflow, o.right 1⟩
  /-- A point has no digit on either side. -/
  | invalidNumber {v : List Char} (hv : NotNext isDigit v) (hr : v.head? ≠ some '\r') :
    Faulty o ('.' :: v) ⟨.invalidNumber, o.right 1⟩
  /-- A mark that needs an equals sign has none. -/
  | missingEquals {v : List Char} (hv : NotNext (· == '=') v) (hr : v.head? ≠ some '\r') :
    Faulty o ('!' :: v) ⟨.missingCharacter "'='" '!', (o.through ['!']).toward v⟩
  /-- An exponent has no digit. -/
  | missingDigit {m : Mantissa} {e : Char} {s v : List Char} (hm : m.Valid) (he : isMarker e)
      (hs : OptionalSign s) (hv : NotNext isDigit v) (hsign : s = [] → NotNext isSign v)
      (hr : v.head? ≠ some '\r') :
    Faulty o (m.text ++ e :: s ++ v)
      ⟨.missingCharacter "a digit" e, (o.through (m.text ++ e :: s)).toward v⟩
  /-- An exponent is beyond the largest one, whatever follows it. -/
  | exponentOverflow {m : Mantissa} {e : Char} {s d v : List Char} (hm : m.Valid)
      (he : isMarker e) (hs : OptionalSign s) (hd : ∀ x ∈ d, isDigit x)
      (hlt : maxExponent < decimal d) :
    Faulty o (m.text ++ e :: (s ++ d) ++ v) ⟨.exponentOverflow, o.right 1⟩
  /-- No quote closes a text. -/
  | unterminatedString {body : List Char} (h : Unclosed body) (hclean : '\r' ∉ body) :
    Faulty o ('"' :: body) ⟨.unterminatedString, o.right 1⟩
  /-- No mark closes a block comment: the fault is met at the end of the text. -/
  | unterminatedComment {body : List Char} (h : Gap.Unclosed body) (hclean : '\r' ∉ body) :
    Faulty o ('/' :: '*' :: body) ⟨.unterminatedComment, o.through ('/' :: '*' :: body)⟩
  /-- A carriage return is stray: the fault is met behind the character after
  it. -/
  | malformedLineEnding {u v : List Char} (h : Interrupted u) (hclean : '\r' ∉ u) :
    Faulty o (u ++ '\r' :: v) ⟨.malformedLineEnding, (o.through u).right (strayWidth v)⟩

/-! ### Which fault a text begins with -/

/-- The text begins with a lexeme whose end is seen, or with a fault. -/
def Settled (o : Position) (r : List Char) : Prop :=
  (∃ l v token, r = l ++ v ∧ Lexeme l v token ∧ '\r' ∉ l ∧ v.head? ≠ some '\r')
    ∨ ∃ f, Faulty o r f

/-- The end of a lexeme is seen, or a stray carriage return breaks it off. -/
lemma Settled.of_lexeme (h : Lexeme l v token) (hclean : '\r' ∉ l) : Settled o (l ++ v) := by
  rcases strayFirst_or v with ⟨v', rfl⟩ | hv
  · have hl : Lexeme l [] token := h.before (by simp)
    exact Or.inr ⟨_, .malformedLineEnding (.lexeme hl) hclean⟩
  · exact Or.inl ⟨l, v, token, rfl, h, hclean, hv⟩

/-- Where a word begins. -/
lemma Settled.of_word {c : Char} {w : List Char} (hc : isWordStart c) : Settled o (c :: w) := by
  obtain ⟨l, v, rfl, hl, hv⟩ := exists_run isWordChar w
  have hclean : '\r' ∉ c :: l :=
    notMem_of_run (List.forall_mem_cons.mpr ⟨isWordChar_of_isWordStart hc, hl⟩) (by decide)
  rw [← List.cons_append]
  cases hk : Keyword.ofSpelling? (String.ofList (c :: l)) with
  | some k => exact .of_lexeme (.keyword hc hl hv hk) hclean
  | none => exact .of_lexeme (.identifier hc hl hv hk) hclean

/-- Where a quoted text begins. -/
lemma Settled.of_quote (w : List Char) : Settled o ('"' :: w) := by
  have hbroken : ∀ {a b : List Char}, Unclosed a → '\r' ∉ a → Settled o ('"' :: (a ++ '\r' :: b)) :=
    fun ha hclean => Or.inr ⟨_, .malformedLineEnding (.quoted ha) (by simpa using hclean)⟩
  rcases spells_or_unclosed w with ⟨body, text, v, rfl, h⟩ | h
  · by_cases hclean : '\r' ∈ body
    · -- only the body up to its first stray carriage return is read
      obtain ⟨a, b, rfl, ha⟩ := List.eq_append_cons_of_mem hclean
      rw [List.append_assoc, List.cons_append]
      exact hbroken h.unclosed.of_append ha
    · have hlexeme : Lexeme ('"' :: (body ++ ['"'])) v (Token.string (String.ofList text)) :=
        .quoted h
      have hsettled : Settled o ('"' :: (body ++ ['"']) ++ v) :=
        .of_lexeme hlexeme (by simpa using hclean)
      simpa using hsettled
  · by_cases hclean : '\r' ∈ w
    · obtain ⟨a, b, rfl, ha⟩ := List.eq_append_cons_of_mem hclean
      exact hbroken h.of_append ha
    · exact Or.inr ⟨_, .unterminatedString h hclean⟩

/-- No carriage return stands in a mantissa. -/
lemma Numeral.Mantissa.Valid.clean {m : Mantissa} (h : m.Valid) : '\r' ∉ m.text := by
  cases m with
  | plain whole => exact notMem_of_run h.1 (by decide)
  | pointed whole fraction =>
    have hwhole := notMem_of_run h.1 (y := '\r') (by decide)
    have hfraction := notMem_of_run h.2.2.1 (y := '\r') (by decide)
    simp [Mantissa.text, hwhole, hfraction]

/-- Nor in an exponent. -/
lemma Numeral.clean_exponent {e : Char} {s d : List Char} (he : isMarker e) (hs : OptionalSign s)
    (hd : ∀ x ∈ d, isDigit x) : '\r' ∉ e :: (s ++ d) := by
  have he' : '\r' ≠ e := by rintro rfl; exact absurd he (by decide)
  have hs' : '\r' ∉ s := by
    rcases hs with rfl | ⟨c, hc, rfl⟩
    · simp
    · rcases eq_of_isSign hc with rfl | rfl <;> decide
  have hd' := notMem_of_run hd (y := '\r') (by decide)
  simp [he', hs', hd']

/-- A text begins with a sign or it does not. -/
lemma Numeral.exists_sign (w : List Char) :
    ∃ s v, w = s ++ v ∧ OptionalSign s ∧ (s = [] → NotNext isSign v) := by
  rcases notNext_or_cons isSign w with hw | ⟨c, v, rfl, hc⟩
  · exact ⟨[], w, rfl, Or.inl rfl, fun _ => hw⟩
  · exact ⟨[c], v, rfl, Or.inr ⟨c, hc, rfl⟩, by simp⟩

/-- Behind a mantissa. -/
lemma Settled.of_mantissa {m : Mantissa} (hm : m.Valid) (hv : NotNext m.goesOn v) :
    Settled o (m.text ++ v) := by
  rcases notNext_or_cons isMarker v with hmarker | ⟨e, w, rfl, he⟩
  · refine .of_lexeme (.numeral hm fun x hx => ?_) hm.clean
    simp only [hv x hx, hmarker x hx, Bool.or_false]
  · obtain ⟨s, w, rfl, hs, hsign⟩ := exists_sign w
    obtain ⟨d, v, rfl, hd, hv'⟩ := exists_run isDigit w
    have hclean : '\r' ∉ m.text ++ e :: (s ++ d) := by
      simpa [hm.clean] using clean_exponent he hs hd
    by_cases hne : d = []
    · subst hne
      have hsplit : m.text ++ e :: (s ++ ([] ++ v)) = m.text ++ e :: s ++ v := by simp
      rw [hsplit]
      rcases strayFirst_or v with ⟨v', rfl⟩ | hr
      · exact Or.inr ⟨_, .malformedLineEnding (.exponent hm he hs) (by simpa using hclean)⟩
      · exact Or.inr ⟨_, .missingDigit hm he hs hv' hsign hr⟩
    · have hsplit : m.text ++ e :: (s ++ (d ++ v)) = m.text ++ e :: (s ++ d) ++ v := by simp
      rw [hsplit]
      by_cases hle : decimal d ≤ maxExponent
      · exact .of_lexeme (.scaled hm he hs hne hd hle hv') hclean
      · exact Or.inr ⟨_, .exponentOverflow hm he hs hd (Nat.lt_of_not_le hle)⟩

/-- Where a numeral begins. -/
lemma Settled.of_numeral {c : Char} {w : List Char} (hc : isDigit c ∨ c = '.') :
    Settled o (c :: w) := by
  obtain ⟨whole, v, hw, hwhole, hv⟩ := exists_run isDigit (c :: w)
  by_cases hle : maxInteger < decimal whole
  · rw [hw]
    exact Or.inr ⟨_, .integerOverflow hwhole hle⟩
  have hle := Nat.le_of_not_lt hle
  rcases notNext_or_cons (· == '.') v with hpoint | ⟨x, v, rfl, hx⟩
  · have hne : whole ≠ [] := by
      rintro rfl
      obtain rfl : c :: w = v := hw
      rcases hc with hc | rfl
      · simp [hc] at hv
      · simp at hpoint
    rw [hw]
    refine .of_mantissa (m := .plain whole) ⟨hwhole, hle, hne⟩ fun x hx => ?_
    simp only [Mantissa.goesOn, hv x hx, hpoint x hx, Bool.or_false]
  · obtain rfl : x = '.' := by simpa using hx
    obtain ⟨fraction, v, rfl, hfraction, hv'⟩ := exists_run isDigit v
    by_cases hnone : whole = [] ∧ fraction = []
    · obtain ⟨rfl, rfl⟩ := hnone
      rw [hw]
      rcases strayFirst_or v with ⟨v', rfl⟩ | hr
      · exact Or.inr ⟨_, .malformedLineEnding .point (by decide)⟩
      · exact Or.inr ⟨_, .invalidNumber hv' hr⟩
    · have hm : (Mantissa.pointed whole fraction).Valid :=
        ⟨hwhole, hle, hfraction, by tauto⟩
      have hsplit : whole ++ '.' :: (fraction ++ v)
          = (Mantissa.pointed whole fraction).text ++ v := by
        simp [Mantissa.text]
      rw [hw, hsplit]
      exact .of_mantissa hm hv'

/-- Where a character of no class stands. -/
lemma Settled.of_other {c : Char} {w : List Char} (hclass : CharClass.of c = .other)
    (hr : c ≠ '\r') (hgap : Gap.opener? (c :: w) = none) : Settled o (c :: w) := by
  have hb : c ≠ '\n' := by rintro rfl; simp [Gap.opener?] at hgap
  cases hs : Symbol.ofChar? c with
  | some s =>
    have hslash : NotNext (Mark.opensComment c) w := by
      intro x hx
      obtain ⟨w, rfl⟩ := List.head?_eq_some_iff.mp hx
      by_contra h
      simp only [Mark.opensComment, Bool.not_eq_false, Bool.and_eq_true, Bool.or_eq_true,
        beq_iff_eq] at h
      rcases h with ⟨rfl, rfl | rfl⟩ <;> simp [Gap.opener?] at hgap
    exact .of_lexeme (l := [c]) (.mark hs hslash) (by simpa using hr.symm)
  | none =>
    cases he : Symbol.beforeEquals? c with
    | none => exact Or.inr ⟨_, .unrecognizedCharacter (.of_symbols hclass hr hb hs he)⟩
    | some forms =>
      obtain ⟨a, j⟩ := forms
      rcases notNext_or_cons (· == '=') w with hw | ⟨x, w, rfl, hx⟩
      · cases a with
        | some s => exact .of_lexeme (l := [c]) (.alone he hw) (by simpa using hr.symm)
        | none =>
          obtain rfl : c = '!' := by
            unfold Symbol.beforeEquals? at he
            split at he <;> simp at he
            rfl
          rcases strayFirst_or w with ⟨v, rfl⟩ | hw'
          · exact Or.inr ⟨_, .malformedLineEnding .mark (by decide)⟩
          · exact Or.inr ⟨_, .missingEquals hw hw'⟩
      · obtain rfl : x = '=' := by simpa using hx
        exact .of_lexeme (l := [c, '=']) (.joined he) (by simpa using hr.symm)

/-- **Lexemes and faults.**  A text that is not at its end begins with a gap, with
a lexeme whose end is seen, or with a fault. -/
theorem settled_of_opener? (hne : r ≠ []) (hgap : Gap.opener? r = none) : Settled o r := by
  obtain ⟨c, w, rfl⟩ := List.exists_cons_of_ne_nil hne
  by_cases hr : c = '\r'
  · subst hr
    exact Or.inr ⟨_, .malformedLineEnding .nothing (by simp)⟩
  cases hclass : CharClass.of c with
  | wordStart => exact .of_word (isWordStart_of_class hclass)
  | digit => exact .of_numeral (Or.inl (isDigit_of_class hclass))
  | dot => exact .of_numeral (Or.inr (eq_dot_of_class hclass))
  | quote =>
    obtain rfl : c = '"' := by grind [CharClass.of]
    exact .of_quote w
  | blank =>
    have hc : c = ' ' ∨ c = '\t' := by grind [CharClass.of]
    rcases hc with rfl | rfl <;> simp [Gap.opener?] at hgap
  | other => exact .of_other hclass hr hgap

end Lexis
