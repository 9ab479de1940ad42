import Lexis.Proofs.Progress

/-!
# What readers yield

Whatever is in the window of the cursor, and whatever led to that, a reader that
yields a token yields one of its form: the form depends on the reader and on nothing
that comes before it.

* `Makes`: what a computation yields if it yields anything, which computations
  inherit from their parts;
* `Word.Collects`: the word that the window shows, one character after the other;
* `Numeral.makes_read`, `Quoted.makes_read`, `Mark.makes_read`: the tokens of
  numerals, quoted texts and marks;
* `yielded_of_readLexeme`: the tokens of all lexemes;
* `Scanner.exists_of_next`: a token of the text comes from the window behind a gap.
-/

namespace Lexis

open CursorM

variable {α β σ τ : Type} {V : α → Prop} {W : β → Prop} {start : Position}

/-- Wherever the computation starts, what it yields is such a value. -/
def Makes (V : α → Prop) (x : EStateM Fault τ α) : Prop := ∀ s a s', x s = .ok a s' → V a

/-! ### Computations out of parts -/

lemma makes_true (x : EStateM Fault τ α) : Makes (fun _ => True) x := fun _ _ _ _ => trivial

lemma makes_pure {a : α} (h : V a) : Makes V (pure a : EStateM Fault τ α) := by
  rintro s _ _ ⟨⟩
  exact h

lemma makes_fail (cause : Cause) (p : Position) : Makes V (fail cause p : CursorM α) := by
  rintro s _ _ ⟨⟩

/-- One computation after the other: the second is met with the values of the first
only. -/
theorem Makes.bind {x : EStateM Fault τ α} {f : α → EStateM Fault τ β} (hx : Makes V x)
    (hf : ∀ a, V a → Makes W (f a)) : Makes W (x >>= f) := by
  intro s b s' h
  obtain ⟨a, s₁, hr, h⟩ := exists_of_bind h
  exact hf a (hx s a s₁ hr) s₁ b s' h

/-- One computation after the other, whatever the first yields. -/
lemma makes_bind {x : EStateM Fault τ α} {f : α → EStateM Fault τ β}
    (hf : ∀ a, Makes W (f a)) : Makes W (x >>= f) :=
  (makes_true x).bind fun a _ => hf a

lemma Makes.ite {p : Prop} [Decidable p] {x y : EStateM Fault τ α} (hx : Makes V x)
    (hy : Makes V y) : Makes V (if p then x else y) := by
  split <;> assumption

/-- What every step of a run keeps holds of what the run yields. -/
theorem makes_foldWhile {P : σ → Prop} {step : σ → Glyph → Option σ} {acc : σ} (hacc : P acc)
    (hstep : ∀ acc g acc', P acc → step acc g = some acc' → P acc') :
    Makes P (foldWhile step acc) := by
  intro c a c' h
  fun_induction foldWhile step acc c with
  | case1 | case2 =>
    cases h
    exact hacc
  | case3 => cases h
  | case4 acc c g hg acc' hs u c₁ hr ih => exact ih (hstep acc g acc' hacc hs) h

lemma makes_foldShown {P : σ → Prop} {step : σ → Char → Option σ} {acc : σ} (hacc : P acc)
    (hstep : ∀ acc x acc', P acc → step acc x = some acc' → P acc') :
    Makes P (foldShown step acc) :=
  makes_foldWhile hacc fun acc g => hstep acc g.shown

/-! ### Words -/

namespace Word

/-- From the one cursor on the window shows the characters of a word, one after the
other, and at the other cursor it shows no further one. -/
inductive Collects : Cursor → List Char → Cursor → Prop
  | stop {c : Cursor} (h : ∀ x ∈ c.shown?, isWordChar x = false) : Collects c [] c
  | take {c c' c'' : Cursor} {x : Char} {w : List Char} (hx : c.shown? = some x)
      (hword : isWordChar x) (hmove : advance c = .ok () c') (h : Collects c' w c'') :
      Collects c (x :: w) c''

variable {c c' : Cursor} {w : List Char}

lemma Collects.isWordChar (h : Collects c w c') : ∀ x ∈ w, isWordChar x := by
  induction h with
  | stop => simp
  | take hx hword hmove h ih => exact List.forall_mem_cons.mpr ⟨hword, ih⟩

/-- A run of the characters of words collects them. -/
lemma exists_collects {word word' : String} (h : foldShown extend word c = .ok word' c') :
    ∃ w, Collects c w c' ∧ word' = word ++ String.ofList w := by
  unfold foldShown at h
  fun_induction foldWhile (fun word (g : Glyph) => extend word g.shown) word c with
  | case1 word c hg =>
    cases h
    exact ⟨[], .stop (by simp [Cursor.shown?, hg]), by simp⟩
  | case2 word c g hg hs =>
    cases h
    have hx : isWordChar g.shown = false := by
      by_contra hx
      rw [extend, if_pos (by simpa using hx)] at hs
      cases hs
    exact ⟨[], .stop (by simpa [Cursor.shown?, hg] using hx), by simp⟩
  | case3 => cases h
  | case4 word c g hg word₁ hs u c₁ hr ih =>
    obtain ⟨w, hw, rfl⟩ := ih h
    have hx : isWordChar g.shown := by
      by_contra hx
      rw [extend, if_neg hx] at hs
      cases hs
    rw [extend, if_pos hx] at hs
    cases hs
    refine ⟨g.shown :: w, .take (by rw [Cursor.shown?, hg]; rfl) hx hr hw, ?_⟩
    rw [← String.toList_inj]
    simp

/-- A word that is read is the one that the window shows. -/
theorem exists_of_read {t : Token} (h : read start c = .ok t c') :
    ∃ w, Collects c w c' ∧ t = token (String.ofList w) start := by
  obtain ⟨word, c₁, hr, ⟨⟩⟩ := exists_of_bind h
  obtain ⟨w, hw, hword⟩ := exists_collects hr
  exact ⟨w, hw, by simp [hword]⟩

/-- A word that begins with one of its characters is not empty. -/
lemma Collects.exists_cons {x : Char} (h : Collects c w c') (hx : c.shown? = some x)
    (hword : Lexis.isWordChar x) : ∃ l, w = x :: l := by
  cases h with
  | stop h => simp [h x hx] at hword
  | take hx' =>
    obtain rfl : x = _ := Option.some.inj (hx.symm.trans hx')
    exact ⟨_, rfl⟩

end Word

/-! ### Numerals -/

namespace Numeral

/-- The count of a run of digits is no number beyond the limit. -/
def Counted (ofNat : Nat → α) (limit : Nat) (value : Option α) : Prop :=
  ∃ n ≤ limit, value.getD (ofNat 0) = ofNat n

/-- It stays so with every digit that is taken in. -/
lemma Counter.UpTo.counted {k : Counter α} {ofNat : Nat → α} {limit : Nat}
    (hk : k.UpTo ofNat limit) {value value' : Option α} {x : Char}
    (h : Counted ofNat limit value) (hs : k.extend value x = some value') :
    Counted ofNat limit value' := by
  obtain ⟨n, hn, hvalue⟩ := h
  cases hx : isDigit x with
  | false => rw [Counter.extend_of_not_isDigit hx] at hs; cases hs
  | true =>
    rw [hk.extend_eq hx hn hvalue, Option.ite_none_right_eq_some] at hs
    obtain ⟨hle, hs⟩ := hs
    cases hs
    exact ⟨_, hle, rfl⟩

/-- The value of a run of digits keeps within the limit. -/
lemma makes_digits {k : Counter α} {ofNat : Nat → α} {limit : Nat} (hk : k.UpTo ofNat limit)
    (beyond : Cause) (start : Position) : Makes (Counted ofNat limit) (digits k beyond start) := by
  have hrun : Makes (Counted ofNat limit) (foldShown k.extend none) :=
    makes_foldShown ⟨0, Nat.zero_le _, rfl⟩ fun _ _ _ h hs => hk.counted h hs
  exact hrun.bind fun value hvalue => makes_bind fun _ => .ite (makes_fail _ _) (makes_pure hvalue)

/-- The token is a whole number that is not too large, or one of the others. -/
def IsNumber (start : Position) (t : Token) : Prop :=
  (∃ n ≤ maxInteger, t = .integer (Int64.ofNat n) start) ∨ ∃ x, t = .float x start

lemma isNumber_float (x : Float) (start : Position) : IsNumber start (.float x start) :=
  Or.inr ⟨x, rfl⟩

lemma makes_readPointed (whole : Option Int64) (start : Position) :
    Makes (IsNumber start) (readPointed whole start) := by
  refine makes_bind fun f => .ite (makes_fail _ _) (makes_bind fun marker => ?_)
  cases marker with
  | none => exact makes_pure (isNumber_float _ _)
  | some m => exact makes_bind fun e => makes_pure (isNumber_float _ _)

lemma makes_readPlain {whole : Option Int64} (h : Counted Int64.ofNat maxInteger whole)
    (start : Position) : Makes (IsNumber start) (readPlain whole start) := by
  refine makes_bind fun marker => ?_
  cases marker with
  | none =>
    obtain ⟨n, hn, hwhole⟩ := h
    exact makes_pure (Or.inl ⟨n, hn, congrArg (Token.integer · start) hwhole⟩)
  | some m => exact makes_bind fun e => makes_pure (isNumber_float _ _)

/-- A numeral yields a number. -/
theorem makes_read (start : Position) : Makes (IsNumber start) (read start) :=
  (makes_digits Counter.whole_upTo _ _).bind fun _ h => makes_bind fun _ =>
    .ite (makes_readPointed _ start) (makes_readPlain h start)

end Numeral

/-! ### Quoted texts -/

namespace Quoted

/-- Every quote in the text stands directly behind a backslash. -/
def QuotesEscaped (text : List Char) : Prop :=
  ∀ a b, text = a ++ '"' :: b → a.getLast? = some '\\'

lemma quotesEscaped_nil : QuotesEscaped [] := by
  intro a b h
  simp at h

lemma quotesEscaped_singleton {c : Char} (h : c ≠ '"') : QuotesEscaped [c] := by
  intro a b hab
  rcases List.append_eq_singleton_iff.mp hab.symm with ⟨rfl, hb⟩ | ⟨-, hb⟩
  · obtain ⟨rfl, -⟩ : '"' = c ∧ b = [] := by simpa using hb
    exact absurd rfl h
  · simp at hb

lemma quotesEscaped_backslash (c : Char) : QuotesEscaped ['\\', c] := by
  intro a b hab
  rcases a with - | ⟨x, - | ⟨y, a⟩⟩
  · simp at hab
  · obtain ⟨rfl, -⟩ : '\\' = x ∧ _ := by simpa using hab
    rfl
  · simp at hab

/-- Texts one after the other. -/
lemma QuotesEscaped.append {l m : List Char} (hl : QuotesEscaped l) (hm : QuotesEscaped m) :
    QuotesEscaped (l ++ m) := by
  intro a b hab
  rcases List.append_eq_append_iff.mp hab with ⟨a', rfl, hm'⟩ | ⟨a', rfl, hm'⟩
  · have hlast := hm a' b hm'
    simp [hlast]
  · cases a' with
    | nil =>
      have hlast := hm [] b (by simpa using hm'.symm)
      simp at hlast
    | cons x a' =>
      obtain ⟨rfl, -⟩ : '"' = x ∧ b = a' ++ m := by simpa using hm'
      exact hl a a' rfl

/-- What a character means after a backslash has the backslash in front of a quote. -/
lemma quotesEscaped_meaning (c : Char) : QuotesEscaped (meaning c).toList := by
  unfold meaning
  split
  case h_5 => simpa using quotesEscaped_backslash c
  all_goals exact quotesEscaped_singleton (by decide)

/-- A body that takes in a character keeps its quotes behind backslashes. -/
lemma QuotesEscaped.extend {body body' : Body} {c : Char} (h : QuotesEscaped body.text.toList)
    (hs : body.extend c = some body') : QuotesEscaped body'.text.toList := by
  unfold Body.extend at hs
  split at hs
  next =>
    cases hs
    simpa using h.append (quotesEscaped_meaning c)
  next =>
    split at hs
    next => cases hs
    next hquote =>
      split at hs
      next =>
        cases hs
        exact h
      next =>
        cases hs
        simpa using h.append (quotesEscaped_singleton hquote)

/-- **A quoted text** has every quote behind a backslash. -/
theorem makes_read (start : Position) :
    Makes (fun t => ∃ text, QuotesEscaped text.toList ∧ t = .string text start) (read start) := by
  have hrun : Makes (fun body => QuotesEscaped body.text.toList) (foldShown Body.extend {}) :=
    makes_foldShown quotesEscaped_nil fun _ _ _ h hs => h.extend hs
  refine makes_bind fun _ => hrun.bind fun body hbody => makes_bind fun shown => ?_
  cases shown with
  | none => exact makes_fail _ _
  | some x => exact makes_bind fun _ => makes_pure ⟨_, hbody, rfl⟩

end Quoted

/-! ### Marks -/

namespace Mark

/-- No mark makes up a symbol that is kept for later use. -/
lemma isReserved_of_ofChar? {c : Char} {m : Symbol} (h : Symbol.ofChar? c = some m) :
    m.isReserved = false := by
  unfold Symbol.ofChar? at h
  split at h <;> cases h <;> rfl

/-- Nor does an equals sign join one. -/
lemma isReserved_of_beforeEquals? {c : Char} {alone : Option Symbol} {joined : Symbol}
    (h : Symbol.beforeEquals? c = some (alone, joined)) :
    joined.isReserved = false ∧ ∀ m ∈ alone, m.isReserved = false := by
  unfold Symbol.beforeEquals? at h
  split at h <;> cases h <;> simp [Symbol.isReserved]

lemma makes_readSymbol (c : Char) (start : Position) :
    Makes (fun m : Symbol => m.isReserved = false) (readSymbol c start) := by
  unfold readSymbol
  split
  next alone joined hb =>
    obtain ⟨hjoined, halone⟩ := isReserved_of_beforeEquals? hb
    refine makes_bind fun _ => makes_bind fun _ => .ite (makes_pure hjoined) ?_
    cases alone with
    | none => exact makes_bind fun _ => makes_fail _ _
    | some m => exact makes_pure (halone m rfl)
  next =>
    split
    next m hm => exact makes_bind fun _ => makes_pure (isReserved_of_ofChar? hm)
    next => exact makes_fail _ _

/-- **A mark** is none that is kept for later use. -/
theorem makes_read (start : Position) :
    Makes (fun t => ∃ m : Symbol, m.isReserved = false ∧ t = .bare (.symbol m) start)
      (read start) :=
  makes_bind fun _ => (makes_readSymbol _ _).bind fun m hm => makes_pure ⟨m, hm, rfl⟩

end Mark

/-! ### Lexemes -/

/-- What a lexeme that starts at a place is read as, between two cursors. -/
inductive Yielded (start : Position) (c c' : Cursor) : Token → Prop
  /-- A word is the one that the window shows. -/
  | word {x : Char} {l : List Char} (hx : isWordStart x) (h : Word.Collects c (x :: l) c') :
    Yielded start c c' (Word.token (String.ofList (x :: l)) start)
  /-- A whole number is not too large. -/
  | integer {n : Nat} (h : n ≤ maxInteger) : Yielded start c c' (.integer (Int64.ofNat n) start)
  | float (x : Float) : Yielded start c c' (.float x start)
  /-- A quoted text has every quote behind a backslash. -/
  | string {text : String} (h : Quoted.QuotesEscaped text.toList) :
    Yielded start c c' (.string text start)
  /-- A mark is none that is kept for later use. -/
  | symbol {m : Symbol} (h : m.isReserved = false) :
    Yielded start c c' (.bare (.symbol m) start)

/-- **A lexeme** is read as a token of one of these forms, whatever is in the window. -/
theorem yielded_of_readLexeme {c c' : Cursor} {x : Char} {t : Token} (hx : c.shown? = some x)
    (h : readLexeme x start c = .ok t c') : Yielded start c c' t := by
  have hnumber (h : Numeral.read start c = .ok t c') : Yielded start c c' t := by
    rcases Numeral.makes_read start c t c' h with ⟨n, hn, rfl⟩ | ⟨v, rfl⟩
    · exact .integer hn
    · exact .float v
  have hmark (h : Mark.read start c = .ok t c') : Yielded start c c' t := by
    obtain ⟨m, hm, rfl⟩ := Mark.makes_read start c t c' h
    exact .symbol hm
  unfold readLexeme at h
  cases hclass : CharClass.of x with
  | wordStart =>
    rw [hclass] at h
    have hstart := isWordStart_of_class hclass
    obtain ⟨w, hw, rfl⟩ := Word.exists_of_read h
    obtain ⟨l, rfl⟩ := hw.exists_cons hx (isWordChar_of_isWordStart hstart)
    exact .word hstart hw
  | quote =>
    rw [hclass] at h
    obtain ⟨text, htext, rfl⟩ := Quoted.makes_read start c t c' h
    exact .string htext
  | digit | dot =>
    rw [hclass] at h
    exact hnumber h
  | blank | other =>
    rw [hclass] at h
    exact hmark h

/-! ### Tokens of the text -/

namespace Scanner

variable {s s' : Scanner} {t : Token}

/-- **A token of the text** that is handed out is its end, or is read from the
character that the window shows behind a gap. -/
theorem exists_of_next (hp : s.pending = []) (h : next s = .ok t s') :
    ∃ u, skipGaps s = .ok () u
      ∧ ((u.cursor.glyph? = none ∧ t = .endOfText u.cursor.position)
        ∨ ∃ x, u.cursor.glyph? = some (.char x)
          ∧ readLexeme x u.cursor.position u.cursor = .ok t s'.cursor) := by
  rcases s.skipGaps_or with ⟨u, hskip, hahead⟩ | ⟨f, u, hskip, -⟩
  · refine ⟨u, hskip, ?_⟩
    have hscan := scan_of_ok hskip
    cases hg : u.cursor.glyph? with
    | none =>
      rw [scanHere_of_ended (by simp [Cursor.shown?, hg])] at hscan
      by_cases hopen : u.inComment
      · rw [if_pos hopen] at hscan
        cases h.symm.trans (next_of_scan_error hp hscan)
      · rw [if_neg hopen] at hscan
        cases h.symm.trans (next_of_scan_ok hp hscan)
        exact Or.inl ⟨rfl, rfl⟩
    | some g =>
      cases g with
      | lineBreak =>
        -- a line break would be passed with the gap
        simp [Gap.ahead?, Cursor.shown?, hg, Glyph.shown] at hahead
      | char x =>
        rw [scanHere_of_shown (x := x) (by simp [Cursor.shown?, hg, Glyph.shown]),
          ScanM.onCursor] at hscan
        cases hr : readLexeme x u.cursor.position u.cursor with
        | error f c =>
          simp only [hr] at hscan
          cases h.symm.trans (next_of_scan_error hp hscan)
        | ok t' c =>
          simp only [hr] at hscan
          cases h.symm.trans (next_of_scan_ok hp hscan)
          exact Or.inr ⟨x, rfl, hr⟩
  · have herror := next_of_scan_error hp (scan_of_error hskip)
    cases h.symm.trans herror

end Scanner

end Lexis
