import Mathlib.Data.List.Forall2
import Lexis.Proofs.Quotation
import Lexis.Proofs.WellFormed

/-!
# Tokens in writing

The spelling of a token is a text of which the token could have been taken: keywords,
marks, whole numbers and names are read as what they are spelled for, and so are
quoted texts that may stand between quotes as they are.  A space between two
spellings keeps them apart.

* `Token.Spellable`, `Token.restated`: what a spelling tells, and what it is read as;
* `Keyword.lexeme_spelling`, `Symbol.lexeme_spelling`, `Numeral.lexeme_repr`: one
  spelling after the other;
* `Token.Spellable.lexeme`: a spelling in front of a space is a lexeme;
* `passes_spellings`: so are spellings with spaces between them;
* `verbatim_of_spelling`: nothing but a text that may stand as it is comes back;
* `tokenize_spellings`: all of it together.
-/

namespace Lexis

variable {v : List Char} {t : Token} {ts : List Token}

/-! ### What a spelling tells -/

/-- The spelling of the token tells what the token means. -/
def Token.Spellable (t : Token) : Prop :=
  match t.kind with
  | .keyword _ => True
  | .symbol mark => mark.isReserved = false
  | .integer => 0 ≤ t.intValue
  | .identifier => IsName t.text
  | .string => Quoted.Verbatim t.text.toList
  | .float | .endOfText => False

/-- The token at another place, with its kind and what belongs to it. -/
def Token.restated (t : Token) : Position → Token :=
  match t.kind with
  | .identifier => .identifier t.text
  | .string => .string t.text
  | .integer => .integer t.intValue
  | .float => .float t.floatValue
  | kind => .bare kind

/-- A token that carries nothing else is only moved. -/
lemma Token.WellFormed.restated_eq (h : t.WellFormed) (p : Position) :
    t.restated p = { t with position := p } := by
  obtain ⟨kind, q, text, n, x⟩ := t
  have htext := h.text_eq
  have hint := h.intValue_eq
  have hfloat := h.floatValue_eq
  cases kind <;> simp_all [restated, bare, identifier, string, integer, float]

/-! ### Spellings one by one -/

/-- The text is at its end or goes on with a space. -/
def SpaceNext (v : List Char) : Prop := ∀ x ∈ v.head?, x = ' '

/-- A space does not go on a lexeme. -/
lemma SpaceNext.notNext {p : Char → Bool} (h : SpaceNext v) (hp : p ' ' = false) :
    NotNext p v := by
  intro x hx
  rw [h x hx]
  exact hp

/-- A keyword is spelled as a word. -/
lemma Keyword.exists_word (k : Keyword) :
    ∃ c l, k.spelling.toList = c :: l ∧ isWordStart c ∧ ∀ x ∈ l, isWordChar x := by
  cases k <;> exact ⟨_, _, rfl, rfl, List.all_eq_true.mp rfl⟩

/-- **Keywords.** -/
theorem Keyword.lexeme_spelling (k : Keyword) (hv : SpaceNext v) :
    Lexeme k.spelling.toList v (Token.bare (.keyword k)) := by
  obtain ⟨c, l, hword, hc, hl⟩ := k.exists_word
  have hk : Keyword.ofSpelling? (String.ofList (c :: l)) = some k := by
    rw [← hword, String.ofList_toList]
    exact ofSpelling?_spelling k
  rw [hword]
  exact .keyword hc hl (hv.notNext (by decide)) hk

/-- A symbol that is not kept for later use is made up by its characters. -/
lemma Symbol.made_up (m : Symbol) (h : m.isReserved = false) :
    match m.spelling.toList with
    | [c] => ofChar? c = some m ∨ ∃ j, beforeEquals? c = some (some m, j)
    | [c, '='] => ∃ a, beforeEquals? c = some (a, m)
    | _ => False := by
  cases m <;> simp [isReserved, spelling, ofChar?, beforeEquals?] at h ⊢

/-- No carriage return stands in the spelling of a symbol. -/
lemma Symbol.noReturn_spelling (m : Symbol) : '\r' ∉ m.spelling.toList := by
  cases m <;> decide

/-- **Marks.** -/
theorem Symbol.lexeme_spelling {m : Symbol} (h : m.isReserved = false) (hv : SpaceNext v) :
    Lexeme m.spelling.toList v (Token.bare (.symbol m)) := by
  have hmade := m.made_up h
  split at hmade
  next c hc =>
    rw [hc]
    rcases hmade with hs | ⟨j, hs⟩
    · exact .mark hs (hv.notNext (by simp [Mark.opensComment]))
    · exact .alone hs (hv.notNext rfl)
  next c hc =>
    obtain ⟨a, hs⟩ := hmade
    rw [hc]
    exact .joined hs
  next => exact hmade.elim

namespace Numeral

/-- **Whole numbers.** -/
theorem lexeme_repr {n : Nat} (hn : n ≤ maxInteger) (hv : SpaceNext v) :
    Lexeme n.repr.toList v (Token.integer (Int64.ofNat n)) := by
  have hvalid : (Mantissa.plain (Nat.toDigits 10 n)).Valid := by
    refine ⟨fun x hx => isDigit_of_mem_toDigits hx, ?_, Nat.toDigits_ne_nil⟩
    rwa [decimal_toDigits]
  have hnumeral := Lexeme.numeral (v := v) hvalid (hv.notNext rfl)
  rw [Mantissa.alone, decimal_toDigits] at hnumeral
  rwa [Nat.repr_eq_ofList_toDigits, String.toList_ofList]

end Numeral

/-- A whole number without a sign is a value that numerals can have. -/
lemma exists_toInt_eq {n : Int64} (h : 0 ≤ n) :
    ∃ m ≤ maxInteger, n.toInt = m ∧ Int64.ofNat m = n := by
  rw [Int64.le_iff_toInt_le] at h
  obtain ⟨m, hm⟩ := Int.eq_ofNat_of_zero_le h
  have hlt := n.toInt_lt
  have hmax : maxInteger = 9223372036854775807 := rfl
  refine ⟨m, by omega, hm, ?_⟩
  rw [← Int64.ofInt_eq_ofNat, ← hm, Int64.ofInt_toInt]

/-- **A spelling** in front of a space is a lexeme, and no carriage return stands in
it. -/
theorem Token.Spellable.lexeme (h : t.Spellable) (hv : SpaceNext v) :
    Lexeme t.spelling.toList v t.restated ∧ '\r' ∉ t.spelling.toList := by
  obtain ⟨kind, p, text, n, x⟩ := t
  cases kind with
  | float | endOfText => exact h.elim
  | keyword k =>
    obtain ⟨c, l, hword, hc, hl⟩ := k.exists_word
    have hchars : ∀ y ∈ k.spelling.toList, isWordChar y := by
      rw [hword]
      exact List.forall_mem_cons.mpr ⟨isWordChar_of_isWordStart hc, hl⟩
    exact ⟨k.lexeme_spelling hv, notMem_of_run hchars (by decide)⟩
  | symbol m => exact ⟨Symbol.lexeme_spelling h hv, m.noReturn_spelling⟩
  | integer =>
    obtain ⟨m, hm, hvalue, rfl⟩ := exists_toInt_eq h
    have hspelling : (Int64.ofNat m).toInt.repr = m.repr := by rw [hvalue]; rfl
    have hclean : '\r' ∉ m.repr.toList := by
      rw [Nat.repr_eq_ofList_toDigits, String.toList_ofList]
      exact notMem_of_run (fun y hy => Numeral.isDigit_of_mem_toDigits hy) (by decide)
    simp only [spelling, hspelling]
    exact ⟨Numeral.lexeme_repr hm hv, hclean⟩
  | identifier =>
    obtain ⟨⟨c, l, hword, hc, hl⟩, hk⟩ := h
    simp only at hword hk
    have hname : String.ofList (c :: l) = text := by rw [← hword, String.ofList_toList]
    have hchars : ∀ y ∈ c :: l, isWordChar y :=
      List.forall_mem_cons.mpr ⟨isWordChar_of_isWordStart hc, hl⟩
    have hlexeme := Lexeme.identifier hc hl (hv.notNext (by decide)) (by rwa [hname])
    rw [hname] at hlexeme
    simp only [spelling, hword]
    exact ⟨hlexeme, notMem_of_run hchars (by decide)⟩
  | string =>
    have hlexeme := Lexeme.quoted (v := v) (Quoted.Verbatim.spells h)
    rw [String.ofList_toList] at hlexeme
    have hclean := Quoted.Verbatim.noReturn h
    have hspelling : ("\"" ++ text ++ "\"").toList = '"' :: (text.toList ++ ['"']) := by simp
    simp only [spelling, hspelling]
    exact ⟨hlexeme, by simpa using hclean⟩

/-! ### Spellings with spaces between them -/

/-- The spellings of the tokens, with a space between every two. -/
def spellings (ts : List Token) : List Char := [' '].intercalate (ts.map (·.spelling.toList))

lemma toList_intercalate_spelling (ts : List Token) :
    (" ".intercalate (ts.map Token.spelling)).toList = spellings ts := by
  rw [String.toList_intercalate, List.map_map]
  rfl

/-- **Spellings with spaces between them** are a passage, of the same tokens in the
same order. -/
theorem passes_spellings (h : ∀ t ∈ ts, t.Spellable) (o : Position) :
    '\r' ∉ spellings ts ∧ ∃ us, Passes o (spellings ts) [] us
      ∧ List.Forall₂ (fun t u => u = t.restated u.position) ts us := by
  induction ts generalizing o with
  | nil => exact ⟨by simp [spellings], [], .gap .nil, .nil⟩
  | cons t ts ih =>
    obtain ⟨ht, hts⟩ := List.forall_mem_cons.mp h
    have hmoved {v : List Char} (hl : Lexeme t.spelling.toList v t.restated) :
        t.restated (o.right 1) = t.restated (t.restated (o.right 1)).position := by
      rw [hl.position_eq]
    cases ts with
    | nil =>
      obtain ⟨hlexeme, hclean⟩ := ht.lexeme (v := []) (by simp [SpaceNext])
      have hpass : Passes o (t.spelling.toList ++ []) [] [t.restated (o.right 1)] :=
        .of_lexeme hlexeme (by simp) (.gap .nil)
      simp only [spellings, List.map_cons, List.map_nil, List.intercalate_singleton]
      exact ⟨hclean, _, by simpa using hpass, .cons (hmoved hlexeme) .nil⟩
    | cons t' ts =>
      obtain ⟨hclean', us, hpass', hus⟩ := ih hts ((o.through t.spelling.toList).through [' '])
      have hspace : SpaceNext ([' '] ++ spellings (t' :: ts) ++ []) := by simp [SpaceNext]
      obtain ⟨hlexeme, hclean⟩ := ht.lexeme hspace
      have hpass : Passes o (t.spelling.toList ++ ([' '] ++ spellings (t' :: ts))) []
          (t.restated (o.right 1) :: us) :=
        .of_lexeme hlexeme (by simp) (.of_gaps (.of_piece (.blank (Or.inl rfl))) hpass')
      have hcut : spellings (t :: t' :: ts)
          = t.spelling.toList ++ ([' '] ++ spellings (t' :: ts)) := by
        simp [spellings, List.intercalate_cons_cons]
      rw [hcut]
      exact ⟨by simp [hclean, hclean'], _, hpass, .cons (hmoved hlexeme) hus⟩

/-! ### Quoted texts that come back -/

/-- A passage of one quoted text holds its body between quotes. -/
lemma Passes.exists_spells {o : Position} {w : List Char} (h : Passes o w [] [t])
    (hkind : t.kind = .string) :
    ∃ g body u, w = g ++ ('"' :: (body ++ ['"']) ++ u) ∧ Quoted.Spells body t.text.toList := by
  cases h with
  | @token _ g l u _ token _ hg hl =>
    refine ⟨g, ?_⟩
    cases hl with
    | @quoted body text _ hbody => exact ⟨body, u, rfl, by simpa [Token.string] using hbody⟩
    | @numeral m | @scaled m => cases m <;> cases hkind
    | _ => cases hkind

/-- **A quoted text that comes back** may stand between quotes as it is. -/
theorem verbatim_of_spelling {text : String} {p q : Position}
    (h : tokenize (Token.string text p).spelling = .ok [t, .endOfText q])
    (hkind : t.kind = .string) (htext : t.text = text) : Quoted.Verbatim text.toList := by
  subst htext
  obtain ⟨hclean, us, hpass, hus⟩ := passes_of_tokenize h
  obtain ⟨rfl, -⟩ : [t] = us ∧ _ := List.append_inj' hus rfl
  obtain ⟨g, body, u, hw, hbody⟩ := hpass.exists_spells hkind
  have hsource : (Token.string t.text p).spelling.toList = '"' :: (t.text.toList ++ ['"']) := by
    simp [Token.spelling, Token.string, Token.bare]
  rw [hsource] at hw hclean
  -- the body means no more than it has characters, so that there is nothing else
  have hmeant := hbody.length_le
  have hshort := length_folded_le ('"' :: (t.text.toList ++ ['"']))
  have hlength := congrArg List.length hw
  simp only [List.length_cons, List.length_append, List.length_nil] at hshort hlength
  have hfolded : folded ('"' :: (t.text.toList ++ ['"'])) = '"' :: (t.text.toList ++ ['"']) := by
    apply folded_eq_of_length
    simp only [List.length_cons, List.length_append, List.length_nil]
    omega
  obtain rfl : g = [] := List.length_eq_zero_iff.mp (by omega)
  obtain rfl : u = [] := List.length_eq_zero_iff.mp (by omega)
  rw [hfolded] at hw hclean
  obtain rfl : t.text.toList = body := by simpa using hw
  exact Quoted.spells_self_iff.mp ⟨hbody, by simpa using hclean⟩

/-- **Tokens in writing.**  Spellings that tell what their tokens mean, with single
spaces between them, are read as tokens of the same kinds and meanings in the same
order, at their places; a token that carries nothing but what belongs to its kind
comes back as it is but for its place.  A quoted text comes back from its spelling
if and only if it may stand between quotes as it is. -/
theorem tokenize_spellings :
    (∀ ts : List Token, (∀ t ∈ ts, t.Spellable) →
      ∃ us q, tokenize (" ".intercalate (ts.map Token.spelling)) = .ok (us ++ [.endOfText q])
        ∧ List.Forall₂ (fun t u => u = t.restated u.position
          ∧ (t.WellFormed → u = { t with position := u.position })) ts us)
      ∧ ∀ (text : String) (p : Position),
        (∃ t q, tokenize (Token.string text p).spelling = .ok [t, .endOfText q]
          ∧ t.kind = .string ∧ t.text = text) ↔ Quoted.Verbatim text.toList := by
  constructor
  · intro ts hts
    obtain ⟨hclean, us, hpass, hus⟩ := passes_spellings hts .start
    have hfolded : folded (" ".intercalate (ts.map Token.spelling)).toList = spellings ts := by
      rw [toList_intercalate_spelling, folded_of_noReturn hclean]
    rw [← hfolded] at hclean hpass
    refine ⟨us, _, tokenize_of_passes hclean hpass, hus.imp fun t u hu => ⟨hu, fun ht => ?_⟩⟩
    rw [← ht.restated_eq]
    exact hu
  · intro text p
    constructor
    · rintro ⟨t, q, htokens, hkind, htext⟩
      exact verbatim_of_spelling htokens hkind htext
    · intro h
      obtain ⟨q, hq⟩ := tokenize_quoted h.spells h.noReturn
      rw [String.ofList_toList] at hq
      exact ⟨_, q, hq, rfl, rfl⟩

/-- A keyword, a name that starts like it, a mark of two characters, a number and a
quoted text with a quote in it, none of them where it was taken. -/
theorem tokenize_spellings_condition :
    let ts := [Token.bare (.keyword .ifWord) .start, .identifier "iff" .start,
      .bare (.symbol .ltEq) .start, .integer 70 .start, .string "a\\\"b" .start]
    (∀ t ∈ ts, t.Spellable)
      ∧ " ".intercalate (ts.map Token.spelling) = "if iff <= 70 \"a\\\"b\""
      ∧ ∃ us q, tokenize "if iff <= 70 \"a\\\"b\"" = .ok (us ++ [.endOfText q])
        ∧ List.Forall₂ (fun t u => u = t.restated u.position) ts us := by
  intro ts
  have hname : IsName "iff" :=
    ⟨⟨'i', ['f', 'f'], rfl, rfl, List.all_eq_true.mp rfl⟩, by decide⟩
  have hquoted : Quoted.Verbatim "a\\\"b".toList := by
    refine Quoted.spells_self_iff.mp ⟨?_, by decide⟩
    exact .plain (by decide) (by decide)
      (.escape (c := '"') (.plain (by decide) (by decide) .nil))
  have hts : ∀ t ∈ ts, t.Spellable := by
    have hnumber : (0 : Int64) ≤ 70 := by decide
    simp only [ts, List.forall_mem_cons]
    exact ⟨trivial, hname, rfl, hnumber, hquoted, by simp⟩
  have htext : " ".intercalate (ts.map Token.spelling) = "if iff <= 70 \"a\\\"b\"" := by
    decide +kernel
  obtain ⟨us, q, htokens, hus⟩ := tokenize_spellings.1 ts hts
  rw [htext] at htokens
  exact ⟨hts, htext, us, q, htokens, hus.imp fun _ _ hu => hu.1⟩

end Lexis
