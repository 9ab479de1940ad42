import Lexis.Proofs.Scan.Yield

/-!
# What quoted texts mean

A quoted text never means a quote that no backslash precedes, and it can mean every
other text: there is one body for each, in which a backslash that no quote follows is
doubled and the ends of lines are escaped.  Some texts may stand between quotes as
they are.

* `Quoted.Spells.quotesEscaped`: what a body spells has its quotes behind backslashes;
* `Quoted.encode`, `Quoted.spells_encode`: a body for every such text;
* `Quoted.Verbatim`, `Quoted.spells_self_iff`: the texts that spell themselves;
* `tokenize_quoted`: a body between quotes is one token;
* `exists_string_iff`: the texts that can be meant, and a body for each of them.
-/

namespace Lexis

namespace Quoted

variable {body text a : List Char} {c : Char}

/-! ### Quotes behind backslashes -/

/-- What a body spells has every quote directly behind a backslash. -/
theorem Spells.quotesEscaped (h : Spells body text) : QuotesEscaped text := by
  induction h with
  | nil => exact quotesEscaped_nil
  | @plain c body text hquote hescape h ih =>
    have hshown : shownFor c ≠ '"' := by rwa [Ne, shownFor_eq_iff (by decide) (by decide)]
    exact (quotesEscaped_singleton hshown).append ih
  | @escape c body text h ih => exact (quotesEscaped_meaning (shownFor c)).append ih

/-- Behind a cut that parts no quote from its backslash the quotes stay behind
backslashes. -/
lemma QuotesEscaped.drop (h : QuotesEscaped (a ++ text))
    (hcut : a.getLast? = some '\\' → text.head? ≠ some '"') : QuotesEscaped text := by
  rintro u v rfl
  cases u with
  | nil => exact absurd rfl (hcut (h a v rfl))
  | cons x u =>
    have hlast := h (a ++ x :: u) v (by simp)
    rwa [List.getLast?_append_cons] at hlast

/-- A text whose first character is a quote has no backslash in front of it. -/
lemma QuotesEscaped.ne_quote (h : QuotesEscaped (c :: text)) : c ≠ '"' := by
  rintro rfl
  have hlast := h [] text rfl
  simp at hlast

/-! ### A body for every text -/

/-- A body that spells the text: a backslash in front of a quote is kept with the
quote, every other one is doubled, and the ends of lines are escaped. -/
def encode : List Char → List Char
  | '\\' :: '"' :: text => '\\' :: '"' :: encode text
  | '\\' :: text => '\\' :: '\\' :: encode text
  | '\n' :: text => '\\' :: 'n' :: encode text
  | '\r' :: text => '\\' :: 'r' :: encode text
  | c :: text => c :: encode text
  | [] => []

/-- **A body for every text** whose quotes stand behind backslashes; no carriage
return stands in it. -/
theorem spells_encode (h : QuotesEscaped text) :
    Spells (encode text) text ∧ '\r' ∉ encode text := by
  fun_induction encode text with
  | case1 text ih =>
    -- the pair stays together, and what follows it is on its own
    obtain ⟨hspells, hclean⟩ := ih (h.drop (a := ['\\', '"']) (by simp))
    exact ⟨.escape (c := '"') hspells, by simpa using hclean⟩
  | case2 text hquote ih =>
    have hhead : text.head? ≠ some '"' := by
      intro hhead
      obtain ⟨rest, rfl⟩ := List.head?_eq_some_iff.mp hhead
      exact hquote rest rfl
    obtain ⟨hspells, hclean⟩ := ih (h.drop (a := ['\\']) fun _ => hhead)
    exact ⟨.escape (c := '\\') hspells, by simpa using hclean⟩
  | case3 text ih =>
    obtain ⟨hspells, hclean⟩ := ih (h.drop (a := ['\n']) (by simp))
    exact ⟨.escape (c := 'n') hspells, by simpa using hclean⟩
  | case4 text ih =>
    obtain ⟨hspells, hclean⟩ := ih (h.drop (a := ['\r']) (by simp))
    exact ⟨.escape (c := 'r') hspells, by simpa using hclean⟩
  | case5 c text hpair hescape hbreak hreturn ih =>
    obtain ⟨hspells, hclean⟩ := ih (h.drop (a := [c]) (by simpa using fun hc => absurd hc hescape))
    have hplain := Spells.plain h.ne_quote hescape hspells
    rw [shownFor_of_ne hbreak] at hplain
    exact ⟨hplain, by simpa [hclean] using Ne.symm hreturn⟩
  | case6 => exact ⟨.nil, by simp⟩

/-! ### Texts that spell themselves -/

/-- The text may stand between quotes as it is: it has no end of a line, its quotes
stand behind backslashes, and no backslash changes its companion or lacks one. -/
structure Verbatim (text : List Char) : Prop where
  /-- There is no line feed. -/
  noLineFeed : '\n' ∉ text
  /-- There is no carriage return. -/
  noReturn : '\r' ∉ text
  /-- A quote stands directly behind a backslash. -/
  quotes : QuotesEscaped text
  /-- A backslash is not the last character and does not precede a backslash or one
  of the letters that it gives a meaning to. -/
  backslashes : ∀ a b, text = a ++ '\\' :: b → ∃ c ∈ b.head?, c ∉ ['\\', 'n', 'r', 't']

/-- Only a backslash and the letters of line ends and tabs mean something else behind
a backslash. -/
lemma meaning_of_notMem (h : c ∉ ['\\', 'n', 'r', 't']) : (meaning c).toList = ['\\', c] := by
  unfold meaning
  split <;> simp_all

/-- What follows a cut that parts no backslash from its companion. -/
lemma Verbatim.drop (h : Verbatim (a ++ text)) (hcut : a.getLast? ≠ some '\\') :
    Verbatim text where
  noLineFeed hmem := h.noLineFeed (List.mem_append_right a hmem)
  noReturn hmem := h.noReturn (List.mem_append_right a hmem)
  quotes := h.quotes.drop fun hlast => absurd hlast hcut
  backslashes := by
    rintro u v rfl
    exact h.backslashes (a ++ u) v (by simp)

/-- A text that may stand as it is spells itself. -/
lemma Verbatim.spells (h : Verbatim text) : Spells text text := by
  induction hn : text.length using Nat.strong_induction_on generalizing text with
  | _ n ih =>
    subst hn
    cases text with
    | nil => exact .nil
    | cons c text =>
      have hbreak : c ≠ '\n' := fun hc => h.noLineFeed (by simp [hc])
      by_cases hescape : c = '\\'
      · subst hescape
        obtain ⟨d, hd, hmeaning⟩ := h.backslashes [] text rfl
        obtain ⟨text, rfl⟩ := List.head?_eq_some_iff.mp hd
        have hbreak : d ≠ '\n' := fun hd => h.noLineFeed (by simp [hd])
        have halone : d ≠ '\\' := fun hd => hmeaning (by simp [hd])
        have hrest : Verbatim text := h.drop (a := ['\\', d]) (by simpa using halone)
        have hspells := ih text.length (by simp only [List.length_cons]; omega) hrest rfl
        have hpair := Spells.escape (c := d) hspells
        rwa [shownFor_of_ne hbreak, meaning_of_notMem hmeaning] at hpair
      · have hrest : Verbatim text := h.drop (a := [c]) (by simpa using hescape)
        have hplain := Spells.plain h.quotes.ne_quote hescape (ih text.length (by simp) hrest rfl)
        rwa [shownFor_of_ne hbreak] at hplain

/-- What is spelled is not longer than what spells it. -/
lemma Spells.length_le (h : Spells body text) : text.length ≤ body.length := by
  induction h with
  | nil => exact Nat.le_refl 0
  | plain _ _ _ ih => simpa using ih
  | @escape c body text h ih =>
    have hmeaning : (meaning (shownFor c)).toList.length ≤ 2 := by
      unfold meaning
      split <;> simp
    simp only [List.length_append, List.length_cons]
    omega

/-- What stands in the window as it is is no line feed. -/
lemma ne_lineFeed_of_shownFor (h : shownFor c = c) : c ≠ '\n' := by
  rintro rfl
  exact absurd h (by decide)

/-- A body that spells itself holds nothing that has a meaning of its own. -/
lemma Spells.noMeaning (h : Spells body text) (hself : text = body) :
    '\n' ∉ body
      ∧ ∀ a b, body = a ++ '\\' :: b → ∃ c ∈ b.head?, c ∉ ['\\', 'n', 'r', 't'] := by
  induction h with
  | nil => simp
  | @plain c body text hquote hescape h ih =>
    obtain ⟨hc, hrest⟩ := List.cons.inj hself
    obtain ⟨hbreak, hback⟩ := ih hrest
    have hne := ne_lineFeed_of_shownFor hc
    refine ⟨by simpa [hbreak] using Ne.symm hne, fun a b hab => ?_⟩
    cases a with
    | nil => exact absurd (List.cons.inj hab).1 hescape
    | cons x a => exact hback a b (List.cons.inj hab).2
  | @escape c body text h ih =>
    -- a pair that means one character would be too short
    have hmeaning : shownFor c ∉ ['\\', 'n', 'r', 't'] := by
      intro hmem
      have hone : (meaning (shownFor c)).toList.length = 1 := by
        simp only [List.mem_cons, List.not_mem_nil, or_false] at hmem
        rcases hmem with hc | hc | hc | hc <;> rw [hc] <;> rfl
      have hlength := congrArg List.length hself
      have hle := h.length_le
      simp only [List.length_append, List.length_cons, hone] at hlength
      omega
    rw [meaning_of_notMem hmeaning] at hself
    obtain ⟨-, hself⟩ := List.cons.inj hself
    obtain ⟨hc, hrest⟩ := List.cons.inj hself
    obtain ⟨hbreak, hback⟩ := ih hrest
    rw [hc] at hmeaning
    have hne := ne_lineFeed_of_shownFor hc
    refine ⟨by simpa [hbreak] using Ne.symm hne, fun a b hab => ?_⟩
    rcases a with - | ⟨x, - | ⟨y, a⟩⟩
    · obtain ⟨-, rfl⟩ := List.cons.inj hab
      exact ⟨c, rfl, hmeaning⟩
    · simp only [List.cons_append, List.nil_append, List.cons.injEq] at hab
      simp [hab.2.1] at hmeaning
    · simp only [List.cons_append, List.cons.injEq] at hab
      exact hback a b hab.2.2

/-- **Texts that spell themselves**, if no carriage return stands in them, are those
that may stand between quotes as they are. -/
theorem spells_self_iff : Spells text text ∧ '\r' ∉ text ↔ Verbatim text := by
  constructor
  · rintro ⟨h, hclean⟩
    obtain ⟨hbreak, hback⟩ := h.noMeaning rfl
    exact ⟨hbreak, hclean, h.quotesEscaped, hback⟩
  · intro h
    exact ⟨h.spells, h.noReturn⟩

end Quoted

/-! ### Quoted texts alone -/

open Quoted

/-- A body between quotes, with nothing else, is one token. -/
theorem tokenize_quoted {body : List Char} {text : String} (h : Spells body text.toList)
    (hclean : '\r' ∉ body) :
    ∃ q, tokenize ("\"" ++ String.ofList body ++ "\"")
      = .ok [.string text ⟨1, 1⟩, .endOfText q] := by
  have hsource : ("\"" ++ String.ofList body ++ "\"").toList = '"' :: (body ++ ['"']) := by simp
  have hfolded : folded ("\"" ++ String.ofList body ++ "\"").toList = '"' :: (body ++ ['"']) := by
    rw [hsource, folded_of_noReturn (by simpa using hclean)]
  have hlexeme : Lexeme (folded ("\"" ++ String.ofList body ++ "\"").toList) []
      (Token.string text) := by
    rw [hfolded, ← String.ofList_toList (s := text)]
    exact .quoted h
  have hclean' : '\r' ∉ folded ("\"" ++ String.ofList body ++ "\"").toList := by
    rw [hfolded]
    simpa using hclean
  exact ⟨_, tokenize_of_lexeme hclean' hlexeme⟩

/-- The quoted texts of a passage have their quotes behind backslashes. -/
lemma Passes.quotesEscaped {o : Position} {u r : List Char} {ts : List Token}
    (hpass : Passes o u r ts) : ∀ t ∈ ts, t.kind = .string → QuotesEscaped t.text.toList := by
  induction hpass with
  | gap => simp
  | @token o g l u r token ts hg hl hv hpass ih =>
    refine List.forall_mem_cons.mpr ⟨fun hkind => ?_, ih⟩
    cases hl with
    | quoted hbody => simpa [Token.string] using hbody.quotesEscaped
    | @numeral m | @scaled m => cases m <;> cases hkind
    | _ => cases hkind

/-- **Texts that can be meant.**  A text is that of some quoted text if and only if
every quote in it stands directly behind a backslash; and then its encoding between
quotes is this one token. -/
theorem exists_string_iff (text : String) :
    ((∃ source ts, tokenize source = .ok ts ∧ ∃ t ∈ ts, t.kind = .string ∧ t.text = text)
        ↔ QuotesEscaped text.toList)
      ∧ (QuotesEscaped text.toList →
        ∃ q, tokenize ("\"" ++ String.ofList (encode text.toList) ++ "\"")
          = .ok [.string text ⟨1, 1⟩, .endOfText q]) := by
  have hencode (h : QuotesEscaped text.toList) :
      ∃ q, tokenize ("\"" ++ String.ofList (encode text.toList) ++ "\"")
        = .ok [.string text ⟨1, 1⟩, .endOfText q] :=
    tokenize_quoted (spells_encode h).1 (spells_encode h).2
  refine ⟨⟨?_, fun h => ?_⟩, hencode⟩
  · rintro ⟨source, ts, hts, t, ht, hkind, rfl⟩
    obtain ⟨-, us, hpass, rfl⟩ := passes_of_tokenize hts
    rcases List.mem_append.mp ht with ht | ht
    · exact hpass.quotesEscaped t ht hkind
    · obtain rfl := List.mem_singleton.mp ht
      cases hkind
  · obtain ⟨q, hq⟩ := hencode h
    exact ⟨_, _, hq, .string text ⟨1, 1⟩, by simp, rfl, rfl⟩

/-- Two backslashes in front of a quote, and the end of a line. -/
theorem exists_string_iff_backslashes :
    QuotesEscaped "\\\\\"\r\n".toList
      ∧ encode "\\\\\"\r\n".toList = "\\\\\\\"\\r\\n".toList
      ∧ ∃ q, tokenize ("\"" ++ String.ofList (encode "\\\\\"\r\n".toList) ++ "\"")
        = .ok [.string "\\\\\"\r\n" ⟨1, 1⟩, .endOfText q] := by
  have hescaped : QuotesEscaped "\\\\\"\r\n".toList :=
    (quotesEscaped_singleton (by decide)).append <| (quotesEscaped_backslash '"').append <|
      (quotesEscaped_singleton (by decide)).append (quotesEscaped_singleton (by decide))
  exact ⟨hescaped, by decide, (exists_string_iff "\\\\\"\r\n").2 hescaped⟩

end Lexis
