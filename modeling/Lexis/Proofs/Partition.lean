import Lexis.Proofs.Scan.Passage

/-!
# Texts that have tokens

A text has tokens exactly if it has no stray carriage return and its folding
consists of gaps and lexemes in turn; then its tokens are those that the
lexemes amount to, and the end of the text.

* `tokenize_eq_ok_iff`: which texts have tokens, and which tokens they have;
* `Passes.unique`: a text consists of gaps and lexemes in one way only, as far as
  its tokens tell.
-/

namespace Lexis

/-- **Texts that have tokens** are those without a stray carriage return whose
folding consists of gaps and lexemes in turn.  The last token is the end of the
text. -/
theorem tokenize_eq_ok_iff (text : String) (ts : List Token) :
    tokenize text = .ok ts ↔ ¬HasStrayReturn text.toList
      ∧ ∃ us, Passes .start (folded text.toList) [] us
        ∧ ts = us ++ [.endOfText (.after text.toList)] := by
  rw [hasStrayReturn_iff, ← Position.after_folded]
  constructor
  · exact passes_of_tokenize
  · rintro ⟨hclean, us, hpass, rfl⟩
    exact tokenize_of_passes hclean hpass

/-- A text consists of gaps and lexemes in one way only, as far as its tokens
tell. -/
theorem Passes.unique {w : List Char} {ts us : List Token} (hclean : '\r' ∉ w)
    (h : Passes .start w [] ts) (h' : Passes .start w [] us) : ts = us := by
  obtain ⟨l, rfl, -⟩ := exists_folded_eq w
  rw [← String.toList_ofList (l := l)] at hclean h h'
  have htokens := tokenize_of_passes hclean h
  rw [tokenize_of_passes hclean h'] at htokens
  simpa using htokens.symm

end Lexis
