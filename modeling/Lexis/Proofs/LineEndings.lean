import Lexis.Proofs.Scan.Passage

/-!
# Styles of line endings

A line may be ended by a line feed alone or by a carriage return and a line feed,
and every line of a text in its own way: what the scanner makes of the text is
the same, wherever its lines end.

* `Rebroken`: a text with some of its lines ended in the longer way;
* `Rebroken.folded_eq`: folding takes the text back;
* `tokenize_congr`: the scanner sees nothing of a text but its folding;
* `tokenize_rebroken`: the style of the line endings makes no difference.
-/

namespace Lexis

variable {a b : List Char}

/-- The second text is the first one with a carriage return put in front of some
of its line feeds. -/
inductive Rebroken : List Char → List Char → Prop
  /-- Nothing is left. -/
  | nil : Rebroken [] []
  /-- A character is kept, which may be a line feed. -/
  | keep (c : Char) {a b : List Char} (h : Rebroken a b) : Rebroken (c :: a) (c :: b)
  /-- A line feed becomes a line ending of two characters. -/
  | lineFeed {a b : List Char} (h : Rebroken a b) : Rebroken ('\n' :: a) ('\r' :: '\n' :: b)

/-- Folding takes a rebroken text back, if the text had no carriage return of its
own. -/
theorem Rebroken.folded_eq (h : Rebroken a b) (hclean : '\r' ∉ a) : folded b = a := by
  induction h with
  | nil => rfl
  | @keep c a b h ih =>
    have hc : c ≠ '\r' := by
      rintro rfl
      simp at hclean
    rw [folded_cons_of_ne hc, ih fun hmem => hclean (List.mem_cons_of_mem c hmem)]
  | @lineFeed a b h ih =>
    rw [folded_lineEnding, ih fun hmem => hclean (List.mem_cons_of_mem '\n' hmem)]

/-- The scanner sees nothing of a text but its folding. -/
theorem tokenize_congr {s s' : String} (h : folded s'.toList = folded s.toList) :
    tokenize s' = tokenize s := by
  obtain ⟨u, r, ts, hw, hclean, hpass, rfl | ⟨f, hf⟩⟩ := exists_passage .start (folded s.toList)
  · -- the text has tokens, and they are those of its passage
    rw [List.append_nil] at hw
    subst hw
    rw [tokenize_of_passes hclean hpass]
    rw [← h] at hclean hpass ⊢
    exact tokenize_of_passes hclean hpass
  · rw [tokenize_of_faulty hw hclean hpass hf, tokenize_of_faulty (h.trans hw) hclean hpass hf]

/-- **Styles of line endings.**  A text without carriage returns has the same
tokens at the same places, or the same fault at the same place, whichever of its
lines are ended by a carriage return and a line feed instead of a line feed. -/
theorem tokenize_rebroken {s s' : String} (hclean : '\r' ∉ s.toList)
    (h : Rebroken s.toList s'.toList) : tokenize s' = tokenize s := by
  refine tokenize_congr ?_
  rw [h.folded_eq hclean, folded_of_noReturn hclean]

/-- An exclamation mark at the end of a line, behind a quoted text that goes over
the end of one. -/
theorem tokenize_rebroken_mark :
    '\r' ∉ "\"\\\n\"\n!\n".toList
      ∧ Rebroken "\"\\\n\"\n!\n".toList "\"\\\r\n\"\n!\r\n".toList
      ∧ tokenize "\"\\\r\n\"\n!\r\n" = tokenize "\"\\\n\"\n!\n" := by
  have hclean : '\r' ∉ "\"\\\n\"\n!\n".toList := by decide
  have h : Rebroken "\"\\\n\"\n!\n".toList "\"\\\r\n\"\n!\r\n".toList :=
    .keep _ (.keep _ (.lineFeed (.keep _ (.keep _ (.keep _ (.lineFeed .nil))))))
  exact ⟨hclean, h, tokenize_rebroken hclean h⟩

end Lexis
