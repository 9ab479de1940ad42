import Lexis.Lexeme.Quoted
import Lexis.Proofs.Grammar.Word

/-!
# Quoted texts of a text

The body of a quoted text is a sequence of characters that stand for themselves,
a line break for a space, and of backslashes with the character after each.  A
quote that no backslash precedes in this way ends the body.

* `Spells`: the body spells a text;
* `Unclosed`: no quote closes the text;
* `spells_or_unclosed`: there is a first closing quote, or there is none;
* `reads_read`, `reads_read_unclosed`: the quoted text at the cursor.
-/

namespace Lexis.Quoted

open CursorM

variable {start : Position} {v body text : List Char}

/-- The body of a quoted text spells a text. -/
inductive Spells : List Char → List Char → Prop
  | nil : Spells [] []
  | plain {c : Char} {body text : List Char} (hquote : c ≠ '"') (hescape : c ≠ '\\')
      (h : Spells body text) : Spells (c :: body) (shownFor c :: text)
  | escape {c : Char} {body text : List Char} (h : Spells body text) :
      Spells ('\\' :: c :: body) ((meaning (shownFor c)).toList ++ text)

/-- No quote closes the body: it may end in a backslash that has no companion. -/
inductive Unclosed : List Char → Prop
  | nil : Unclosed []
  | backslash : Unclosed ['\\']
  | plain {c : Char} {body : List Char} (hquote : c ≠ '"') (hescape : c ≠ '\\')
      (h : Unclosed body) : Unclosed (c :: body)
  | escape {c : Char} {body : List Char} (h : Unclosed body) : Unclosed ('\\' :: c :: body)

/-! ### Which quote closes a text -/

/-- A body without its closing quote is unclosed. -/
lemma Spells.unclosed (h : Spells body text) : Unclosed body := by
  induction h with
  | nil => exact .nil
  | plain hquote hescape _ ih => exact .plain hquote hescape ih
  | escape _ ih => exact .escape ih

/-- An unclosed body is so from its beginning on. -/
lemma Unclosed.of_append {a b : List Char} (h : Unclosed (a ++ b)) : Unclosed a := by
  generalize hw : a ++ b = w at h
  induction h generalizing a with
  | nil =>
    obtain ⟨rfl, -⟩ := List.append_eq_nil_iff.mp hw
    exact .nil
  | backslash =>
    rcases List.append_eq_singleton_iff.mp hw with ⟨rfl, -⟩ | ⟨rfl, -⟩
    · exact .nil
    · exact .backslash
  | @plain c body hquote hescape _ ih =>
    cases a with
    | nil => exact .nil
    | cons x a =>
      simp only [List.cons_append, List.cons.injEq] at hw
      obtain ⟨rfl, hw⟩ := hw
      exact .plain hquote hescape (ih hw)
  | @escape c body _ ih =>
    rcases a with - | ⟨x, - | ⟨y, a⟩⟩
    · exact .nil
    · simp only [List.cons_append, List.nil_append, List.cons.injEq] at hw
      obtain ⟨rfl, -⟩ := hw
      exact .backslash
    · simp only [List.cons_append, List.cons.injEq] at hw
      obtain ⟨rfl, rfl, hw⟩ := hw
      exact .escape (ih hw)

/-- **Closing quotes.**  Behind an opening quote there is a first quote that
closes the text, or there is none. -/
theorem spells_or_unclosed (w : List Char) :
    (∃ body text v, w = body ++ '"' :: v ∧ Spells body text) ∨ Unclosed w := by
  induction w using List.twoStepInduction with
  | nil => exact Or.inr .nil
  | singleton c =>
    by_cases hquote : c = '"'
    · exact Or.inl ⟨[], [], [], by rw [hquote]; rfl, .nil⟩
    · by_cases hescape : c = '\\'
      · rw [hescape]
        exact Or.inr .backslash
      · exact Or.inr (.plain hquote hescape .nil)
  | cons_cons c d w ih ihd =>
    by_cases hquote : c = '"'
    · exact Or.inl ⟨[], [], d :: w, by rw [hquote]; rfl, .nil⟩
    · by_cases hescape : c = '\\'
      · subst hescape
        rcases ih with ⟨body, text, v, rfl, h⟩ | h
        · exact Or.inl ⟨_, _, v, rfl, .escape (c := d) h⟩
        · exact Or.inr (.escape h)
      · rcases ihd d with ⟨body, text, v, hbody, h⟩ | h
        · exact Or.inl ⟨c :: body, _, v, by rw [hbody]; rfl, .plain hquote hescape h⟩
        · exact Or.inr (.plain hquote hescape h)

/-! ### Reading -/

/-- A line break is neither a quote nor a backslash, and shows none. -/
lemma shownFor_eq_iff {c x : Char} (hx : x ≠ ' ') (hb : x ≠ '\n') : shownFor c = x ↔ c = x := by
  rw [shownFor_eq]
  split
  next h => simp [h, Ne.symm hx, Ne.symm hb]
  next => exact Iff.rfl

/-- A character that stands for itself. -/
lemma extend_plain {c : Char} (hquote : c ≠ '"') (hescape : c ≠ '\\') (t : String) :
    Body.extend ⟨t, false⟩ (shownFor c) = some ⟨t.push (shownFor c), false⟩ := by
  have hq : shownFor c ≠ '"' := by rwa [Ne, shownFor_eq_iff (by decide) (by decide)]
  have he : shownFor c ≠ '\\' := by rwa [Ne, shownFor_eq_iff (by decide) (by decide)]
  rw [Body.extend, if_neg (by simp), if_neg hq, if_neg he]

/-- A spelled text is taken in as it is meant. -/
lemma Spells.foldlM_extend (h : Spells body text) (t : String) :
    body.foldlM (fun b c => Body.extend b (shownFor c)) ⟨t, false⟩
      = some ⟨t ++ String.ofList text, false⟩ := by
  induction h generalizing t with
  | nil => simp
  | @plain c body text hquote hescape h ih =>
    have htext : t.push (shownFor c) ++ String.ofList text
        = t ++ String.ofList (shownFor c :: text) := by
      rw [← String.toList_inj]
      simp
    rw [List.foldlM_cons, extend_plain hquote hescape, Option.bind_eq_bind, Option.bind_some, ih,
      htext]
  | @escape c body text h ih =>
    have htext : t ++ meaning (shownFor c) ++ String.ofList text
        = t ++ String.ofList ((meaning (shownFor c)).toList ++ text) := by
      rw [← String.toList_inj]
      simp
    have hback : Body.extend ⟨t, false⟩ (shownFor '\\') = some ⟨t, true⟩ := rfl
    rw [List.foldlM_cons, hback, Option.bind_eq_bind, Option.bind_some, List.foldlM_cons,
      Body.extend, if_pos rfl, Option.bind_eq_bind, Option.bind_some, ih, htext]

/-- An unclosed body is taken in as a whole. -/
lemma Unclosed.foldlM_extend (h : Unclosed body) (t : String) :
    ∃ b, body.foldlM (fun b c => Body.extend b (shownFor c)) ⟨t, false⟩ = some b := by
  induction h generalizing t with
  | nil => exact ⟨_, rfl⟩
  | backslash => exact ⟨⟨t, true⟩, rfl⟩
  | @plain c body hquote hescape h ih =>
    obtain ⟨b, hb⟩ := ih (t.push (shownFor c))
    exact ⟨b, by rw [List.foldlM_cons, extend_plain hquote hescape]; exact hb⟩
  | @escape c body h ih =>
    obtain ⟨b, hb⟩ := ih (t ++ meaning (shownFor c))
    exact ⟨b, hb⟩

/-- **A quoted text** is read up to its closing quote. -/
theorem reads_read (h : Spells body text) (hclean : '\r' ∉ body) (start : Position)
    (v : List Char) :
    Yields (read start) ('"' :: (body ++ ['"'])) v (.string (String.ofList text) start) := by
  have hrun : Yields (foldShown Body.extend {}) body (['"'] ++ v) ⟨String.ofList text, false⟩ := by
    refine reads_foldShown ?_ hclean ?_
    · simpa using h.foldlM_extend ""
    · rintro x ⟨⟩ -
      rfl
  refine reads_bind (l := ['"']) (reads_advance (by decide) _) (reads_bind hrun ?_)
  refine reads_bind_stay (reads_look _) ?_
  exact reads_bind_last (reads_advance (by decide) v) (reads_pure _ v)

/-- A text that no quote closes is read up to its end. -/
theorem reads_read_unclosed (h : Unclosed body) (hclean : '\r' ∉ body) (start : Position) :
    Fails (read start) ('"' :: body) [] ⟨.unterminatedString, start⟩ := by
  obtain ⟨b, hb⟩ := h.foldlM_extend ""
  have hrun : Yields (foldShown Body.extend {}) body [] b :=
    reads_foldShown hb hclean (by simp)
  refine reads_bind (l := ['"']) (reads_advance (by decide) _) (reads_bind_last hrun ?_)
  exact reads_bind_stay (reads_look []) (reads_fail _ _ [])

/-- A text that no quote closes is read up to a stray carriage return. -/
theorem reads_read_stray (h : Unclosed body) (hclean : '\r' ∉ body) (start : Position)
    (v : List Char) (out : Position → Except Fault Token) :
    Reads (read start) ('"' :: body) ('\r' :: v) out := by
  obtain ⟨b, hb⟩ := h.foldlM_extend ""
  have hrun : Yields (foldShown Body.extend {}) body ('\r' :: v) b :=
    reads_foldShown hb hclean (by simp)
  refine reads_bind (l := ['"']) (reads_advance (by decide) _) (reads_bind_last hrun ?_)
  exact reads_before_stray _ v out

end Lexis.Quoted
