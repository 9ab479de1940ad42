import Lexis.Lexeme.Word
import Lexis.Proofs.Source.Reading

/-!
# Words of a text

A word of a text is a run of the characters that words are made of, behind
which no other such character follows.

* `NotNext`: what a text does not begin with, by which every lexeme is told from
  what follows it;
* `exists_run`: a text begins with a longest run of characters of a kind;
* `Word.reads_read`: the word at the cursor is the longest run of the characters
  of words.
-/

namespace Lexis

variable {p : Char → Bool} {σ : Type}

/-! ### Runs of characters -/

/-- The text does not begin with a character of this kind. -/
def NotNext (p : Char → Bool) (v : List Char) : Prop := ∀ x ∈ v.head?, p x = false

@[simp] lemma notNext_nil : NotNext p [] := by simp [NotNext]

@[simp] lemma notNext_cons {x : Char} {v : List Char} : NotNext p (x :: v) ↔ p x = false := by
  simp [NotNext]

/-- What does not begin with a character of one kind does not begin with one of
a narrower kind. -/
lemma NotNext.imp {q : Char → Bool} {v : List Char} (h : NotNext p v)
    (hpq : ∀ x, p x = false → q x = false) : NotNext q v :=
  fun x hx => hpq x (h x hx)

/-- What does not begin with a character of a kind may begin with a line break
or a stray carriage return instead, if these are not of that kind. -/
lemma NotNext.before {v v' : List Char} (h : NotNext p v)
    (hv : ∀ x ∈ v'.head?, x ∈ v.head? ∨ x = '\n' ∨ x = '\r') (hb : p '\n' = false)
    (hr : p '\r' = false) : NotNext p v' := by
  intro x hx
  rcases hv x hx with hx | rfl | rfl
  · exact h x hx
  · exact hb
  · exact hr

/-- A character of the kind is not next. -/
lemma NotNext.head?_ne {v : List Char} {x : Char} (h : NotNext p v) (hx : p x) :
    v.head? ≠ some x := by
  intro hv
  rw [h x hv] at hx
  exact absurd hx (by decide)

/-- A text begins with a character of a kind or it does not. -/
lemma notNext_or_cons (p : Char → Bool) (v : List Char) :
    NotNext p v ∨ ∃ x w, v = x :: w ∧ p x := by
  cases v with
  | nil => exact Or.inl notNext_nil
  | cons x w =>
    by_cases hx : p x
    · exact Or.inr ⟨x, w, rfl, hx⟩
    · exact Or.inl (notNext_cons.mpr (by simpa using hx))

/-- Behind a longest run of characters of a kind no other one follows. -/
lemma notNext_dropWhile (p : Char → Bool) (w : List Char) : NotNext p (w.dropWhile p) := by
  intro x hx
  have h := List.head?_dropWhile_not p w
  rwa [Option.mem_def.mp hx] at h

/-- A text begins with a longest run of characters of a kind. -/
lemma exists_run (p : Char → Bool) (w : List Char) :
    ∃ l v, w = l ++ v ∧ (∀ x ∈ l, p x) ∧ NotNext p v :=
  ⟨w.takeWhile p, w.dropWhile p, List.takeWhile_append_dropWhile.symm,
    fun _ hx => List.mem_takeWhile_imp hx, notNext_dropWhile p w⟩

/-- A run of characters of a kind has none of another kind. -/
lemma notMem_of_run {l : List Char} (hl : ∀ x ∈ l, p x) {y : Char} (hy : p y = false) : y ∉ l :=
  fun h => by simp [hl y h] at hy

/-- A run of characters without a line break, read as they are. -/
lemma CursorM.reads_run {step : σ → Char → Option σ} {acc acc' : σ} {l v : List Char}
    (hl : l.foldlM step acc = some acc') (hrun : ∀ x ∈ l, p x) (hr : p '\r' = false)
    (hb : p '\n' = false) (hv : ∀ x ∈ v.head?, step acc' (shownFor x) = none) :
    Yields (foldShown step acc) l v acc' := by
  refine reads_foldShown ?_ (notMem_of_run hrun hr) fun x hx _ => hv x hx
  have hshown : l.map shownFor = l := by
    refine List.map_congr_left (fun x hx => shownFor_of_ne ?_) |>.trans (List.map_id l)
    rintro rfl
    exact notMem_of_run hrun hb hx
  rw [← hl, ← List.foldlM_map, hshown]

/-! ### Words -/

namespace Word

/-- A run of the characters of words is taken in as it stands. -/
lemma foldlM_extend {l : List Char} (hl : ∀ x ∈ l, isWordChar x) (word : String) :
    l.foldlM extend word = some (word ++ String.ofList l) := by
  induction l generalizing word with
  | nil => simp
  | cons x l ih =>
    have hx : isWordChar x := hl x (by simp)
    have hword : word.push x ++ String.ofList l = word ++ String.ofList (x :: l) := by
      rw [← String.toList_inj]
      simp
    rw [List.foldlM_cons, extend, if_pos hx, Option.bind_eq_bind, Option.bind_some,
      ih (fun y hy => hl y (by simp [hy])), hword]

/-- What does not stand in words ends a word. -/
lemma extend_eq_none {word : String} {x : Char} (hx : isWordChar x = false) :
    extend word (shownFor x) = none := by
  have hs : isWordChar (shownFor x) = false := by
    rw [shownFor_eq]
    split
    · decide
    · exact hx
  rw [extend, if_neg (by simp [hs])]

/-- **The word at the cursor** is the longest run of the characters of words. -/
theorem reads_read {l v : List Char} (hl : ∀ x ∈ l, isWordChar x) (hv : NotNext isWordChar v)
    (start : Position) : Yields (read start) l v (token (String.ofList l) start) := by
  have hrun : Yields (CursorM.foldShown extend "") l v (String.ofList l) := by
    refine CursorM.reads_run ?_ hl (by decide) (by decide) fun x hx => extend_eq_none (hv x hx)
    simpa using foldlM_extend hl ""
  exact reads_bind_last hrun (reads_pure _ _)

end Word

end Lexis
