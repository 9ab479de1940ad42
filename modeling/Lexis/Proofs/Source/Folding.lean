import Lexis.Source.Cursor
import Lexis.Source.LineEnding
import Mathlib.Data.List.Basic
import Mathlib.Tactic.Common

/-!
# Folded texts

A text is folded when every carriage return and line feed is read as one line
feed.  What the scanner sees of a text is its folding: a line feed stands for a
line break, and a carriage return that is left over is stray.

* `folded`: the text with its line endings folded;
* `hasStrayReturn_iff`: a carriage return is left over exactly if one is not
  directly followed by a line feed;
* `Pull.of_eq_glyph`, `Pull.of_eq_broken`: the first unit of a text, read off
  the first character of its folding;
* `folded_append`: folding goes through a cut that parts no line ending;
* `exists_of_folded_eq_append`: every cut of the folding comes from one of the
  text;
* `exists_folded_append`: what a folding begins with does not depend on how the
  text goes on.
-/

namespace Lexis

/-- The text with every carriage return and line feed read as one line feed. -/
def folded : List Char → List Char
  | '\r' :: '\n' :: text => '\n' :: folded text
  | c :: text => c :: folded text
  | [] => []

/-- Does the text have a carriage return that is not directly followed by a line
feed? -/
def HasStrayReturn (text : List Char) : Prop :=
  ∃ a b, text = a ++ '\r' :: b ∧ b.head? ≠ some '\n'

/-- The glyph that a character of a folded text stands for. -/
def Glyph.ofChar (c : Char) : Glyph := if c = '\n' then .lineBreak else .char c

/-- What the window shows for a character of a folded text. -/
def shownFor (c : Char) : Char := (Glyph.ofChar c).shown

lemma shownFor_eq (c : Char) : shownFor c = if c = '\n' then ' ' else c := by
  unfold shownFor Glyph.ofChar
  split <;> rfl

@[simp] lemma shownFor_lineFeed : shownFor '\n' = ' ' := rfl

lemma shownFor_of_ne {c : Char} (h : c ≠ '\n') : shownFor c = c := by
  rw [shownFor_eq, if_neg h]

/-! ### Equations -/

@[simp] lemma folded_nil : folded [] = [] := rfl

lemma folded_lineEnding (text : List Char) :
    folded ('\r' :: '\n' :: text) = '\n' :: folded text := by
  rw [folded]

/-- Only a carriage return in front of a line feed disappears. -/
lemma folded_cons {c : Char} {text : List Char} (h : c = '\r' → text.head? ≠ some '\n') :
    folded (c :: text) = c :: folded text := by
  rw [folded]
  rintro text' hc rfl
  exact h hc rfl

lemma folded_cons_of_ne {c : Char} (h : c ≠ '\r') (text : List Char) :
    folded (c :: text) = c :: folded text :=
  folded_cons fun hc => absurd hc h

/-- A text is empty, or begins with a line ending of two characters, or with a
character that folding keeps. -/
@[elab_as_elim]
theorem foldedInduction {P : List Char → Prop} (nil : P [])
    (lineEnding : ∀ text, P text → P ('\r' :: '\n' :: text))
    (keep : ∀ c text, (c = '\r' → text.head? ≠ some '\n') → P text → P (c :: text))
    (text : List Char) : P text := by
  induction text using folded.induct with
  | case1 text ih => exact lineEnding text ih
  | case2 c text hc ih =>
    refine keep c text ?_ ih
    rintro rfl hhead
    obtain ⟨text', rfl⟩ := List.head?_eq_some_iff.mp hhead
    exact hc text' rfl rfl
  | case3 => exact nil

lemma folded_eq_nil_iff {text : List Char} : folded text = [] ↔ text = [] := by
  induction text using foldedInduction with
  | nil => simp
  | lineEnding text => simp [folded_lineEnding]
  | keep c text hc => simp [folded_cons hc]

/-- Folding a text makes it no longer. -/
lemma length_folded_le (text : List Char) : (folded text).length ≤ text.length := by
  fun_induction folded text <;> simp_all
  omega

/-- A folding that is as long as its text has folded nothing. -/
lemma folded_eq_of_length {text : List Char} (h : text.length ≤ (folded text).length) :
    folded text = text := by
  induction text using foldedInduction with
  | nil => rfl
  | lineEnding text =>
    have hle := length_folded_le text
    simp only [folded_lineEnding, List.length_cons] at h
    omega
  | keep c text hc ih =>
    rw [folded_cons hc] at h ⊢
    rw [ih (by simpa using h)]

/-- Where there is no carriage return there is nothing to fold. -/
lemma folded_of_noReturn {text : List Char} (h : '\r' ∉ text) : folded text = text := by
  induction text with
  | nil => rfl
  | cons c text ih =>
    have hc : c ≠ '\r' := by
      rintro rfl
      simp at h
    rw [folded_cons_of_ne hc, ih fun hmem => h (List.mem_cons_of_mem c hmem)]

/-- A line ending keeps its line feed. -/
lemma count_folded (text : List Char) : (folded text).count '\n' = text.count '\n' := by
  fun_induction folded text <;> simp_all [List.count_cons]

/-- Where there is no line feed there is no line ending to fold. -/
lemma folded_of_noLineFeed {text : List Char} (h : '\n' ∉ text) : folded text = text := by
  induction text using foldedInduction with
  | nil => rfl
  | lineEnding text => simp at h
  | keep c text hc ih => rw [folded_cons hc, ih fun hmem => h (List.mem_cons_of_mem c hmem)]

/-- A text is its own folding if that has no line feed. -/
lemma eq_of_folded_eq {text l : List Char} (h : folded text = l) (hl : '\n' ∉ l) : text = l := by
  have hbreak : '\n' ∉ text := by
    rw [← List.count_eq_zero, ← count_folded, h, List.count_eq_zero]
    exact hl
  rwa [folded_of_noLineFeed hbreak] at h

/-! ### Stray carriage returns -/

/-- A carriage return stays in the folding exactly if it is stray. -/
theorem hasStrayReturn_iff (text : List Char) : HasStrayReturn text ↔ '\r' ∈ folded text := by
  induction text using foldedInduction with
  | nil => simp [HasStrayReturn]
  | lineEnding text ih =>
    rw [folded_lineEnding, List.mem_cons, ← ih]
    constructor
    · rintro ⟨a, b, hab, hb⟩
      -- the first carriage return is none that could be stray
      rcases a with - | ⟨x, - | ⟨y, a⟩⟩
      · simp only [List.nil_append, List.cons.injEq, true_and] at hab
        simp [← hab] at hb
      · simp at hab
      · simp only [List.cons_append, List.cons.injEq] at hab
        exact Or.inr ⟨a, b, hab.2.2, hb⟩
    · rintro (h | ⟨a, b, rfl, hb⟩)
      · exact absurd h (by decide)
      · exact ⟨'\r' :: '\n' :: a, b, rfl, hb⟩
  | keep c text hc ih =>
    rw [folded_cons hc, List.mem_cons, ← ih]
    constructor
    · rintro ⟨a, b, hab, hb⟩
      cases a with
      | nil =>
        simp only [List.nil_append, List.cons.injEq] at hab
        exact Or.inl hab.1.symm
      | cons x a =>
        simp only [List.cons_append, List.cons.injEq] at hab
        exact Or.inr ⟨a, b, hab.2, hb⟩
    · rintro (rfl | ⟨a, b, rfl, hb⟩)
      · exact ⟨[], text, rfl, hc rfl⟩
      · exact ⟨c :: a, b, rfl, hb⟩

/-! ### The first unit of a text -/

/-- The characters that a stray carriage return costs, with the folded text `v`
behind it: itself, and the character after it if there is one. -/
def strayWidth (v : List Char) : UInt32 := if v = [] then 1 else 2

/-- Nothing is pulled from an empty text only. -/
lemma Pull.of_eq_exhausted {text : List Char} (h : folded text = []) :
    Pull.of text = .exhausted := by
  rw [folded_eq_nil_iff.mp h]
  rfl

/-- A character that folding keeps is the first unit of the text, unless it is a
stray carriage return. -/
lemma Pull.of_cons {c : Char} {text : List Char} (hc : c ≠ '\r') :
    Pull.of (c :: text) = if c = '\n' then .lineBreak text else .char c text := by
  unfold Pull.of
  split <;> simp_all

/-- A stray carriage return is lost with the character after it. -/
lemma Pull.of_strayReturn {text : List Char} (h : text.head? ≠ some '\n') :
    ∃ r, Pull.of ('\r' :: text) = .broken (strayWidth (folded text)) r := by
  cases text with
  | nil => exact ⟨[], rfl⟩
  | cons x text =>
    have hx : x ≠ '\n' := by simpa using h
    have hne : folded (x :: text) ≠ [] := by simp [folded_eq_nil_iff]
    rw [strayWidth, if_neg hne]
    exact ⟨text, by simp [Pull.of]⟩

/-- A character of the folding other than a carriage return is the first unit
of the text. -/
lemma Pull.of_eq_glyph {text v : List Char} {x : Char} (h : folded text = x :: v)
    (hx : x ≠ '\r') :
    ∃ r, folded r = v
      ∧ Pull.of text = if x = '\n' then .lineBreak r else .char x r := by
  induction text using foldedInduction with
  | nil => simp at h
  | lineEnding text =>
    rw [folded_lineEnding, List.cons.injEq] at h
    obtain ⟨rfl, rfl⟩ := h
    exact ⟨text, rfl, rfl⟩
  | keep c text hc =>
    rw [folded_cons hc, List.cons.injEq] at h
    obtain ⟨rfl, rfl⟩ := h
    exact ⟨text, rfl, Pull.of_cons hx⟩

/-- A carriage return at the front of the folding is stray. -/
lemma Pull.of_eq_broken {text v : List Char} (h : folded text = '\r' :: v) :
    ∃ r, Pull.of text = .broken (strayWidth v) r := by
  induction text using foldedInduction with
  | nil => simp at h
  | lineEnding text => simp [folded_lineEnding] at h
  | keep c text hc =>
    rw [folded_cons hc, List.cons.injEq] at h
    obtain ⟨rfl, rfl⟩ := h
    exact Pull.of_strayReturn (hc rfl)

/-! ### Cuts -/

/-- Folding goes through a cut that does not part a line ending. -/
lemma folded_append {a b : List Char} (h : a.getLast? = some '\r' → b.head? ≠ some '\n') :
    folded (a ++ b) = folded a ++ folded b := by
  have hlast : ∀ {x : Char} {l : List Char}, l.getLast? = some '\r' →
      (x :: l).getLast? = some '\r' := fun hl => by simp [List.getLast?_cons, hl]
  induction a using foldedInduction with
  | nil => rfl
  | lineEnding a ih =>
    rw [folded_lineEnding, List.cons_append, List.cons_append, folded_lineEnding,
      ih fun hl => h (hlast (hlast hl))]
    rfl
  | keep c a hc ih =>
    have hc' : c = '\r' → (a ++ b).head? ≠ some '\n' := by
      rintro rfl
      cases a with
      | nil => simpa using h
      | cons x a => simpa using hc rfl
    rw [List.cons_append, folded_cons hc', folded_cons hc, ih fun hl => h (hlast hl)]
    rfl

/-- A text ends in no carriage return if none is left over. -/
lemma getLast?_ne_of_clean {a : List Char} (h : '\r' ∉ folded a) : a.getLast? ≠ some '\r' := by
  intro hlast
  obtain ⟨a, rfl⟩ := List.getLast?_eq_some_iff.mp hlast
  exact h ((hasStrayReturn_iff _).mp ⟨a, [], rfl, by simp⟩)

/-- Every text is the folding of one: each of its line feeds stands for a line
ending of two characters. -/
lemma exists_folded_eq (v : List Char) : ∃ text, folded text = v ∧ text.head? ≠ some '\n' := by
  induction v with
  | nil => exact ⟨[], rfl, by simp⟩
  | cons c v ih =>
    obtain ⟨text, rfl, htext⟩ := ih
    by_cases hc : c = '\n'
    · exact ⟨'\r' :: '\n' :: text, by rw [folded_lineEnding, hc], by simp⟩
    · exact ⟨c :: text, folded_cons fun _ => htext, by simpa using hc⟩

/-- Every cut of the folding is the folding of a cut of the text. -/
lemma exists_of_folded_eq_append {text u v : List Char} (h : folded text = u ++ v) :
    ∃ a b, text = a ++ b ∧ folded a = u ∧ folded b = v := by
  induction text using foldedInduction generalizing u with
  | nil =>
    obtain ⟨rfl, rfl⟩ : u = [] ∧ v = [] := by simpa using h.symm
    exact ⟨[], [], rfl, rfl, rfl⟩
  | lineEnding text ih =>
    cases u with
    | nil => exact ⟨[], _, rfl, rfl, h⟩
    | cons x u =>
      rw [folded_lineEnding, List.cons_append, List.cons.injEq] at h
      obtain ⟨rfl, h⟩ := h
      obtain ⟨a, b, rfl, rfl, rfl⟩ := ih h
      exact ⟨'\r' :: '\n' :: a, b, rfl, folded_lineEnding a, rfl⟩
  | keep c text hc ih =>
    cases u with
    | nil => exact ⟨[], _, rfl, rfl, h⟩
    | cons x u =>
      rw [folded_cons hc, List.cons_append, List.cons.injEq] at h
      obtain ⟨rfl, h⟩ := h
      obtain ⟨a, b, rfl, rfl, rfl⟩ := ih h
      refine ⟨c :: a, b, rfl, folded_cons ?_, rfl⟩
      rintro rfl
      cases a with
      | nil => simp
      | cons y a => simpa using hc rfl

/-- What a folding begins with in front of its stray carriage returns stays, however
the text goes on. -/
lemma exists_folded_append {text u v : List Char} (h : folded text = u ++ v) (hu : '\r' ∉ u)
    (more : List Char) : ∃ v', folded (text ++ more) = u ++ v' := by
  obtain ⟨a, b, rfl, rfl, rfl⟩ := exists_of_folded_eq_append h
  refine ⟨folded (b ++ more), ?_⟩
  rw [List.append_assoc, folded_append fun hlast => absurd hlast (getLast?_ne_of_clean hu)]

end Lexis
