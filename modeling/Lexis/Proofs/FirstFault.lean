import Lexis.Proofs.Scan.Passage

/-!
# Texts that have a fault

A text has a fault exactly if it consists of gaps and lexemes up to the text of
one.  The tokens of these lexemes are handed out, no gap is left in front of the
fault, and the text behind them tells which fault it is.

* `Faulty.stray_of_piece`: no gap is left in front of a fault;
* `tokenize_eq_error_iff`: which texts have a fault, and which one.
-/

namespace Lexis

variable {l v r : List Char} {o : Position} {f : Fault} {gap : Gap}

/-! ### No gap in front of a fault -/

/-- A line comment up to a stray carriage return is not one up to the end of its
line. -/
lemma Gap.Piece.stray_of_line {b : List Char} (h : gap.Piece l v) (hb : '\n' ∉ b)
    (hw : l ++ v = '/' :: '/' :: (b ++ '\r' :: r)) : '\r' ∈ l := by
  cases h with
  | blank hc => rcases hc with rfl | rfl | rfl <;> simp at hw
  | blockComment => simp at hw
  | @lineComment body v hbody hv =>
    have hbody' : body ++ v = b ++ '\r' :: r := by simpa using hw
    rcases List.append_eq_append_iff.mp hbody' with ⟨a, rfl, ha⟩ | ⟨a, rfl, ha⟩
    · cases a with
      | nil =>
        rw [List.nil_append] at ha
        simp [ha] at hv
      | cons x a => simp_all
    · cases a with
      | nil =>
        rw [List.nil_append] at ha
        simp [← ha] at hv
      | cons x a => simp_all

/-- A block comment up to a stray carriage return is not one up to its closing
mark. -/
lemma Gap.Piece.stray_of_block {b : List Char} (h : gap.Piece l v) (hb : Gap.Unclosed b)
    (hw : l ++ v = '/' :: '*' :: (b ++ '\r' :: r)) : '\r' ∈ l := by
  cases h with
  | blank hc => rcases hc with rfl | rfl | rfl <;> simp at hw
  | lineComment => simp at hw
  | @blockComment body v hbody =>
    have hbody' : (body ++ ['*', '/']) ++ v = b ++ '\r' :: r := by simpa using hw
    rcases List.append_eq_append_iff.mp hbody' with ⟨a, rfl, ha⟩ | ⟨a, hab, ha⟩
    · exact absurd ⟨body, a, by simp⟩ hb
    · cases a with
      | nil => exact absurd ⟨body, [], by simpa using hab⟩ hb
      | cons x a =>
        obtain ⟨rfl, -⟩ : '\r' = x ∧ r = a ++ v := by simpa using ha
        have hx : '\r' ∈ body ++ ['*', '/'] := by simp [hab]
        simpa using hx

/-- No gap is left in front of a fault, unless a stray carriage return stands in
it. -/
theorem Faulty.stray_of_piece (h : Faulty o (l ++ v) f) (hl : gap.Piece l v) : '\r' ∈ l := by
  have hopen := hl.opener?_eq
  have hmisread : ∀ {r f}, l ++ v = r → Misread o r f → '\r' ∈ l := by
    rintro _ f rfl ⟨x, w, -, -, -, hgap, -⟩
    rw [hopen] at hgap
    simp at hgap
  generalize hw : l ++ v = r at h
  cases h with
  | unrecognizedCharacter hc => exact hmisread hw (.of_nothing hc _)
  | integerOverflow hd hlt => exact hmisread hw (.of_overflow hd hlt _)
  | missingDigit hm he hs hv hsign hr => exact hmisread hw (.of_missingDigit hm he hs hv hsign hr)
  | exponentOverflow hm he hs hd hlt => exact hmisread hw (.of_exponentOverflow hm he hs hd hlt _)
  | invalidNumber | missingEquals | unterminatedString => simp [hw, Gap.opener?] at hopen
  | @unterminatedComment body h =>
    cases hl with
    | blank hc => rcases hc with rfl | rfl | rfl <;> simp at hw
    | lineComment => simp at hw
    | @blockComment b v =>
      have hbody : b ++ ['*', '/'] ++ v = body := by simpa using hw
      exact absurd ⟨b, v, hbody⟩ h
  | @malformedLineEnding u v' h hclean =>
    cases h with
    | nothing | point | mark | quoted => simp [hw, Gap.opener?] at hopen
    | lexeme h => exact hmisread hw (.of_lexeme h hclean _)
    | exponent hm he hs => exact hmisread hw (.of_interrupted hm he hs _)
    | lineComment h => exact hl.stray_of_line h hw
    | blockComment h => exact hl.stray_of_block h hw

/-! ### The first fault -/

/-- **Texts that have a fault** are those that consist of gaps and lexemes up to
the text of one.  The scanner hands out the tokens of these lexemes, no gap is
left in front of the fault, and the fault is the one that the text behind them
begins with. -/
theorem tokenize_eq_error_iff (text : String) (f : Fault) :
    tokenize text = .error f ↔ ∃ u r ts, folded text.toList = u ++ r ∧ '\r' ∉ u
      ∧ Passes .start u r ts ∧ Scanner.FailsAfter text ts f
      ∧ (∀ gap l v, r = l ++ v → Gap.Piece gap l v → '\r' ∈ l)
      ∧ ∀ f', Faulty (.after u) r f' ↔ f' = f := by
  constructor
  · intro herror
    obtain ⟨u, r, ts, hw, hclean, hpass, hf⟩ := faulty_of_tokenize herror
    have hfails := Scanner.failsAfter_of_faulty hw hclean hpass hf
    rw [Position.through_start] at hf
    refine ⟨u, r, ts, hw, hclean, hpass, hfails, ?_, fun g => ⟨fun hg => hg.unique hf, ?_⟩⟩
    · rintro gap l v rfl hl
      exact hf.stray_of_piece hl
    · rintro rfl
      exact hf
  · rintro ⟨u, r, ts, -, -, -, hfails, -⟩
    exact hfails.tokenize_eq

/-- A point that no digit follows is not always an invalid number: a carriage
return that follows it may be stray, and is then met first. -/
theorem not_invalidNumber_of_stray : ¬∀ (text : String) (f : Fault),
    tokenize text = .error f →
      (∃ v, text.toList = '.' :: v ∧ ∀ x ∈ v.head?, isDigit x = false) →
        f = ⟨.invalidNumber, Position.start.right 1⟩ := by
  intro h
  have hpoint : Faulty (Position.start.through []) ['.', '\r', 'x'] _ :=
    .malformedLineEnding (u := ['.']) .point (by decide)
  have hnumber := h ".\rx" _ (tokenize_of_faulty (u := []) rfl (by simp) (.gap .nil) hpoint)
    ⟨['\r', 'x'], rfl, by simp; decide⟩
  simp at hnumber

end Lexis
