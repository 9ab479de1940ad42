import Lexis.Scanner.Next
import Mathlib.Tactic.Common

/-!
# What a scanner gets past

Two causes of faults last: a scanner that has met one of them meets it again, for
it cannot get past the place.  No lexeme ends in such a cause, but for a character
that begins none.

* `Cause.lasts`, `AtRest`: what a scanner cannot get past;
* `Proceeds`: the values of a computation that ends in no lasting fault, which
  computations inherit from their parts;
* `readLexeme_or`: a lexeme takes some of the text, or nothing begins there.
-/

namespace Lexis

open CursorM

variable {α β σ : Type} {V : α → Prop} {W : β → Prop}

/-- The scanner cannot get past the place where it met this. -/
def Cause.lasts : Cause → Bool
  | .unterminatedComment | .unrecognizedCharacter _ => true
  | _ => false

/-- There is nothing further to be had from the scanner: it is at the end of its
text, or it cannot get past a fault. -/
def AtRest : EStateM.Result Fault σ Token → Prop
  | .ok t _ => t.kind = .endOfText
  | .error f _ => f.cause.lasts

/-! ### Computations out of parts -/

/-- Wherever it starts, the computation yields such a value or ends in a fault
that does not last. -/
def Proceeds (V : α → Prop) (x : EStateM Fault σ α) : Prop :=
  ∀ s, match x s with
    | .ok a _ => V a
    | .error f _ => f.cause.lasts = false

/-- Wherever it starts, the computation ends in no lasting fault. -/
abbrev Passable (x : EStateM Fault σ α) : Prop := Proceeds (fun _ => True) x

lemma proceeds_pure {a : α} (h : V a) : Proceeds V (pure a : EStateM Fault σ α) := fun _ => h

lemma passable_pure (a : α) : Passable (pure a : EStateM Fault σ α) := proceeds_pure trivial

lemma proceeds_throw {f : Fault} (h : f.cause.lasts = false) :
    Proceeds V (throw f : EStateM Fault σ α) := fun _ => h

/-- One computation after the other: the second is met with the values of the first
only. -/
theorem Proceeds.bind {x : EStateM Fault σ α} {f : α → EStateM Fault σ β} (hx : Proceeds V x)
    (hf : ∀ a, V a → Proceeds W (f a)) : Proceeds W (x >>= f) := by
  intro s
  have h := hx s
  simp only [Bind.bind, EStateM.bind]
  cases hr : x s with
  | ok a s' =>
    rw [hr] at h
    exact hf a h s'
  | error f s' =>
    rw [hr] at h
    exact h

/-- One computation after the other, whatever the first yields. -/
lemma Passable.bind {x : EStateM Fault σ α} {f : α → EStateM Fault σ β} (hx : Passable x)
    (hf : ∀ a, Proceeds W (f a)) : Proceeds W (x >>= f) :=
  Proceeds.bind hx fun a _ => hf a

lemma Proceeds.ite {p : Prop} [Decidable p] {x y : EStateM Fault σ α} (hx : Proceeds V x)
    (hy : Proceeds V y) : Proceeds V (if p then x else y) := by
  split <;> assumption

lemma proceeds_fail {cause : Cause} (h : cause.lasts = false) (p : Position) :
    Proceeds V (fail cause p : CursorM α) := proceeds_throw h

lemma passable_look : Passable look := fun _ => trivial

lemma passable_place : Passable place := fun _ => trivial

/-- A move of the window meets with nothing but a stray carriage return. -/
lemma passable_advance : Passable advance := by
  intro c
  unfold advance
  cases c.ahead with
  | ended => trivial
  | shows g rest =>
    simp only
    cases Pull.of rest with
    | broken => rfl
    | _ => trivial

lemma passable_take (x : Char) : Passable (take x) :=
  passable_look.bind fun _ =>
    .ite (passable_advance.bind fun _ => passable_pure _) (passable_pure _)

/-- A run of glyphs meets with nothing but a stray carriage return. -/
lemma passable_foldWhile (step : σ → Glyph → Option σ) (acc : σ) :
    Passable (foldWhile step acc) := by
  intro c
  fun_induction foldWhile step acc c with
  | case1 | case2 => trivial
  | case3 acc c g hg acc' hs f c' hr =>
    have h := passable_advance c
    rwa [hr] at h
  | case4 acc c g hg acc' hs u c' hr ih => exact ih

lemma passable_foldShown (step : σ → Char → Option σ) (acc : σ) :
    Passable (foldShown step acc) := passable_foldWhile _ acc

/-! ### Lexemes -/

/-- Is the token a lexeme of a text, and not its end? -/
def IsLexeme (t : Token) : Prop := t.kind ≠ .endOfText

/-- Lexemes and faults that do not last are no rest. -/
lemma Proceeds.not_atRest {x : EStateM Fault σ Token} (h : Proceeds IsLexeme x) (s : σ) :
    ¬AtRest (x s) := by
  have hs := h s
  cases hr : x s with
  | ok t s' =>
    rw [hr] at hs
    exact hs
  | error f s' =>
    rw [hr] at hs
    simpa [AtRest] using hs

/-- A word is a token other than the end of the text. -/
lemma Word.proceeds_read (start : Position) : Proceeds IsLexeme (Word.read start) := by
  refine (passable_foldShown _ _).bind fun word => proceeds_pure ?_
  unfold Word.token
  split <;> exact Kind.noConfusion

namespace Numeral

lemma passable_digits {α : Type} (k : Counter α) {beyond : Cause} (h : beyond.lasts = false)
    (start : Position) : Passable (digits k beyond start) :=
  (passable_foldShown _ _).bind fun _ =>
    Passable.bind (passable_look.bind fun _ => passable_pure _) fun _ =>
      .ite (proceeds_fail h _) (passable_pure _)

lemma passable_exponent (marker : Char) (start : Position) :
    Passable (exponent marker start) := by
  refine Passable.bind ?_ fun negative => (passable_digits _ rfl _).bind fun value => ?_
  · exact (passable_take _).bind fun _ => .ite (passable_pure _)
      ((passable_take _).bind fun _ => passable_pure _)
  · cases value with
    | none => exact passable_place.bind fun _ => proceeds_fail rfl _
    | some n => exact passable_pure _

lemma passable_marker? : Passable marker? :=
  (passable_take _).bind fun _ => .ite (passable_pure _)
    ((passable_take _).bind fun _ => .ite (passable_pure _) (passable_pure _))

lemma proceeds_readPointed (whole : Option Int64) (start : Position) :
    Proceeds IsLexeme (readPointed whole start) := by
  refine (passable_foldShown _ _).bind fun f => .ite (proceeds_fail rfl _) ?_
  refine passable_marker?.bind fun marker => ?_
  cases marker with
  | none => exact proceeds_pure Kind.noConfusion
  | some m => exact (passable_exponent _ _).bind fun _ => proceeds_pure Kind.noConfusion

lemma proceeds_readPlain (whole : Option Int64) (start : Position) :
    Proceeds IsLexeme (readPlain whole start) := by
  refine passable_marker?.bind fun marker => ?_
  cases marker with
  | none => exact proceeds_pure Kind.noConfusion
  | some m => exact (passable_exponent _ _).bind fun _ => proceeds_pure Kind.noConfusion

/-- A numeral is a token other than the end of the text, and ends in no lasting
fault. -/
lemma proceeds_read (start : Position) : Proceeds IsLexeme (Numeral.read start) :=
  (passable_digits _ rfl _).bind fun _ => (passable_take _).bind fun _ =>
    .ite (proceeds_readPointed _ _) (proceeds_readPlain _ _)

end Numeral

/-- So is a quoted text, and neither does it. -/
lemma Quoted.proceeds_read (start : Position) : Proceeds IsLexeme (Quoted.read start) := by
  refine passable_advance.bind fun _ => (passable_foldShown _ _).bind fun body => ?_
  refine passable_look.bind fun shown => ?_
  cases shown with
  | none => exact proceeds_fail rfl _
  | some x => exact passable_advance.bind fun _ => proceeds_pure Kind.noConfusion

namespace Mark

variable {c : Cursor} {x : Char}

lemma passable_readBeforeEquals (c : Char) (alone : Option Symbol) (joined : Symbol) :
    Passable (readBeforeEquals c alone joined) := by
  refine passable_advance.bind fun _ => (passable_take _).bind fun _ => .ite (passable_pure _) ?_
  cases alone with
  | none => exact passable_place.bind fun _ => proceeds_fail rfl _
  | some symbol => exact passable_pure _

/-- A symbol takes the character in the window, or the character begins none. -/
lemma readSymbol_or (h : c.shown? = some x) (start : Position) :
    (Shortens (readSymbol x start) c ∧ Passable (readSymbol x start))
      ∨ readSymbol x start = fail (.unrecognizedCharacter x) start := by
  have hadvance := shortens_advance h
  unfold readSymbol
  cases hb : Symbol.beforeEquals? x with
  | some forms =>
    obtain ⟨alone, joined⟩ := forms
    refine Or.inl ⟨hadvance.bind fun _ => ?_, passable_readBeforeEquals x alone joined⟩
    refine forward_bind (forward_take _) fun _ => forward_ite (forward_pure _) ?_
    cases alone with
    | none => exact forward_bind forward_place fun _ => forward_fail _ _
    | some symbol => exact forward_pure _
  | none =>
    cases hc : Symbol.ofChar? x with
    | some symbol =>
      refine Or.inl ⟨hadvance.bind fun _ => forward_pure _, ?_⟩
      exact passable_advance.bind fun _ => passable_pure _
    | none => exact Or.inr rfl

/-- A mark takes the character in the window, or the character begins none. -/
lemma read_or (h : c.shown? = some x) (start : Position) :
    (Shortens (read start) c ∧ ¬AtRest (read start c))
      ∨ read start c = .error ⟨.unrecognizedCharacter x, start⟩ c := by
  have hlook : look c = .ok (some x) c := by rw [look, h]
  have hread : read start c
      = (readSymbol x start >>= fun s => pure (Token.bare (.symbol s) start)) c := by
    rw [read, bind_apply, hlook]
    rfl
  rcases readSymbol_or h start with ⟨hlt, hpassable⟩ | hnone
  · have hsymbol : Proceeds IsLexeme
        (readSymbol x start >>= fun s => pure (Token.bare (.symbol s) start)) :=
      hpassable.bind fun _ => proceeds_pure Kind.noConfusion
    refine Or.inl ⟨?_, hread ▸ hsymbol.not_atRest c⟩
    rw [Shortens, hread]
    exact hlt.bind fun _ => forward_pure _
  · refine Or.inr ?_
    rw [hread, hnone]
    rfl

end Mark

/-- **A lexeme** takes some of the text, and there is more to be had behind it, or
the character in the window begins none and stays there. -/
theorem readLexeme_or {c : Cursor} {x : Char} (h : c.shown? = some x) (start : Position) :
    (Shortens (readLexeme x start) c ∧ ¬AtRest (readLexeme x start c))
      ∨ readLexeme x start c = .error ⟨.unrecognizedCharacter x, start⟩ c := by
  unfold readLexeme
  cases hx : CharClass.of x with
  | wordStart =>
    have hlt := Word.shortens_read h (isWordStart_of_class hx) start
    exact Or.inl ⟨hlt, (Word.proceeds_read start).not_atRest c⟩
  | digit =>
    have hlt := Numeral.shortens_read h (.inl (isDigit_of_class hx)) start
    exact Or.inl ⟨hlt, (Numeral.proceeds_read start).not_atRest c⟩
  | dot =>
    have hlt := Numeral.shortens_read h (.inr (eq_dot_of_class hx)) start
    exact Or.inl ⟨hlt, (Numeral.proceeds_read start).not_atRest c⟩
  | quote =>
    have hlt := Quoted.shortens_read h start
    exact Or.inl ⟨hlt, (Quoted.proceeds_read start).not_atRest c⟩
  | blank | other => exact Mark.read_or h start

end Lexis
