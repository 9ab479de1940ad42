import Lexis.Scanner.Next
import Mathlib.Tactic.Common

/-!
# What is kept up to a stray carriage return

A stray carriage return costs the cursor characters that its window never shows.  As
long as none is met, all that happens to a cursor is that its window moves on, and
what every such move keeps is kept by all readers, whether they yield a lexeme or end
in a fault of their own.

* `BrokenOff`: a stray carriage return has been met;
* `Keeps`: what holds of a state holds of the state that a computation leaves, unless
  it is broken off, which computations inherit from their parts;
* `Keeps.foldWhile`: runs of glyphs keep what the moves of the window keep;
* `Keeps.readLexeme`: so do all lexemes.
-/

namespace Lexis

open CursorM

variable {α β σ : Type}

/-- The result is the fault of a stray carriage return. -/
def BrokenOff : EStateM.Result Fault σ α → Prop
  | .ok _ _ => False
  | .error f _ => f.cause = .malformedLineEnding

/-- From a state with the property `P` the computation leaves one, be it with a value
or with a fault, unless it is broken off. -/
def Keeps (P : σ → Prop) (x : EStateM Fault σ α) : Prop :=
  ∀ s, P s → ¬BrokenOff (x s) → P (stateAfter (x s))

/-! ### Computations out of parts -/

section Parts

variable {P : σ → Prop}

lemma keeps_pure (a : α) : Keeps P (pure a : EStateM Fault σ α) := fun _ hs _ => hs

lemma keeps_throw (f : Fault) : Keeps P (throw f : EStateM Fault σ α) := fun _ hs _ => hs

lemma keeps_get : Keeps P (get : EStateM Fault σ σ) := fun _ hs _ => hs

/-- One computation after the other. -/
theorem Keeps.bind {x : EStateM Fault σ α} {f : α → EStateM Fault σ β} (hx : Keeps P x)
    (hf : ∀ a, Keeps P (f a)) : Keeps P (x >>= f) := by
  intro s hs hwhole
  have h := hx s hs
  simp only [Bind.bind, EStateM.bind] at hwhole ⊢
  cases hr : x s with
  | ok a s' =>
    rw [hr] at h hwhole
    exact hf a s' (h not_false) hwhole
  | error f s' =>
    rw [hr] at h hwhole
    exact h hwhole

lemma Keeps.ite {p : Prop} [Decidable p] {x y : EStateM Fault σ α} (hx : Keeps P x)
    (hy : Keeps P y) : Keeps P (if p then x else y) := by
  split <;> assumption

end Parts

/-! ### Readers -/

variable {P : Cursor → Prop}

lemma keeps_look : Keeps P look := fun _ hc _ => hc

lemma keeps_place : Keeps P place := fun _ hc _ => hc

lemma keeps_fail (cause : Cause) (p : Position) : Keeps P (fail cause p : CursorM α) :=
  keeps_throw _

namespace Keeps

lemma take (h : Keeps P advance) (x : Char) : Keeps P (take x) :=
  keeps_look.bind fun _ => .ite (h.bind fun _ => keeps_pure _) (keeps_pure _)

/-- **Runs of glyphs** keep what the moves of the window keep. -/
theorem foldWhile (h : Keeps P advance) {τ : Type} (step : τ → Glyph → Option τ) (acc : τ) :
    Keeps P (foldWhile step acc) := by
  intro c hc hwhole
  fun_induction CursorM.foldWhile step acc c with
  | case1 | case2 => exact hc
  | case3 acc c g hg acc' hs f c' hr =>
    have hmove := h c hc
    rw [hr] at hmove
    exact hmove hwhole
  | case4 acc c g hg acc' hs u c' hr ih =>
    have hmove := h c hc
    rw [hr] at hmove
    exact ih (hmove not_false) hwhole

lemma foldShown (h : Keeps P advance) {τ : Type} (step : τ → Char → Option τ) (acc : τ) :
    Keeps P (foldShown step acc) := h.foldWhile _ acc

/-! ### Lexemes -/

lemma readWord (h : Keeps P advance) (start : Position) : Keeps P (Word.read start) :=
  (h.foldShown _ _).bind fun _ => keeps_pure _

lemma digits (h : Keeps P advance) (k : Numeral.Counter α) (beyond : Cause) (start : Position) :
    Keeps P (Numeral.digits k beyond start) :=
  (h.foldShown _ _).bind fun _ => (keeps_look.bind fun _ => keeps_pure _).bind fun _ =>
    .ite (keeps_fail _ _) (keeps_pure _)

lemma exponent (h : Keeps P advance) (marker : Char) (start : Position) :
    Keeps P (Numeral.exponent marker start) := by
  have hsign : Keeps P Numeral.negativeSign :=
    (h.take _).bind fun _ => .ite (keeps_pure _) ((h.take _).bind fun _ => keeps_pure _)
  refine hsign.bind fun negative => (h.digits _ _ _).bind fun value => ?_
  cases value with
  | none => exact keeps_place.bind fun _ => keeps_fail _ _
  | some n => exact keeps_pure _

lemma marker? (h : Keeps P advance) : Keeps P Numeral.marker? :=
  (h.take _).bind fun _ => .ite (keeps_pure _)
    ((h.take _).bind fun _ => .ite (keeps_pure _) (keeps_pure _))

lemma readPointed (h : Keeps P advance) (whole : Option Int64) (start : Position) :
    Keeps P (Numeral.readPointed whole start) := by
  refine (h.foldShown _ _).bind fun f => .ite (keeps_fail _ _) ?_
  refine h.marker?.bind fun marker => ?_
  cases marker with
  | none => exact keeps_pure _
  | some m => exact (h.exponent m start).bind fun _ => keeps_pure _

lemma readPlain (h : Keeps P advance) (whole : Option Int64) (start : Position) :
    Keeps P (Numeral.readPlain whole start) := by
  refine h.marker?.bind fun marker => ?_
  cases marker with
  | none => exact keeps_pure _
  | some m => exact (h.exponent m start).bind fun _ => keeps_pure _

lemma readNumeral (h : Keeps P advance) (start : Position) : Keeps P (Numeral.read start) :=
  (h.digits _ _ _).bind fun _ => (h.take _).bind fun _ =>
    .ite (h.readPointed _ start) (h.readPlain _ start)

lemma readQuoted (h : Keeps P advance) (start : Position) : Keeps P (Quoted.read start) := by
  refine h.bind fun _ => (h.foldShown _ _).bind fun body => keeps_look.bind fun shown => ?_
  cases shown with
  | none => exact keeps_fail _ _
  | some x => exact h.bind fun _ => keeps_pure _

lemma readBeforeEquals (h : Keeps P advance) (c : Char) (alone : Option Symbol)
    (joined : Symbol) : Keeps P (Mark.readBeforeEquals c alone joined) := by
  refine h.bind fun _ => (h.take _).bind fun _ => .ite (keeps_pure _) ?_
  cases alone with
  | none => exact keeps_place.bind fun _ => keeps_fail _ _
  | some symbol => exact keeps_pure _

lemma readMark (h : Keeps P advance) (start : Position) : Keeps P (Mark.read start) := by
  refine keeps_look.bind fun shown => Keeps.bind ?_ fun symbol => keeps_pure _
  unfold Mark.readSymbol
  split
  next => exact h.readBeforeEquals _ _ _
  next =>
    split
    next => exact h.bind fun _ => keeps_pure _
    next => exact keeps_fail _ _

/-- **Lexemes** keep what the moves of the window keep. -/
theorem readLexeme (h : Keeps P advance) (c : Char) (start : Position) :
    Keeps P (readLexeme c start) := by
  unfold Lexis.readLexeme
  split
  next => exact h.readWord start
  next => exact h.readNumeral start
  next => exact h.readNumeral start
  next => exact h.readQuoted start
  next => exact h.readMark start
  next => exact h.readMark start

end Keeps

end Lexis
