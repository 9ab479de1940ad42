import Lexis.Proofs.Source.Reading
import Lexis.Scanner.Next

/-!
# Computations in step

Two computations keep in step if they come to the same wherever they start from
states that are alike: both yield values that correspond and leave states that are
alike again, or both end in a fault of the same cause.  Of two cursors it is enough
that they show the same characters as their windows move on together; then all
lexemes are read in step from them.

* `InStep`: computations in step, which they inherit from their parts;
* `Likeness`: a relation of cursors that show the same characters;
* `Likeness.foldShown`: runs of characters are read in step;
* `Likeness.readLexeme`: so are all lexemes.
-/

namespace Lexis

open CursorM

variable {α β γ δ σ : Type} {S : σ → σ → Prop} {R : α → β → Prop} {Q : γ → δ → Prop}

/-- Two results come to the same: values that correspond, with states that are
alike, or faults of the same cause. -/
inductive SameResult (S : σ → σ → Prop) (R : α → β → Prop) :
    EStateM.Result Fault σ α → EStateM.Result Fault σ β → Prop
  | ok {a : α} {b : β} {s s' : σ} (h : R a b) (hs : S s s') : SameResult S R (.ok a s) (.ok b s')
  | error {f f' : Fault} {s s' : σ} (h : f'.cause = f.cause) :
    SameResult S R (.error f s) (.error f' s')

lemma SameResult.exists_ok {r : EStateM.Result Fault σ β} {a : α} {s : σ}
    (h : SameResult S R (.ok a s) r) : ∃ b s', r = .ok b s' ∧ R a b ∧ S s s' := by
  cases h with
  | ok h hs => exact ⟨_, _, rfl, h, hs⟩

lemma SameResult.exists_error {r : EStateM.Result Fault σ β} {f : Fault} {s : σ}
    (h : SameResult S R (.error f s) r) : ∃ f' s', r = .error f' s' ∧ f'.cause = f.cause := by
  cases h with
  | error h => exact ⟨_, _, rfl, h⟩

/-- From states that are alike the two computations come to the same. -/
def InStep (S : σ → σ → Prop) (R : α → β → Prop) (x : EStateM Fault σ α)
    (y : EStateM Fault σ β) : Prop :=
  ∀ s s', S s s' → SameResult S R (x s) (y s')

/-! ### Computations out of parts -/

lemma inStep_pure {a : α} {b : β} (h : R a b) :
    InStep S R (pure a : EStateM Fault σ α) (pure b) := fun _ _ hs => .ok h hs

lemma inStep_throw {f f' : Fault} (h : f'.cause = f.cause) :
    InStep S R (throw f : EStateM Fault σ α) (throw f') := fun _ _ _ => .error h

lemma inStep_fail {S : Cursor → Cursor → Prop} (cause : Cause) (p q : Position) :
    InStep S R (fail cause p) (fail cause q) := inStep_throw rfl

/-- One computation after the other. -/
theorem InStep.bind {x : EStateM Fault σ α} {y : EStateM Fault σ β}
    {f : α → EStateM Fault σ γ} {g : β → EStateM Fault σ δ} (hx : InStep S R x y)
    (hf : ∀ a b, R a b → InStep S Q (f a) (g b)) : InStep S Q (x >>= f) (y >>= g) := by
  intro s s' hs
  have h := hx s s' hs
  simp only [Bind.bind, EStateM.bind]
  generalize x s = r at h
  generalize y s' = r' at h
  cases h with
  | ok h hs => exact hf _ _ h _ _ hs
  | error h => exact .error h

/-- One computation after the other, if the first ones yield the same. -/
lemma InStep.bind_eq {x y : EStateM Fault σ α} {f : α → EStateM Fault σ γ}
    {g : α → EStateM Fault σ δ} (hx : InStep S Eq x y) (hf : ∀ a, InStep S Q (f a) (g a)) :
    InStep S Q (x >>= f) (y >>= g) := by
  refine hx.bind ?_
  rintro a _ rfl
  exact hf a

lemma InStep.ite {p : Prop} [Decidable p] {x x' : EStateM Fault σ α} {y y' : EStateM Fault σ β}
    (hx : InStep S R x y) (hx' : InStep S R x' y') :
    InStep S R (if p then x else x') (if p then y else y') := by
  split <;> assumption

/-! ### Cursors that show the same -/

/-- Cursors that are alike show the same character, and do so again when their
windows have moved on. -/
structure Likeness (S : Cursor → Cursor → Prop) : Prop where
  shown? : ∀ c c', S c c' → c'.shown? = c.shown?
  advance : InStep S Eq advance advance

/-- The same token, at any place. -/
def Token.Resembles (t u : Token) : Prop := u = { t with position := u.position }

lemma Token.resembles_bare (kind : Kind) (p q : Position) :
    (bare kind p).Resembles (bare kind q) := rfl

namespace Likeness

variable {S : Cursor → Cursor → Prop}

lemma look (h : Likeness S) : InStep S Eq look look :=
  fun c c' hc => .ok (h.shown? c c' hc).symm hc

/-- The places of the cursors do not matter. -/
lemma place : InStep S (fun _ _ => True) place place := fun _ _ hc => .ok trivial hc

lemma take (h : Likeness S) (x : Char) : InStep S Eq (take x) (take x) :=
  h.look.bind_eq fun _ =>
    .ite (h.advance.bind_eq fun _ => inStep_pure rfl) (inStep_pure rfl)

/-- Where the one shows a glyph the other shows one for the same character. -/
lemma exists_glyph (h : Likeness S) {c c' : Cursor} {g : Glyph} (hc : S c c')
    (hg : c.glyph? = some g) : ∃ g', c'.glyph? = some g' ∧ g'.shown = g.shown := by
  have hshown := h.shown? c c' hc
  rwa [Cursor.shown?, Cursor.shown?, hg, Option.map_some, Option.map_eq_some_iff] at hshown

/-- At the end of the one text the other is at its end as well. -/
lemma glyph?_eq_none (h : Likeness S) {c c' : Cursor} (hc : S c c') (hg : c.glyph? = none) :
    c'.glyph? = none := by
  have hshown := h.shown? c c' hc
  rwa [Cursor.shown?, Cursor.shown?, hg, Option.map_none, Option.map_eq_none_iff] at hshown

/-- **Runs of characters** are read in step. -/
theorem foldShown (h : Likeness S) {σ : Type} (step : σ → Char → Option σ) (acc : σ) :
    InStep S Eq (foldShown step acc) (foldShown step acc) := by
  intro c c' hc
  unfold CursorM.foldShown
  fun_induction foldWhile (fun s (g : Glyph) => step s g.shown) acc c generalizing c' with
  | case1 acc c hg =>
    rw [foldWhile_of_ended (h.glyph?_eq_none hc hg)]
    exact .ok rfl hc
  | case2 acc c g hg hs =>
    obtain ⟨g', hg', hsame⟩ := h.exists_glyph hc hg
    rw [foldWhile_of_refused hg' (by rwa [hsame])]
    exact .ok rfl hc
  | case3 acc c g hg acc' hs f c₁ hr =>
    obtain ⟨g', hg', hsame⟩ := h.exists_glyph hc hg
    obtain ⟨f', c₁', hr', hcause⟩ := (hr ▸ h.advance c c' hc).exists_error
    rw [foldWhile_of_accepted hg' (by rwa [hsame]), bind_apply, hr']
    exact .error hcause
  | case4 acc c g hg acc' hs u c₁ hr ih =>
    obtain ⟨g', hg', hsame⟩ := h.exists_glyph hc hg
    obtain ⟨_, c₁', hr', -, hc₁⟩ := (hr ▸ h.advance c c' hc).exists_ok
    rw [foldWhile_of_accepted hg' (by rwa [hsame]), bind_apply, hr']
    exact ih _ hc₁

/-! ### Lexemes -/

lemma readWord (h : Likeness S) (p q : Position) :
    InStep S Token.Resembles (Word.read p) (Word.read q) := by
  refine (h.foldShown _ _).bind_eq fun word => inStep_pure ?_
  unfold Word.token
  split <;> rfl

lemma digits (h : Likeness S) (k : Numeral.Counter α) (beyond : Cause) (p q : Position) :
    InStep S Eq (Numeral.digits k beyond p) (Numeral.digits k beyond q) :=
  (h.foldShown _ _).bind_eq fun _ =>
    (h.look.bind_eq fun _ => inStep_pure rfl).bind_eq fun _ =>
      .ite (inStep_fail _ _ _) (inStep_pure rfl)

lemma exponent (h : Likeness S) (marker : Char) (p q : Position) :
    InStep S Eq (Numeral.exponent marker p) (Numeral.exponent marker q) := by
  have hsign : InStep S Eq Numeral.negativeSign Numeral.negativeSign :=
    (h.take _).bind_eq fun _ => .ite (inStep_pure rfl)
      ((h.take _).bind_eq fun _ => inStep_pure rfl)
  refine hsign.bind_eq fun negative => (h.digits _ _ p q).bind_eq fun value => ?_
  cases value with
  | none => exact place.bind fun _ _ _ => inStep_fail _ _ _
  | some n => exact inStep_pure rfl

lemma marker? (h : Likeness S) : InStep S Eq Numeral.marker? Numeral.marker? :=
  (h.take _).bind_eq fun _ => .ite (inStep_pure rfl)
    ((h.take _).bind_eq fun _ => .ite (inStep_pure rfl) (inStep_pure rfl))

lemma readPointed (h : Likeness S) (whole : Option Int64) (p q : Position) :
    InStep S Token.Resembles (Numeral.readPointed whole p) (Numeral.readPointed whole q) := by
  refine (h.foldShown _ _).bind_eq fun f => .ite (inStep_fail _ _ _) ?_
  refine h.marker?.bind_eq fun marker => ?_
  cases marker with
  | none => exact inStep_pure rfl
  | some m => exact (h.exponent m p q).bind_eq fun _ => inStep_pure rfl

lemma readPlain (h : Likeness S) (whole : Option Int64) (p q : Position) :
    InStep S Token.Resembles (Numeral.readPlain whole p) (Numeral.readPlain whole q) := by
  refine h.marker?.bind_eq fun marker => ?_
  cases marker with
  | none => exact inStep_pure rfl
  | some m => exact (h.exponent m p q).bind_eq fun _ => inStep_pure rfl

lemma readNumeral (h : Likeness S) (p q : Position) :
    InStep S Token.Resembles (Numeral.read p) (Numeral.read q) :=
  (h.digits _ _ p q).bind_eq fun _ => (h.take _).bind_eq fun _ =>
    .ite (h.readPointed _ p q) (h.readPlain _ p q)

lemma readQuoted (h : Likeness S) (p q : Position) :
    InStep S Token.Resembles (Quoted.read p) (Quoted.read q) := by
  refine h.advance.bind_eq fun _ => (h.foldShown _ _).bind_eq fun body => ?_
  refine h.look.bind_eq fun shown => ?_
  cases shown with
  | none => exact inStep_fail _ _ _
  | some _ => exact h.advance.bind_eq fun _ => inStep_pure rfl

lemma readBeforeEquals (h : Likeness S) (c : Char) (alone : Option Symbol) (joined : Symbol) :
    InStep S Eq (Mark.readBeforeEquals c alone joined) (Mark.readBeforeEquals c alone joined) := by
  refine h.advance.bind_eq fun _ => (h.take _).bind_eq fun _ => .ite (inStep_pure rfl) ?_
  cases alone with
  | none => exact place.bind fun _ _ _ => inStep_fail _ _ _
  | some symbol => exact inStep_pure rfl

lemma readMark (h : Likeness S) (p q : Position) :
    InStep S Token.Resembles (Mark.read p) (Mark.read q) := by
  refine h.look.bind_eq fun shown => InStep.bind_eq ?_ fun symbol => inStep_pure rfl
  unfold Mark.readSymbol
  split
  next => exact h.readBeforeEquals _ _ _
  next =>
    split
    next => exact h.advance.bind_eq fun _ => inStep_pure rfl
    next => exact inStep_fail _ _ _

/-- **Lexemes** are read in step. -/
theorem readLexeme (h : Likeness S) (c : Char) (p q : Position) :
    InStep S Token.Resembles (readLexeme c p) (readLexeme c q) := by
  unfold Lexis.readLexeme
  split
  next => exact h.readWord p q
  next => exact h.readNumeral p q
  next => exact h.readNumeral p q
  next => exact h.readQuoted p q
  next => exact h.readMark p q
  next => exact h.readMark p q

end Likeness

end Lexis
