import Lexis.Proofs.Grammar.Gap
import Lexis.Scanner.Session

/-!
# Tokens that a scan has nothing to do with

A scan of the text neither looks at the current token nor at the tokens that were
given back, and leaves both as they are: with others in their place it comes to the
same result.

* `Scanner.withTokens`: a scanner with other tokens;
* `Aloof`: a computation has nothing to do with them, which computations inherit
  from their parts;
* `Scanner.aloof_scan`: a scan has nothing to do with them.
-/

namespace Lexis

variable {α β σ : Type}

/-- The same result, with its state seen through a function. -/
def mapState (g : σ → σ) : EStateM.Result Fault σ α → EStateM.Result Fault σ α
  | .ok a s => .ok a (g s)
  | .error f s => .error f (g s)

lemma stateAfter_mapState (g : σ → σ) (r : EStateM.Result Fault σ α) :
    stateAfter (mapState g r) = g (stateAfter r) := by
  cases r <;> rfl

namespace Scanner

/-- The scanner with another current token and other tokens that were given back. -/
def withTokens (s : Scanner) (t : Token) (q : List Token) : Scanner :=
  { s with token := t, pending := q }

/-- With the tokens that it has it is the same scanner. -/
@[simp] lemma withTokens_self (s : Scanner) : s.withTokens s.token s.pending = s := rfl

@[simp] lemma withTokens_withTokens (s : Scanner) (t t' : Token) (q q' : List Token) :
    (s.withTokens t q).withTokens t' q' = s.withTokens t' q' := rfl

@[simp] lemma token_withTokens (s : Scanner) (t : Token) (q : List Token) :
    (s.withTokens t q).token = t := rfl

@[simp] lemma pending_withTokens (s : Scanner) (t : Token) (q : List Token) :
    (s.withTokens t q).pending = q := rfl

@[simp] lemma cursor_withTokens (s : Scanner) (t : Token) (q : List Token) :
    (s.withTokens t q).cursor = s.cursor := rfl

end Scanner

/-! ### Computations out of parts -/

/-- The computation has nothing to do with the current token and with the tokens
that were given back. -/
def Aloof (x : ScanM α) : Prop :=
  ∀ s t q, x (Scanner.withTokens s t q) = mapState (·.withTokens t q) (x s)

lemma aloof_pure (a : α) : Aloof (pure a : ScanM α) := fun _ _ _ => rfl

lemma aloof_throw (f : Fault) : Aloof (throw f : ScanM α) := fun _ _ _ => rfl

lemma aloof_setInComment (b : Bool) : Aloof (ScanM.setInComment b) := fun _ _ _ => rfl

lemma aloof_setTokenStart (p : Position) : Aloof (ScanM.setTokenStart p) := fun _ _ _ => rfl

lemma aloof_onCursor (x : CursorM α) : Aloof (ScanM.onCursor x) := by
  intro s t q
  simp only [ScanM.onCursor, Scanner.cursor_withTokens]
  cases x s.cursor <;> rfl

theorem Aloof.bind {x : ScanM α} {f : α → ScanM β} (hx : Aloof x) (hf : ∀ a, Aloof (f a)) :
    Aloof (x >>= f) := by
  intro s t q
  rw [ScanM.bind_apply, ScanM.bind_apply, hx]
  cases x s with
  | ok a s' => exact hf a s' t q
  | error e s' => rfl

lemma Aloof.ite {p : Prop} [Decidable p] {x y : ScanM α} (hx : Aloof x) (hy : Aloof y) :
    Aloof (if p then x else y) := by
  split <;> assumption

/-! ### Scans -/

/-- A piece of a gap has nothing to do with tokens. -/
lemma Gap.aloof_skip (gap : Gap) : Aloof gap.skip := by
  cases gap with
  | blank => exact aloof_onCursor _
  | lineComment => exact (aloof_onCursor _).bind fun _ => aloof_onCursor _
  | blockComment =>
    refine (aloof_onCursor _).bind fun _ => (aloof_setInComment _).bind fun _ => ?_
    exact (aloof_onCursor _).bind fun _ => .ite (aloof_setInComment _) (aloof_pure _)

namespace Scanner

/-- Nor has a whole gap. -/
lemma aloof_skipGaps : Aloof skipGaps := by
  intro s t q
  fun_induction skipGaps s with
  | case1 s hgap => exact skipGaps_of_none hgap
  | case2 s gap hgap e s' hr =>
    rw [skipGaps_of_some (s := s.withTokens t q) hgap, gap.aloof_skip, hr]
    rfl
  | case3 s gap hgap u s' hr ih =>
    rw [skipGaps_of_some (s := s.withTokens t q) hgap, gap.aloof_skip, hr]
    exact ih

/-- Nor has a lexeme, or the end of the text. -/
lemma aloof_scanHere (start : Position) : Aloof (scanHere start) := by
  refine (aloof_onCursor _).bind fun shown => ?_
  cases shown with
  | some c => exact aloof_onCursor _
  | none =>
    -- of the scanner it is only asked whether a comment was left open
    intro s t q
    have hget (s : Scanner) : (get : ScanM Scanner) s = .ok s s := rfl
    simp only [ScanM.bind_apply, hget]
    exact Aloof.ite (p := s.inComment) (aloof_throw _) (aloof_pure _) s t q

/-- **A scan** has nothing to do with the current token and with the tokens that were
given back. -/
theorem aloof_scan : Aloof scan :=
  aloof_skipGaps.bind fun _ => (aloof_onCursor _).bind fun _ =>
    (aloof_setTokenStart _).bind fun _ => aloof_scanHere _

/-- It leaves the current token as it is. -/
lemma token_stateAfter_scan (s : Scanner) : (stateAfter (scan s)).token = s.token := by
  have h := congrArg stateAfter (aloof_scan s s.token s.pending)
  rw [withTokens_self, stateAfter_mapState] at h
  rw [h, token_withTokens]

end Scanner

end Lexis
