import Lexis.Source.Reader
import Lexis.Token.Basic

/-!
# Scanners

A scanner holds a cursor, the token that was handed out last, and the tokens
that were given back and are to be handed out again before the scan goes on.
A computation on a scanner yields a value or ends in a fault, and in both cases
leaves the scanner as it then is, so that a scan can be taken up after a fault.

* `Scanner`, `ScanM`: scanners and the computations on them;
* `ScanM.onCursor`: what is done to the cursor alone;
* `ScanM.Steady`: a computation goes forward in the text and does not touch the
  tokens that were given back.
-/

namespace Lexis

/-- A scan that is under way. -/
structure Scanner where
  /-- The place in the text. -/
  cursor : Cursor := .empty
  /-- The token that was handed out last. -/
  token : Token := .endOfText .start
  /-- The place where the token that is being scanned starts. -/
  tokenStart : Position := .start
  /-- Was a block comment opened and not closed? -/
  inComment : Bool := false
  /-- The tokens that were given back, the oldest first. -/
  pending : List Token := []
  /-- Has the stream of tokens come to its end? -/
  exhausted : Bool := false
deriving DecidableEq

/-- A computation on a scanner. -/
abbrev ScanM := EStateM Fault Scanner

namespace Scanner

/-- A scanner without a text. -/
def new : Scanner := {}

/-- Gives a token back; it is handed out after those given back before it. -/
def pushBack (s : Scanner) (t : Token) : Scanner := { s with pending := s.pending ++ [t] }

/-- Forgets the tokens that were given back. -/
def clearPending (s : Scanner) : Scanner := { s with pending := [] }

end Scanner

namespace ScanM

variable {α β : Type}

/-- What is done to the cursor alone. -/
def onCursor (x : CursorM α) : ScanM α := fun s =>
  match x s.cursor with
  | .ok a c => .ok a { s with cursor := c }
  | .error e c => .error e { s with cursor := c }

/-- The scanner is inside a block comment, or is not any more. -/
def setInComment (b : Bool) : ScanM Unit := modify fun s => { s with inComment := b }

/-- A token starts here. -/
def setTokenStart (p : Position) : ScanM Unit := modify fun s => { s with tokenStart := p }

theorem setInComment_apply (b : Bool) (s : Scanner) :
    setInComment b s = .ok () { s with inComment := b } := rfl

theorem setTokenStart_apply (p : Position) (s : Scanner) :
    setTokenStart p s = .ok () { s with tokenStart := p } := rfl

/-! ### Going forward -/

/-- A computation does nothing to the cursor but move its window on, keeps the
tokens that were given back, and does not end the stream. -/
def Steady (x : ScanM α) : Prop :=
  ∀ s, CursorM.Onward s.cursor (stateAfter (x s)).cursor
    ∧ (stateAfter (x s)).pending = s.pending
    ∧ (stateAfter (x s)).exhausted = s.exhausted

/-- Two computations one after the other. -/
theorem bind_apply (x : ScanM α) (f : α → ScanM β) (s : Scanner) :
    (x >>= f) s = match x s with
      | .ok a s' => f a s'
      | .error e s' => .error e s' := by
  simp only [bind, EStateM.bind]
  cases x s <;> rfl

/-- What is done to the cursor shows at the cursor. -/
theorem cursor_onCursor (x : CursorM α) (s : Scanner) :
    (stateAfter (onCursor x s)).cursor = stateAfter (x s.cursor) := by
  unfold onCursor
  cases x s.cursor <;> rfl

theorem steady_pure (a : α) : Steady (pure a : ScanM α) := fun _ => ⟨.refl, rfl, rfl⟩

theorem steady_throw (f : Fault) : Steady (throw f : ScanM α) :=
  fun _ => ⟨.refl, rfl, rfl⟩

theorem steady_get : Steady (get : ScanM Scanner) := fun _ => ⟨.refl, rfl, rfl⟩

theorem steady_setInComment (b : Bool) : Steady (setInComment b) :=
  fun _ => ⟨.refl, rfl, rfl⟩

theorem steady_setTokenStart (p : Position) : Steady (setTokenStart p) :=
  fun _ => ⟨.refl, rfl, rfl⟩

theorem steady_onCursor {x : CursorM α} (hx : CursorM.Forward x) : Steady (onCursor x) := by
  intro s
  refine ⟨?_, ?_, ?_⟩
  · rw [cursor_onCursor]
    exact hx s.cursor
  · unfold onCursor
    cases x s.cursor <;> rfl
  · unfold onCursor
    cases x s.cursor <;> rfl

theorem steady_bind {x : ScanM α} {f : α → ScanM β} (hx : Steady x)
    (hf : ∀ a, Steady (f a)) : Steady (x >>= f) := by
  intro s
  have h := hx s
  rw [bind_apply]
  cases hr : x s with
  | ok a s' =>
    rw [hr] at h
    have h' := hf a s'
    exact ⟨h.1.trans h'.1, h'.2.1.trans h.2.1, h'.2.2.trans h.2.2⟩
  | error e s' =>
    rw [hr] at h
    exact h

theorem steady_ite {p : Prop} [Decidable p] {x y : ScanM α} (hx : Steady x)
    (hy : Steady y) : Steady (if p then x else y) := by
  split <;> assumption

end ScanM

end Lexis
