import Lexis.Proofs.Scan.Passage
import Lexis.Proofs.Source.Displacement

/-!
# Displaced tokens

What a text amounts to does not depend on the place that it is read from: with
the text its tokens are displaced, and so is its fault.  Nothing else of them
changes.

* `Token.displaced`, `Fault.displaced`: a token and a fault at another place;
* `Passes.displaced`: a passage that is read from another place on;
* `Faulty.displaced`: a fault of such a text.
-/

namespace Lexis

variable {φ : Position → Position} {o : Position} {l v u r : List Char}
  {token : Position → Token} {ts : List Token} {f : Fault}

/-- The token at another place. -/
def Token.displaced (φ : Position → Position) (t : Token) : Token :=
  { t with position := φ t.position }

/-- The fault at another place. -/
def Fault.displaced (φ : Position → Position) (f : Fault) : Fault :=
  { f with position := φ f.position }

/-- What a lexeme means does not depend on its place. -/
lemma Lexeme.token_displaced (h : Lexeme l v token) (φ : Position → Position) (p : Position) :
    (token p).displaced φ = token (φ p) := by
  obtain ⟨kind, text, n, x, -, htoken⟩ := h.exists_token_eq
  rw [htoken, htoken]
  rfl

/-- A passage that is read from another place on. -/
theorem Passes.displaced (h : Passes o u r ts) (hφ : Position.Carries φ o (u ++ r)) :
    Passes (φ o) u r (ts.map (·.displaced φ)) := by
  induction h with
  | gap hg => exact .gap hg
  | @token o g l u r token ts hg hl hv h ih =>
    rw [List.append_assoc, List.append_assoc] at hφ
    have hgap := hφ.through_eq
    have hlexeme := hφ.drop.through_eq
    have hrest := ih hφ.drop.drop
    rw [hlexeme, hgap] at hrest
    rw [List.map_cons, hl.token_displaced, hφ.right, hgap]
    exact .token hg hl hv hrest

/-- A fault of a text that is read from another place on. -/
theorem Faulty.displaced (h : Faulty o r f) (hφ : Position.Carries φ o r) :
    Faulty (φ o) r (f.displaced φ) := by
  cases h with
  | unrecognizedCharacter hc =>
    rw [Fault.displaced, hφ.right]
    exact .unrecognizedCharacter hc
  | integerOverflow hd hlt =>
    rw [Fault.displaced, hφ.right]
    exact .integerOverflow hd hlt
  | invalidNumber hv hr =>
    rw [Fault.displaced, hφ.right]
    exact .invalidNumber hv hr
  | @missingEquals v hv hr =>
    have hφ' : Position.Carries φ o (['!'] ++ v) := hφ
    rw [Fault.displaced, hφ'.drop.toward_eq, hφ'.through_eq]
    exact .missingEquals hv hr
  | missingDigit hm he hs hv hsign hr =>
    rw [Fault.displaced, hφ.drop.toward_eq, hφ.through_eq]
    exact .missingDigit hm he hs hv hsign hr
  | exponentOverflow hm he hs hd hlt =>
    rw [Fault.displaced, hφ.right]
    exact .exponentOverflow hm he hs hd hlt
  | unterminatedString h hclean =>
    rw [Fault.displaced, hφ.right]
    exact .unterminatedString h hclean
  | @unterminatedComment body h hclean =>
    have hφ' : Position.Carries φ o (('/' :: '*' :: body) ++ []) := by simpa using hφ
    rw [Fault.displaced, hφ'.through_eq]
    exact .unterminatedComment h hclean
  | malformedLineEnding h hclean =>
    rw [Fault.displaced, hφ.right, hφ.through_eq]
    exact .malformedLineEnding h hclean

end Lexis
