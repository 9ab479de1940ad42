import Lexis.Scanner.Stream
import Mathlib.Tactic.Common

/-!
# Calls of a scanner

After a text has been loaded a scanner is called in any order: for the next
token or item, for the end of a gap, for a lexeme at the cursor, or to keep or
forget the tokens that are given back.  A call may end in a fault, and the
scanner goes on from there.

* `Call`, `Scanner.Reaches`: calls, and the scanners that they lead to;
* `Call.onward_run`: a call does nothing to the cursor but move its window on;
* `Scanner.Reaches.onward`: so do all calls together.
-/

namespace Lexis

open CursorM ScanM

/-- What a computation yields or ends in, without the state that it leaves. -/
def answer {α ε σ : Type} : EStateM.Result ε σ α → Except ε α
  | .ok a _ => .ok a
  | .error e _ => .error e

lemma eq_ok_of_answer {α ε σ : Type} {r : EStateM.Result ε σ α} {a : α} (h : answer r = .ok a) :
    r = .ok a (stateAfter r) := by
  cases r <;> cases h
  rfl

/-- What a scanner can be asked for. -/
inductive Call where
  /-- The next token. -/
  | next
  /-- The next item of the stream of tokens. -/
  | item
  /-- The end of the gap at the cursor. -/
  | skipGaps
  /-- The word at the cursor. -/
  | readWord
  /-- The numeral at the cursor. -/
  | readNumeral
  /-- The quoted text at the cursor. -/
  | readQuoted
  /-- The mark at the cursor. -/
  | readMark
  /-- To take a token back. -/
  | pushBack (t : Token)
  /-- To forget the tokens that were given back. -/
  | clearPending

/-- The scanner after a call, whether it ended in a fault or not. -/
def Call.run (s : Scanner) : Call → Scanner
  | next => stateAfter (Scanner.next s)
  | item => s.next?.2
  | skipGaps => stateAfter (Scanner.skipGaps s)
  | readWord => stateAfter (Scanner.readWord s)
  | readNumeral => stateAfter (Scanner.readNumeral s)
  | readQuoted => stateAfter (Scanner.readQuoted s)
  | readMark => stateAfter (Scanner.readMark s)
  | pushBack t => s.pushBack t
  | clearPending => s.clearPending

/-- The scanners that calls lead to after the text has been loaded into any
scanner, successfully or not. -/
inductive Scanner.Reaches (text : String) : Scanner → Prop
  | load (s : Scanner) : Reaches text (stateAfter (load text s))
  | call {s : Scanner} (h : Reaches text s) (k : Call) : Reaches text (k.run s)

namespace Scanner

/-! ### The cursor after a call -/

/-- A lexeme on request is read forward. -/
lemma steady_readWith {reader : Position → CursorM Token} (h : ∀ start, Forward (reader start)) :
    Steady (readWith reader) :=
  steady_bind steady_get fun s => steady_onCursor (h s.tokenStart)

/-- The next token is read forward, or is one that was given back. -/
lemma onward_next (s : Scanner) : Onward s.cursor (stateAfter (next s)).cursor := by
  unfold next
  split
  next => exact .refl
  next =>
    have h := (steady_scan s).1
    split
    next t s' hr => rwa [hr] at h
    next e s' hr => rwa [hr] at h

/-- So is the next item. -/
lemma onward_next? (s : Scanner) : Onward s.cursor s.next?.2.cursor := by
  have h := onward_next s
  unfold next?
  split
  next => exact .refl
  next =>
    split
    next e s' hr => rwa [hr] at h
    next t s' hr =>
      rw [hr] at h
      split <;> exact h

end Scanner

/-- **A call** does nothing to the cursor but move its window on. -/
theorem Call.onward_run (s : Scanner) (k : Call) : Onward s.cursor (k.run s).cursor := by
  cases k with
  | next => exact s.onward_next
  | item => exact s.onward_next?
  | skipGaps => exact (Scanner.steady_skipGaps s).1
  | readWord => exact (Scanner.steady_readWith Word.forward_read s).1
  | readNumeral => exact (Scanner.steady_readWith Numeral.forward_read s).1
  | readQuoted => exact (Scanner.steady_readWith Quoted.forward_read s).1
  | readMark => exact (Scanner.steady_readWith Mark.forward_read s).1
  | pushBack t => exact .refl
  | clearPending => exact .refl

/-- **All calls together** do nothing to the cursor of the text but move its
window on. -/
theorem Scanner.Reaches.onward {text : String} {s : Scanner} (h : Reaches text s) :
    Onward (.before text.toList) s.cursor := by
  induction h with
  | load s =>
    rw [Scanner.load, cursor_onCursor]
    exact forward_advance _
  | @call s _ k ih => exact ih.trans (k.onward_run s)

end Lexis
