import Lexis.Scanner.Session

/-!
# Streams of tokens

The tokens of a scanner can be taken one by one, as a stream that ends at the
end of the text or behind the first fault and then stays at its end; or the
tokens of a whole text can be had at once, the end of the text included.

* `Scanner.next?`: the next item of the stream;
* `Scanner.drain`: all items up to the end of the stream;
* `Scanner.tokens`, `tokenize`: all tokens up to the end of the text, or the
  fault that keeps them from being had.
-/

namespace Lexis

namespace Scanner

/-! ### One by one -/

/-- The stream has come to its end. -/
def exhaust (s : Scanner) : Scanner := { s with exhausted := true }

/-- The next item of the stream, a token or a fault, if there is one. -/
def next? (s : Scanner) : Option (Except Fault Token) × Scanner :=
  if s.exhausted then (none, s)
  else
    match next s with
    | .error e s' => (some (.error e), s'.exhaust)
    | .ok t s' => if t.kind = .endOfText then (none, s'.exhaust) else (some (.ok t), s')

/-- What is still to come in the stream. -/
def supply (s : Scanner) : Nat := if s.exhausted then 0 else s.work + 1

/-- An item leaves less to come. -/
theorem supply_next?_lt {s s' : Scanner} {item : Except Fault Token}
    (h : s.next? = (some item, s')) : s'.supply < s.supply := by
  unfold next? at h
  split at h
  next => simp at h
  next hlive =>
    have hsupply : s.supply = s.work + 1 := by simp [supply, hlive]
    split at h
    next e s₁ hr =>
      obtain ⟨-, rfl⟩ := Prod.mk.inj h
      simp [supply, exhaust, hlive]
    next t s₁ hr =>
      split at h
      next => simp at h
      next ht =>
        obtain ⟨-, rfl⟩ := Prod.mk.inj h
        have hlt := work_next_lt hr ht
        unfold supply at hsupply ⊢
        split <;> omega

/-- All items up to the end of the stream, and the scanner at its end. -/
def drain (s : Scanner) : List (Except Fault Token) × Scanner :=
  match _item : s.next? with
  | (none, s') => ([], s')
  | (some item, s') =>
    let (items, last) := drain s'
    (item :: items, last)
termination_by s.supply
decreasing_by exact supply_next?_lt _item

/-! ### All at once -/

/-- All tokens up to the end of the text, which is the last of them. -/
def tokens (s : Scanner) : Except Fault (List Token) :=
  match _token : next s with
  | .error e _ => .error e
  | .ok t s' =>
    if _kind : t.kind = .endOfText then .ok [t] else (tokens s').map (t :: ·)
termination_by s.work
decreasing_by exact work_next_lt _token _kind

end Scanner

/-- All tokens of a text, the end of the text included. -/
def tokenize (text : String) : Except Fault (List Token) :=
  match Scanner.load text .new with
  | .error e _ => .error e
  | .ok _ s => s.tokens

end Lexis
