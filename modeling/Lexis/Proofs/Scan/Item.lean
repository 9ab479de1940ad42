import Lexis.Proofs.Progress
import Lexis.Proofs.Scan.Session

/-!
# Items of a stream

The stream of a scanner brings its tokens one by one, and a fault as its last item.
The items of all calls together are those of a list, behind which nothing comes any
more.

* `Scanner.next?_of_ok`, `Scanner.next?_of_end`, `Scanner.next?_of_error`: one item;
* `Scanner.itemAt_eq`: the calls bring the items of the list, and then nothing;
* `Scanner.Hands.items_eq`: the tokens that are handed out are its first items;
* `Scanner.EndsAfter.items_eq`, `Scanner.FailsAfter.items_eq`: the items of a text.
-/

namespace Lexis.Scanner

open ScanM

variable {s s' : Scanner} {t : Token} {ts : List Token} {f : Fault} {text : String}
  {item : Except Fault Token}

/-! ### One item -/

/-- Behind the end of the stream nothing comes, and nothing changes. -/
lemma next?_of_exhausted (h : s.exhausted) : s.next? = (none, s) := by
  rw [next?, if_pos h]

/-- A token of the text is an item. -/
lemma next?_of_ok (hlive : s.exhausted = false) (h : next s = .ok t s')
    (ht : t.kind ≠ .endOfText) : s.next? = (some (.ok t), s') := by
  rw [next?, if_neg (by simp [hlive])]
  simp only [h, if_neg ht]

/-- The end of the text is the end of the stream. -/
lemma next?_of_end (hlive : s.exhausted = false) (h : next s = .ok t s')
    (ht : t.kind = .endOfText) : s.next? = (none, s'.exhaust) := by
  rw [next?, if_neg (by simp [hlive])]
  simp only [h, if_pos ht]

/-- A fault is an item, and behind it the stream is at its end. -/
lemma next?_of_error (hlive : s.exhausted = false) (h : next s = .error f s') :
    s.next? = (some (.error f), s'.exhaust) := by
  rw [next?, if_neg (by simp [hlive])]
  simp only [h]

/-! ### All items -/

lemma drain_of_none (h : s.next? = (none, s')) : s.drain = ([], s') := by
  rw [drain]
  split <;> simp_all

lemma drain_of_some (h : s.next? = (some item, s')) :
    s.drain = (item :: s'.drain.1, s'.drain.2) := by
  rw [drain]
  split <;> simp_all

/-- The item that comes to the call with this number, if one does. -/
def itemAt (s : Scanner) (i : Nat) : Option (Except Fault Token) :=
  ((fun s => s.next?.2)^[i] s).next?.1

lemma itemAt_succ (s : Scanner) (i : Nat) : s.itemAt (i + 1) = s.next?.2.itemAt i := rfl

/-- Behind the end of the stream no call brings anything. -/
lemma itemAt_of_exhausted (h : s.exhausted) (i : Nat) : s.itemAt i = none := by
  induction i with
  | zero => rw [itemAt, Function.iterate_zero_apply, next?_of_exhausted h]
  | succ i ih => rw [itemAt_succ, next?_of_exhausted h, ih]

/-- A call that brings no token leaves the stream at its end. -/
lemma exhausted_of_no_token (h : ∀ t, s.next?.1 ≠ some (.ok t)) : s.next?.2.exhausted := by
  by_cases hlive : s.exhausted = false
  · cases hr : next s with
    | error f s' => rw [next?_of_error hlive hr]; rfl
    | ok t s' =>
      by_cases ht : t.kind = .endOfText
      · rw [next?_of_end hlive hr ht]; rfl
      · exact absurd (congrArg Prod.fst (next?_of_ok hlive hr ht)) (h t)
  · have hend : s.exhausted := by simpa using hlive
    rwa [next?_of_exhausted hend]

/-- **The items of all calls** are those of a list, and behind it nothing comes any
more. -/
theorem itemAt_eq (s : Scanner) (i : Nat) : s.itemAt i = s.drain.1[i]? := by
  induction hn : s.supply using Nat.strong_induction_on generalizing s i with
  | _ n ih =>
    subst hn
    cases hr : s.next? with
    | mk item? s' =>
      cases item? with
      | none =>
        rw [drain_of_none hr]
        cases i with
        | zero => exact congrArg Prod.fst hr
        | succ i =>
          have hend : s.next?.2.exhausted := exhausted_of_no_token (by simp [hr])
          rw [itemAt_succ, itemAt_of_exhausted hend]
          rfl
      | some item =>
        rw [drain_of_some hr]
        cases i with
        | zero => exact congrArg Prod.fst hr
        | succ i => rw [itemAt_succ, hr, List.getElem?_cons_succ, ih _ (supply_next?_lt hr) s' i rfl]

/-! ### Tokens that are handed out -/

/-- A call for a token does not end the stream. -/
lemma exhausted_next (s : Scanner) : (stateAfter (next s)).exhausted = s.exhausted := by
  have h := (steady_scan s).2.2
  unfold next
  split
  next => rfl
  next =>
    split
    next t s' hr => rwa [hr] at h
    next f s' hr => rwa [hr] at h

/-- **Tokens that are handed out** are the first items of the stream. -/
theorem Hands.items_eq (h : Hands s ts s') (hlive : s.exhausted = false) :
    s'.exhausted = false ∧ s.drain.1 = ts.map .ok ++ s'.drain.1 := by
  induction h with
  | nil => exact ⟨hlive, rfl⟩
  | @cons s s₁ s₂ t ts hr ht hs ih =>
    have hlive₁ : s₁.exhausted = false := by
      have h := s.exhausted_next
      rw [hr] at h
      exact h.trans hlive
    obtain ⟨hlive₂, hitems⟩ := ih hlive₁
    refine ⟨hlive₂, ?_⟩
    rw [drain_of_some (next?_of_ok hlive hr ht), hitems]
    rfl

/-- A fault behind the tokens is the last item. -/
lemma Hands.items_of_error (h : Hands s ts s') (hlive : s.exhausted = false) {u : Scanner}
    (hr : next s' = .error f u) : s.drain.1 = ts.map .ok ++ [.error f] := by
  obtain ⟨hlive', hitems⟩ := h.items_eq hlive
  rw [hitems, drain_of_some (next?_of_error hlive' hr), drain_of_none (next?_of_exhausted rfl)]

/-- The end of the text behind the tokens is no item. -/
lemma Hands.items_of_end (h : Hands s ts s') (hlive : s.exhausted = false) {u : Scanner}
    (hr : next s' = .ok t u) (ht : t.kind = .endOfText) : s.drain.1 = ts.map .ok := by
  obtain ⟨hlive', hitems⟩ := h.items_eq hlive
  rw [hitems, drain_of_none (next?_of_end hlive' hr ht), List.append_nil]

/-! ### Items of a text -/

/-- A fault behind tokens is no token. -/
lemma map_ok_ne_append_error (ts us : List Token) (f : Fault) :
    ts.map Except.ok ≠ us.map Except.ok ++ [.error f] := by
  intro h
  have hmem : Except.error f ∈ ts.map Except.ok := h ▸ by simp
  simp at hmem

/-- Behind tokens there is one fault. -/
lemma error_inj {us : List Token} {f' : Fault}
    (h : ts.map Except.ok ++ [.error f] = us.map Except.ok ++ [.error f']) : f = f' := by
  have hlast := (List.append_inj' h rfl).2
  simpa using hlast

/-- A new text begins a new stream. -/
lemma exhausted_load (text : String) (s : Scanner) :
    (stateAfter (load text s)).exhausted = false := by
  unfold load onCursor
  split <;> rfl

lemma exhausted_of_load (h : load text s = .ok () s') : s'.exhausted = false := by
  have hlive := exhausted_load text s
  rwa [h] at hlive

/-- The items of a text that comes to its end. -/
theorem EndsAfter.items_eq (h : EndsAfter text ts t) (hload : load text .new = .ok () s) :
    s.drain.1 = ts.map .ok := by
  obtain ⟨s₀, s₁, s₂, hload', hands, hr, ht⟩ := h
  cases hload.symm.trans hload'
  exact hands.items_of_end (exhausted_of_load hload) hr ht

/-- The items of a text that has a fault. -/
theorem FailsAfter.items_eq (h : FailsAfter text ts f) (hload : load text .new = .ok () s) :
    s.drain.1 = ts.map .ok ++ [.error f] := by
  rcases h with ⟨-, s₁, hload'⟩ | ⟨s₀, s₁, s₂, hload', hands, hr⟩
  · cases hload.symm.trans hload'
  · cases hload.symm.trans hload'
    exact hands.items_of_error (exhausted_of_load hload) hr

end Lexis.Scanner
