import Lexis.Proofs.Pushback

/-!
# Gaps that are passed early

The gap at the cursor may be passed at any time before the next token is asked for.
It is passed as a whole, so that there is nothing to be passed again, and what is
asked for afterwards comes to the same as if it had still been there: at a queue of
tokens that were given back, at the end of the text, and behind a comment that is
not closed.

* `Gap.ahead?_eq_none_iff`: where no gap begins;
* `Scanner.Course`: requests among which gaps are passed;
* `Scanner.Behind`, `Behind.run`: a scanner whose gap has been passed meets with every
  request as the one in front of the gap does;
* `Course.behind`: so it does in a whole course;
* `Scanner.skipGaps_unseen`: gaps are passed as a whole, and unseen.
-/

namespace Lexis

/-- No gap begins at the end of the text, nor where neither a blank nor the opener of
a comment is in the window. -/
lemma Gap.ahead?_eq_none_iff (c : Cursor) :
    ahead? c = none ↔ c.atEnd ∨ ∃ x, c.shown? = some x ∧ x ≠ ' ' ∧ x ≠ '\t'
      ∧ (x = '/' → c.next? ≠ some '/' ∧ c.next? ≠ some '*') := by
  cases hg : c.glyph? with
  | none => simp [ahead?, Cursor.atEnd, Cursor.shown?, hg]
  | some g =>
    have hshown : c.shown? = some g.shown := by rw [Cursor.shown?, hg, Option.map_some]
    have hend : c.atEnd = false := by rw [Cursor.atEnd, hg]; rfl
    simp only [ahead?, hshown, hend, Bool.false_eq_true, false_or, Option.some.injEq]
    grind

namespace Scanner

variable {s s' u u' : Scanner} {rs : List Request} {es : List Event}

/-! ### Requests among which gaps are passed -/

/-- A course of requests: between them the gap at the cursor may be passed, as often
as one likes, as long as this does not end in a fault.  What comes of the requests is
taken down. -/
inductive Course : Scanner → List Request → List Event → Scanner → Prop
  /-- There are no requests left. -/
  | done (s : Scanner) : Course s [] [] s
  /-- The gap at the cursor is passed. -/
  | skip {s s' u : Scanner} {rs : List Request} {es : List Event}
      (hskip : skipGaps s = .ok () s') (h : Course s' rs es u) : Course s rs es u
  /-- A request is met with. -/
  | request {s u : Scanner} {rs : List Request} {es : List Event} (r : Request)
      (h : Course (r.call.run s) rs es u) : Course s (r :: rs) (r.event s :: es) u

/-- Behind a gap there is no other one. -/
lemma ahead?_of_skipGaps (h : skipGaps s = .ok () s') : Gap.ahead? s'.cursor = none := by
  rcases s.skipGaps_or with ⟨s₁, hr, hgap⟩ | ⟨f, s₁, hr, -⟩
  · rw [h] at hr
    cases hr
    exact hgap
  · rw [h] at hr
    cases hr

/-- A gap that has been passed is not passed again. -/
lemma skipGaps_idem (h : skipGaps s = .ok () s') : skipGaps s' = .ok () s' :=
  skipGaps_of_none (ahead?_of_skipGaps h)

/-- The scanner `u` is where `s` is, but for the gap at the cursor, which it may have
passed. -/
def Behind (s u : Scanner) : Prop := u = s ∨ skipGaps s = .ok () u

namespace Behind

/-- Both have the same current token and the same queue. -/
lemma tokens_eq (h : Behind s u) : u.token = s.token ∧ u.pending = s.pending := by
  rcases h with rfl | h
  · exact ⟨rfl, rfl⟩
  · have haloof := aloof_skipGaps s s.token s.pending
    rw [withTokens_self, h, mapState, EStateM.Result.ok.injEq] at haloof
    rw [haloof.2]
    exact ⟨rfl, rfl⟩

/-- Both come to the same next token of the text. -/
lemma scan_eq (h : Behind s u) : scan u = scan s := by
  rcases h with rfl | h
  · rfl
  · rw [scan_of_ok h, scan_of_ok (skipGaps_idem h)]

/-- The gap stays the only difference when it is passed. -/
lemma skip (h : Behind s u) (hskip : skipGaps u = .ok () u') : Behind s u' := by
  rcases h with rfl | h
  · exact Or.inr hskip
  · rw [skipGaps_idem h] at hskip
    cases hskip
    exact Or.inr h

/-- It stays the only difference when both are given the same tokens. -/
lemma withTokens (h : Behind s u) (t : Token) (q : List Token) :
    Behind (s.withTokens t q) (u.withTokens t q) := by
  rcases h with rfl | h
  · exact Or.inl rfl
  · refine Or.inr ?_
    rw [aloof_skipGaps, h]
    rfl

/-- **One request** comes to the same, and the gap stays the only difference. -/
lemma run (h : Behind s u) (r : Request) :
    r.event u = r.event s ∧ Behind (r.call.run s) (r.call.run u) := by
  obtain ⟨htoken, hpending⟩ := h.tokens_eq
  cases r with
  | pushBack t =>
    have hpushed : u.pushBack t = u.withTokens s.token (s.pending ++ [t]) := by
      rw [← htoken, ← hpending]
      rfl
    refine ⟨rfl, ?_⟩
    rw [Request.call, Call.run, Call.run, hpushed]
    exact h.withTokens s.token (s.pending ++ [t])
  | clearPending =>
    have hcleared : u.clearPending = u.withTokens s.token [] := by
      rw [← htoken]
      rfl
    refine ⟨by rw [Request.event, Request.event, hpending], ?_⟩
    rw [Request.call, Call.run, Call.run, hcleared]
    exact h.withTokens s.token []
  | next =>
    cases hq : s.pending with
    | nil =>
      -- without a queue both go on from the end of the gap, and the difference is gone
      have hnext : next u = next s := by
        unfold next
        rw [hpending, hq, h.scan_eq]
      simp only [Request.event, hpending, hq, hnext, Request.call, Call.run, true_and]
      exact Or.inl rfl
    | cons t q =>
      simp only [Request.event, hpending, hq, Request.call, Call.run, next_of_pending hq,
        next_of_pending (hpending.trans hq)]
      exact ⟨rfl, h.withTokens t q⟩

end Behind

/-- **A whole course** comes to the same as the requests without the gaps, and at last
there is a gap between the two scanners at most. -/
theorem Course.behind {v : Scanner} (h : Course u rs es v) (hs : Behind s u) :
    es = s.history rs ∧ Behind (s.afterAll rs) v := by
  induction h generalizing s with
  | done u => exact ⟨rfl, hs⟩
  | skip hskip h ih => exact ih (hs.skip hskip)
  | request r h ih =>
    obtain ⟨hevent, hrun⟩ := hs.run r
    obtain ⟨hhistory, hlast⟩ := ih hrun
    exact ⟨by rw [history, hevent, hhistory], hlast⟩

/-- **Gaps that are passed early.**  Behind a gap there is the end of the text, or
neither a blank nor the opener of a comment, and there is nothing more to be passed.
And whatever is asked for, passing the gap at the cursor at any times changes nothing
of what comes of it, and the last scanner by no more than the gap at its cursor. -/
theorem skipGaps_unseen (s : Scanner) :
    (∀ s', skipGaps s = .ok () s' →
      (s'.cursor.atEnd ∨ ∃ x, s'.cursor.shown? = some x ∧ x ≠ ' ' ∧ x ≠ '\t'
        ∧ (x = '/' → s'.cursor.next? ≠ some '/' ∧ s'.cursor.next? ≠ some '*'))
        ∧ skipGaps s' = .ok () s')
      ∧ ∀ rs es u, Course s rs es u →
        es = s.history rs ∧ (u = s.afterAll rs ∨ skipGaps (s.afterAll rs) = .ok () u) := by
  refine ⟨fun s' h => ⟨?_, skipGaps_idem h⟩, fun rs es u h => h.behind (Or.inl rfl)⟩
  exact (Gap.ahead?_eq_none_iff s'.cursor).mp (ahead?_of_skipGaps h)

/-- A text that ends in an open comment, with a token in front of it that was given
back: the gap is passed at the queue, in front of the comment, and at the end. -/
theorem skipGaps_unseen_comment :
    let s := stateAfter (load " a /* b" new)
    let rs := [.pushBack (.integer 1 ⟨9, 9⟩), .next, .next, .next]
    ∃ es u, Course s rs es u
      ∧ es.flatMap (fun e => e.replays ++ e.scans) = [.ok (.integer 1 ⟨9, 9⟩),
        .ok (.identifier "a" ⟨1, 2⟩), .error ⟨.unterminatedComment, ⟨1, 7⟩⟩] := by
  intro s rs
  let s₁ := s.pushBack (.integer 1 ⟨9, 9⟩)
  let s₂ := stateAfter (skipGaps s₁)
  let s₃ := stateAfter (next (stateAfter (next s₂)))
  let s₄ := stateAfter (skipGaps s₃)
  have hqueue : skipGaps s₁ = .ok () s₂ := eq_ok_of_answer (by decide +kernel)
  have hcomment : skipGaps s₃ = .ok () s₄ := eq_ok_of_answer (by decide +kernel)
  have hend : skipGaps s₄ = .ok () s₄ := ((skipGaps_unseen s₃).1 s₄ hcomment).2
  have hcourse := Course.request (s := s) (.pushBack (.integer 1 ⟨9, 9⟩)) <| .skip hqueue <|
    .request .next <| .request .next <| .skip hcomment <| .skip hend <|
      .request .next (.done (stateAfter (next s₄)))
  refine ⟨_, _, hcourse, ?_⟩
  rw [((skipGaps_unseen s).2 rs _ _ hcourse).1]
  decide +kernel

end Scanner

end Lexis
