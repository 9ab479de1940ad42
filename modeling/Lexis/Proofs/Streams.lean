import Lexis.Proofs.Scan.Item

/-!
# Streams and lists of tokens

The tokens of a text may be taken one by one or had all at once: either way they are
the same, in the same order, and so is the fault that keeps some of them from being
had.  The stream does not bring the end of the text, and once it has come to its own
end nothing but a new text sets it going again.

* `Call.exhausted_run`, `Step.exhausted_run`: a stream at its end stays there;
* `Scanner.next?_afterSteps`: so it does through any number of steps;
* `Scanner.tokenize_eq_ok_iff_items`, `Scanner.tokenize_eq_error_iff_items`: the two
  ways to have the tokens of a text;
* `Scanner.stream_agrees`: all of it together.
-/

namespace Lexis

variable {ρ : Type} {text : String} {s : Scanner}

/-! ### The end of a stream -/

/-- No call sets a stream at its end going again. -/
theorem Call.exhausted_run (h : s.exhausted) (k : Call) : (k.run s).exhausted := by
  have hread {reader : Position → CursorM Token} (hreader : ∀ p, CursorM.Forward (reader p)) :
      (stateAfter (Scanner.readWith reader s)).exhausted :=
    (Scanner.steady_readWith hreader s).2.2.trans h
  cases k with
  | next => exact s.exhausted_next.trans h
  | item => rw [run, Scanner.next?_of_exhausted h]; exact h
  | skipGaps => exact (Scanner.steady_skipGaps s).2.2.trans h
  | readWord => exact hread Word.forward_read
  | readNumeral => exact hread Numeral.forward_read
  | readQuoted => exact hread Quoted.forward_read
  | readMark => exact hread Mark.forward_read
  | pushBack t => exact h
  | clearPending => exact h

/-- Nor does a file that brings no text. -/
lemma Step.exhausted_run {step : Step ρ} (hstep : step.text? = none) (h : s.exhausted) :
    (step.run s).exhausted := by
  cases step with
  | load text => simp [text?] at hstep
  | call k => exact k.exhausted_run h
  | loadFile contents =>
    cases contents with
    | ok text => simp [text?] at hstep
    | error failure => exact h

namespace Scanner

/-- **The end of a stream** is its end for good: once a call has brought none of its
tokens, no call brings anything or changes the scanner, until a new text comes. -/
theorem next?_afterSteps (h : ∀ t, s.next?.1 ≠ some (.ok t)) {steps : List (Step ρ)}
    (hsteps : ∀ step ∈ steps, step.text? = none) :
    (s.next?.2.afterSteps steps).next? = (none, s.next?.2.afterSteps steps) := by
  refine next?_of_exhausted (afterSteps_induction (P := fun u => u.exhausted) ?_ ?_)
  · exact exhausted_of_no_token h
  · intro step hmem u hu
    exact Step.exhausted_run (hsteps step hmem) hu

/-! ### One by one and all at once -/

/-- The last of all tokens of a text is its end. -/
lemma last_of_tokenize {ts : List Token} {t : Token} (h : tokenize text = .ok (ts ++ [t])) :
    t = .endOfText (.after text.toList) := by
  obtain ⟨-, us, -, hus⟩ := passes_of_tokenize h
  rw [Position.after_folded] at hus
  exact (List.append_inj' hus rfl).2 |> List.singleton_inj.mp

/-- **All tokens** of a text are the items of its stream and the end of the text. -/
theorem tokenize_eq_ok_iff_items (hload : load text .new = .ok () s) (us : List Token) :
    tokenize text = .ok us ↔ ∃ ts : List Token, s.drain.1 = ts.map .ok
      ∧ us = ts ++ [.endOfText (.after text.toList)] := by
  obtain ⟨ts, -, ⟨t, hends, htokens⟩ | ⟨f, hfails, herror⟩⟩ := exists_course text
  · obtain rfl := last_of_tokenize htokens
    rw [hends.items_eq hload, htokens, Except.ok.injEq]
    constructor
    · rintro rfl
      exact ⟨ts, rfl, rfl⟩
    · rintro ⟨ts', hts, rfl⟩
      rw [List.map_injective_iff.mpr (fun _ _ => Except.ok.inj) hts]
  · -- a fault is an item, and is no token
    rw [hfails.items_eq hload, herror]
    constructor
    · simp
    · rintro ⟨ts', hts, -⟩
      exact absurd hts.symm (map_ok_ne_append_error ts' ts f)

/-- **The fault** of a text is the last item of its stream, behind tokens. -/
theorem tokenize_eq_error_iff_items (hload : load text .new = .ok () s) (f : Fault) :
    tokenize text = .error f ↔ ∃ ts : List Token, s.drain.1 = ts.map .ok ++ [.error f] := by
  obtain ⟨ts, -, ⟨t, hends, htokens⟩ | ⟨f', hfails, herror⟩⟩ := exists_course text
  · rw [hends.items_eq hload, htokens]
    constructor
    · simp
    · rintro ⟨ts', hts⟩
      exact absurd hts (map_ok_ne_append_error ts ts' f)
  · rw [hfails.items_eq hload, herror, Except.error.injEq]
    constructor
    · rintro rfl
      exact ⟨ts, rfl⟩
    · rintro ⟨ts', hts⟩
      exact error_inj hts

/-- **Streams and lists of tokens.**  A text that cannot be taken up has that fault.
Otherwise its stream brings the items of a list and then nothing; these are its
tokens but for the end of the text, or the tokens up to its fault and the fault.  And
in every session a stream that has brought none of its tokens is at its end, until a
new text comes. -/
theorem stream_agrees (text : String) :
    (∀ f s, load text .new = .error f s → tokenize text = .error f)
      ∧ (∀ s, load text .new = .ok () s →
        (∀ i, s.itemAt i = s.drain.1[i]?)
          ∧ (∀ us, tokenize text = .ok us ↔ ∃ ts : List Token, s.drain.1 = ts.map .ok
            ∧ us = ts ++ [.endOfText (.after text.toList)])
          ∧ ∀ f, tokenize text = .error f ↔ ∃ ts : List Token,
            s.drain.1 = ts.map .ok ++ [.error f])
      ∧ ∀ s : Scanner, (∀ t, s.next?.1 ≠ some (.ok t)) →
        ∀ steps : List (Step ρ), (∀ step ∈ steps, step.text? = none) →
          let u := s.next?.2.afterSteps steps
          u.next? = (none, u) := by
  refine ⟨fun f s hload => ?_, fun s hload => ?_, fun s hs steps hsteps => ?_⟩
  · rw [tokenize, hload]
  · exact ⟨s.itemAt_eq, tokenize_eq_ok_iff_items hload, tokenize_eq_error_iff_items hload⟩
  · exact next?_afterSteps hs hsteps

/-- A text of one word, and its stream brought to its end by a token from
elsewhere. -/
theorem stream_agrees_word :
    let s := stateAfter (load "a" .new)
    let v := s.pushBack (.endOfText ⟨7, 7⟩)
    load "a" .new = .ok () s ∧ s.drain.1 = [.ok (.identifier "a" ⟨1, 1⟩)]
      ∧ (∀ t, v.next?.1 ≠ some (.ok t))
      ∧ let u := v.next?.2.afterSteps (ρ := Empty) [.call .skipGaps]
        u.next? = (none, u) ∧ u.cursor.shown? = some 'a' := by
  intro s v
  obtain ⟨-, hitems, hend⟩ := stream_agrees (ρ := Empty) "a"
  have hload : load "a" .new = .ok () s := rfl
  have hv : ∀ t, v.next?.1 ≠ some (.ok t) := by
    have hnone : v.next?.1 = none := rfl
    simp [hnone]
  obtain ⟨-, hall, -⟩ := hitems s hload
  obtain ⟨ts, hts, hus⟩ : ∃ ts : List Token, s.drain.1 = ts.map .ok
      ∧ [Token.identifier "a" ⟨1, 1⟩] ++ [.endOfText ⟨1, 1⟩]
        = ts ++ [.endOfText (.after ['a'])] := (hall _).mp (by decide +kernel)
  obtain ⟨rfl, -⟩ := List.append_inj' hus rfl
  exact ⟨hload, hts, hv, hend v hv _ (by simp [Step.text?]), by decide +kernel⟩

end Scanner

end Lexis
