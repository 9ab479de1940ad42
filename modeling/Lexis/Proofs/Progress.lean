import Lexis.Proofs.Scan.Frame
import Lexis.Proofs.Scan.Outcome
import Lexis.Proofs.Scan.Passage
import Mathlib.Logic.Function.Iterate

/-!
# Progress

A call for the next token leaves less of the text than there was, whether it yields
a token or ends in a fault, or the scanner is at rest: from then on every call comes
to the same result and leaves the scanner as it is.

* `Settles`, `Scanner.settles_scan`, `Scanner.settles_next`: what one call comes to;
* `Scanner.afterCalls`: the scanner after so many calls;
* `Scanner.exists_atRest`: after no more calls than there is text the scanner is at
  rest;
* `Scanner.exists_course`: all tokens of a text are had in no more calls than it has characters,
  and one more for its end;
* `Scanner.next_progress`: all of it together.
-/

namespace Lexis

open CursorM ScanM

variable {α : Type}

/-! ### Gaps -/

lemma passable_onCursor {x : CursorM α} (h : Passable x) : Passable (onCursor x) := by
  intro s
  have hs := h s.cursor
  unfold onCursor
  cases hr : x s.cursor with
  | ok a c => trivial
  | error f c =>
    rw [hr] at hs
    exact hs

/-- A piece of a gap meets with no lasting fault. -/
lemma Gap.passable_skip (gap : Gap) : Passable gap.skip := by
  have hopener : Passable (onCursor passOpener) :=
    passable_onCursor (passable_advance.bind fun _ => passable_advance)
  cases gap with
  | blank => exact passable_onCursor passable_advance
  | lineComment => exact hopener.bind fun _ => passable_onCursor (passable_foldWhile _ _)
  | blockComment =>
    have hbody : Passable passBlock := by
      refine (passable_foldShown _ _).bind fun _ => passable_look.bind fun shown => ?_
      cases shown with
      | none => exact passable_pure _
      | some x => exact passable_advance.bind fun _ => passable_pure _
    have hnote (b : Bool) : Passable (setInComment b) := fun _ => trivial
    refine hopener.bind fun _ => (hnote true).bind fun _ => ?_
    exact (passable_onCursor hbody).bind fun _ => .ite (hnote false) (passable_pure _)

namespace Scanner

/-- A scanner comes to the end of a gap, or ends on the way in a fault that does not
last. -/
lemma skipGaps_or (s : Scanner) :
    (∃ s', skipGaps s = .ok () s' ∧ Gap.ahead? s'.cursor = none)
      ∨ ∃ f s', skipGaps s = .error f s' ∧ f.cause.lasts = false
        ∧ s'.cursor.remaining < s.cursor.remaining := by
  fun_induction skipGaps s with
  | case1 s hgap => exact Or.inl ⟨s, rfl, hgap⟩
  | case2 s gap hgap f s' hr =>
    have hlasts := gap.passable_skip s
    have hlt := Gap.skip_lt hgap
    rw [hr] at hlasts hlt
    exact Or.inr ⟨f, s', rfl, hlasts, hlt⟩
  | case3 s gap hgap u s' hr ih =>
    have hlt := Gap.skip_lt hgap
    rw [hr] at hlt
    rcases ih with hend | ⟨f, s'', hr', hlasts, hlt'⟩
    · exact Or.inl hend
    · exact Or.inr ⟨f, s'', hr', hlasts, hlt'.trans hlt⟩

end Scanner

/-! ### One call -/

/-- From this scanner on a call leaves less of the text than there was, or it is at
rest, and then the next call comes to the same. -/
def Settles (x : ScanM Token) (s : Scanner) : Prop :=
  (¬AtRest (x s) ∧ (stateAfter (x s)).cursor.remaining < s.cursor.remaining)
    ∨ AtRest (x s) ∧ x (stateAfter (x s)) = x s

namespace Scanner

variable {s s' : Scanner} {t : Token}

lemma atRest_onCursor (x : CursorM Token) (s : Scanner) :
    AtRest (onCursor x s) ↔ AtRest (x s.cursor) := by
  unfold onCursor
  cases x s.cursor <;> rfl

/-- The token at the cursor takes some of the text, or nothing happens to the
scanner. -/
lemma scanHere_or (start : Position) (s : Scanner) :
    (¬AtRest (scanHere start s)
        ∧ (stateAfter (scanHere start s)).cursor.remaining < s.cursor.remaining)
      ∨ AtRest (scanHere start s) ∧ stateAfter (scanHere start s) = s := by
  cases hx : s.cursor.shown? with
  | none =>
    rw [scanHere_of_ended hx]
    refine Or.inr ?_
    split <;> exact ⟨rfl, rfl⟩
  | some x =>
    rw [scanHere_of_shown hx, atRest_onCursor, cursor_onCursor]
    rcases readLexeme_or hx start with ⟨hlt, hrest⟩ | hnothing
    · exact Or.inl ⟨hrest, hlt⟩
    · rw [onCursor, hnothing]
      exact Or.inr ⟨rfl, rfl⟩

/-- What one scan of the text comes to. -/
theorem settles_scan (s : Scanner) : Settles scan s := by
  unfold Settles
  rcases s.skipGaps_or with ⟨s₁, hr, hgap⟩ | ⟨f, s₁, hr, hlasts, hlt⟩
  · have hle : s₁.cursor.remaining ≤ s.cursor.remaining := by
      have h := (steady_skipGaps s).1.remaining_le
      rwa [hr] at h
    rw [scan_of_ok hr]
    rcases scanHere_or s₁.cursor.position { s₁ with tokenStart := s₁.cursor.position } with
      ⟨hrest, hlt⟩ | ⟨hrest, hsame⟩
    · exact Or.inl ⟨hrest, hlt.trans_le hle⟩
    · -- behind the gap a scan starts from where it was
      have hagain : skipGaps { s₁ with tokenStart := s₁.cursor.position } = .ok () _ :=
        skipGaps_of_none hgap
      have hscan := scan_of_ok hagain
      refine Or.inr ⟨hrest, ?_⟩
      rw [hsame]
      exact hscan
  · rw [scan_of_error hr]
    exact Or.inl ⟨by simpa [AtRest] using hlasts, hlt⟩

lemma pending_scan (hp : s.pending = []) : (stateAfter (scan s)).pending = [] :=
  (steady_scan s).2.1.trans hp

/-- A token of the text becomes the current one. -/
lemma next_of_scan (hp : s.pending = []) (h : scan s = .ok t s') :
    next s = .ok t (s'.withTokens t []) := by
  have hp' := pending_scan hp
  rw [h] at hp'
  rw [next_of_scan_ok hp h, withTokens, ← hp']
  rfl

/-- **What one call comes to**, if no token was given back. -/
theorem settles_next (hp : s.pending = []) : Settles next s := by
  have hp' := pending_scan hp
  have h := settles_scan s
  unfold Settles at h ⊢
  cases hr : scan s with
  | error f s' =>
    rw [next_of_scan_error hp hr]
    rw [hr] at h hp'
    exact h.imp_right fun ⟨hrest, hsame⟩ => ⟨hrest, next_of_scan_error hp' hsame⟩
  | ok t s' =>
    rw [next_of_scan hp hr]
    rw [hr] at h
    refine h.imp_right fun ⟨hrest, hsame⟩ => ⟨hrest, ?_⟩
    -- the scan is the same whichever the current token is
    have hscan : scan (s'.withTokens t []) = .ok t (s'.withTokens t []) := by
      rw [aloof_scan, show scan s' = .ok t s' from hsame]
      rfl
    have hnext : next (s'.withTokens t []) = .ok t ((s'.withTokens t []).withTokens t []) :=
      next_of_scan rfl hscan
    exact hnext

/-- A call that does not find the scanner at rest leaves less of the text. -/
lemma remaining_next_lt (hp : s.pending = []) (h : ¬AtRest (next s)) :
    (stateAfter (next s)).cursor.remaining < s.cursor.remaining := by
  rcases settles_next hp with ⟨-, hlt⟩ | ⟨hrest, -⟩
  · exact hlt
  · exact absurd hrest h

/-- No token is given back by a call. -/
lemma pending_next (hp : s.pending = []) : (stateAfter (next s)).pending = [] := by
  have hp' := pending_scan hp
  cases hr : scan s with
  | error f s' =>
    rw [hr] at hp'
    rw [next_of_scan_error hp hr]
    exact hp'
  | ok t s' =>
    rw [next_of_scan hp hr]
    rfl

/-! ### Call after call -/

/-- The scanner after so many calls for the next token, whatever they come to. -/
def afterCalls (s : Scanner) (n : Nat) : Scanner := (fun s => stateAfter (next s))^[n] s

lemma afterCalls_succ (s : Scanner) (n : Nat) :
    s.afterCalls (n + 1) = stateAfter (next (s.afterCalls n)) :=
  Function.iterate_succ_apply' _ n s

lemma afterCalls_add (s : Scanner) (m n : Nat) :
    s.afterCalls (m + n) = (s.afterCalls m).afterCalls n := by
  rw [afterCalls, Nat.add_comm, Function.iterate_add_apply]
  rfl

lemma pending_afterCalls (hp : s.pending = []) (n : Nat) : (s.afterCalls n).pending = [] := by
  induction n with
  | zero => exact hp
  | succ n ih =>
    rw [afterCalls_succ]
    exact pending_next ih

/-- **A scanner at rest** stays there. -/
theorem next_afterCalls_of_atRest (hp : s.pending = []) (h : AtRest (next s)) (n : Nat) :
    next (s.afterCalls (n + 1)) = next s ∧ s.afterCalls (n + 1) = s.afterCalls 1 := by
  have hsame : next (stateAfter (next s)) = next s := by
    rcases settles_next hp with ⟨hrest, -⟩ | ⟨-, hsame⟩
    · exact absurd h hrest
    · exact hsame
  induction n with
  | zero => exact ⟨hsame, rfl⟩
  | succ n ih =>
    obtain ⟨hnext, hstate⟩ := ih
    have hstep : s.afterCalls (n + 1 + 1) = s.afterCalls 1 := by
      rw [afterCalls_succ, hnext]
      rfl
    exact ⟨by rw [hstep]; exact hsame, hstep⟩

/-- After no more calls than there is text the scanner is at rest. -/
theorem exists_atRest (hp : s.pending = []) :
    ∃ k ≤ s.cursor.remaining, (∀ i < k, ¬AtRest (next (s.afterCalls i)))
      ∧ AtRest (next (s.afterCalls k)) := by
  induction hm : s.cursor.remaining using Nat.strong_induction_on generalizing s with
  | _ m ih =>
    subst hm
    rcases settles_next hp with ⟨hrest, hlt⟩ | ⟨hrest, -⟩
    · obtain ⟨k, hk, hbefore, hthen⟩ := ih _ hlt (pending_next hp) rfl
      have hshift (i : Nat) : s.afterCalls (i + 1) = (stateAfter (next s)).afterCalls i := rfl
      refine ⟨k + 1, by omega, fun i hi => ?_, by rwa [hshift]⟩
      cases i with
      | zero => exact hrest
      | succ i =>
        rw [hshift]
        exact hbefore i (by omega)
    · exact ⟨0, Nat.zero_le _, by simp, hrest⟩

/-- The tokens that the scanner hands out are no more than there is text. -/
theorem exists_hands (hp : s.pending = []) :
    ∃ ts s', Hands s ts s' ∧ ts.length ≤ s.cursor.remaining
      ∧ ∀ t s'', next s' = .ok t s'' → t.kind = .endOfText := by
  induction hm : s.cursor.remaining using Nat.strong_induction_on generalizing s with
  | _ m ih =>
    subst hm
    by_cases hlexeme : ∃ t s₁, next s = .ok t s₁ ∧ t.kind ≠ .endOfText
    · obtain ⟨t, s₁, hr, ht⟩ := hlexeme
      have hp₁ := pending_next hp
      have hlt := remaining_next_lt hp (by rw [hr]; exact ht)
      rw [hr] at hp₁ hlt
      obtain ⟨ts, s', hands, hle, hend⟩ := ih _ hlt hp₁ rfl
      refine ⟨t :: ts, s', .cons hr ht hands, ?_, hend⟩
      rw [List.length_cons]
      omega
    · push Not at hlexeme
      exact ⟨[], s, .nil, Nat.zero_le _, hlexeme⟩

/-! ### All tokens of a text -/

/-- In a new text the window can move no further than the text is long. -/
lemma remaining_load_le {text : String} (h : load text s = .ok () s') :
    s'.cursor.remaining ≤ text.length := by
  have hlt : (stateAfter (CursorM.load text.toList .empty)).remaining < text.length + 1 := by
    rw [← String.length_toList]
    exact advance_lt (c := .before text.toList) (g := .char Cursor.endMark) rfl
  have hcursor : (stateAfter (load text s)).cursor
      = stateAfter (CursorM.load text.toList .empty) := cursor_onCursor _ _
  rw [h] at hcursor
  rw [show s'.cursor = _ from hcursor]
  omega

/-- A new text changes nothing of what was given back. -/
lemma pending_of_load {text : String} (h : load text s = .ok () s') : s'.pending = s.pending := by
  have hkept : (stateAfter (load text s)).pending = s.pending := by
    unfold load onCursor
    split <;> rfl
  rwa [h] at hkept

/-- The scanner of the text hands out these tokens and then the end of the text. -/
def EndsAfter (text : String) (ts : List Token) (t : Token) : Prop :=
  ∃ s₀ s₁ s₂, load text .new = .ok () s₀ ∧ Hands s₀ ts s₁ ∧ next s₁ = .ok t s₂
    ∧ t.kind = .endOfText

/-- **All tokens of a text** are had in no more calls than it has characters and one
more, in which it ends or a fault is met. -/
theorem exists_course (text : String) :
    ∃ ts, ts.length ≤ text.length
      ∧ ((∃ t, EndsAfter text ts t ∧ tokenize text = .ok (ts ++ [t]))
        ∨ ∃ f, FailsAfter text ts f ∧ tokenize text = .error f) := by
  cases hload : load text .new with
  | error f s =>
    have hfails : FailsAfter text [] f := Or.inl ⟨rfl, s, hload⟩
    exact ⟨[], Nat.zero_le _, Or.inr ⟨f, hfails, hfails.tokenize_eq⟩⟩
  | ok u s₀ =>
    have hp : s₀.pending = [] := pending_of_load hload
    obtain ⟨ts, s₁, hands, hlength, hend⟩ := exists_hands hp
    refine ⟨ts, hlength.trans (remaining_load_le hload), ?_⟩
    cases hr : next s₁ with
    | ok t s₂ =>
      have ht := hend t s₂ hr
      refine Or.inl ⟨t, ⟨s₀, s₁, s₂, hload, hands, hr, ht⟩, ?_⟩
      simp only [tokenize, hload]
      rw [hands.tokens_eq, tokens_of_end hr ht]
      rfl
    | error f s₂ =>
      have hfails : FailsAfter text ts f := Or.inr ⟨s₀, s₁, s₂, hload, hands, hr⟩
      exact Or.inr ⟨f, hfails, hfails.tokenize_eq⟩

/-- **Progress.**  A call leaves less of the text than there was, or the scanner is at
rest: then every further call comes to the same result and leaves the scanner as it
is.  After no more calls than there is text it is at rest, and all tokens of a text
are no more than its characters and one more for its end. -/
theorem next_progress (hp : s.pending = []) :
    (¬AtRest (next s) → (stateAfter (next s)).cursor.remaining < s.cursor.remaining)
      ∧ (AtRest (next s) → ∀ n,
        next (s.afterCalls (n + 1)) = next s ∧ s.afterCalls (n + 1) = s.afterCalls 1)
      ∧ (∃ k ≤ s.cursor.remaining, (∀ i < k, ¬AtRest (next (s.afterCalls i)))
        ∧ ∀ i, k ≤ i → AtRest (next (s.afterCalls i))
          ∧ next (s.afterCalls i) = next (s.afterCalls k))
      ∧ ∀ text : String, ∃ ts, ts.length ≤ text.length
        ∧ ((∃ t, EndsAfter text ts t ∧ tokenize text = .ok (ts ++ [t]))
          ∨ ∃ f, FailsAfter text ts f ∧ tokenize text = .error f) := by
  refine ⟨remaining_next_lt hp, next_afterCalls_of_atRest hp, ?_, exists_course⟩
  obtain ⟨k, hk, hbefore, hrest⟩ := exists_atRest hp
  refine ⟨k, hk, hbefore, fun i hi => ?_⟩
  obtain ⟨n, rfl⟩ := Nat.exists_eq_add_of_le hi
  have hsame : next (s.afterCalls (k + n)) = next (s.afterCalls k) := by
    rw [afterCalls_add]
    cases n with
    | zero => rfl
    | succ n => exact (next_afterCalls_of_atRest (pending_afterCalls hp k) hrest n).1
  exact ⟨hsame ▸ hrest, hsame⟩

/-- A character that begins nothing is met again and again. -/
theorem next_progress_dollar :
    let s : Scanner := { cursor := ⟨.shows (.char '$') [], .start⟩ }
    s.pending = [] ∧ ∀ n, next (s.afterCalls (n + 1))
      = .error ⟨.unrecognizedCharacter '$', .start⟩ s := by
  intro s
  have hr : next s = .error ⟨.unrecognizedCharacter '$', .start⟩ s :=
    next_of_scan_error rfl (scan_of_ok (skipGaps_of_none rfl))
  have hrest : AtRest (next s) := by
    rw [hr]
    rfl
  obtain ⟨-, hstays, -⟩ := next_progress (s := s) rfl
  exact ⟨rfl, fun n => (hstays hrest n).1.trans hr⟩

end Scanner

end Lexis
