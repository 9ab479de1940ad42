import Lexis.Proofs.Scan.Token
import Lexis.Scanner.Stream

/-!
# Passages

From the start of a text on, gaps and lexemes take turns up to the end of the
text or up to its first fault, and the scanner hands out the tokens that the
lexemes amount to.

* `Passes`: a text of gaps and lexemes in front of what follows it, and its
  tokens;
* `exists_passage`: every text is such a text up to its end or up to a fault;
* `Faulty.unique`: a text begins with one fault at most;
* `Hands`: one token after the other is handed out;
* `tokenize_of_passes`, `tokenize_of_faulty`: all tokens of a text, or its first
  fault;
* `passes_of_tokenize`, `faulty_of_tokenize`: there is no other way to have
  either.
-/

namespace Lexis

variable {l v g u r w : List Char} {token : Position → Token} {o : Position} {f : Fault}
  {ts : List Token}

/-! ### Gaps and lexemes in turn -/

/-- From the place `o` on and in front of the text `r`, the text `u` consists of
gaps and lexemes in turn, which amount to the tokens `ts`.  The end of every
lexeme is seen: no stray carriage return follows it. -/
inductive Passes : Position → List Char → List Char → List Token → Prop
  /-- A gap, which may be empty. -/
  | gap {o : Position} {g r : List Char} (hg : Gaps g r) : Passes o g r []
  /-- A gap, a lexeme, and what comes then. -/
  | token {o : Position} {g l u r : List Char} {token : Position → Token} {ts : List Token}
      (hg : Gaps g (l ++ (u ++ r))) (hl : Lexeme l (u ++ r) token)
      (hv : (u ++ r).head? ≠ some '\r') (h : Passes ((o.through g).through l) u r ts) :
    Passes o (g ++ (l ++ u)) r (token ((o.through g).right 1) :: ts)

/-- A lexeme in front. -/
lemma Passes.of_lexeme (hl : Lexeme l (u ++ r) token) (hv : (u ++ r).head? ≠ some '\r')
    (h : Passes (o.through l) u r ts) : Passes o (l ++ u) r (token (o.right 1) :: ts) :=
  .token (g := []) .nil hl hv h

/-- A gap in front. -/
lemma Passes.of_gaps (hg : Gaps g (u ++ r)) (h : Passes (o.through g) u r ts) :
    Passes o (g ++ u) r ts := by
  cases h with
  | gap hg' => exact .gap (hg.append hg')
  | @token _ g' l u _ token ts hg' hl hv h =>
    have hgap : Gaps (g ++ g') (l ++ (u ++ r)) := .append (by simpa using hg) hg'
    have hplace : (o.through g).through g' = o.through (g ++ g') :=
      (Position.through_append o g g').symm
    rw [hplace] at h ⊢
    rw [← List.append_assoc]
    exact .token hgap hl hv h

/-- A comment that a stray carriage return stands in is a fault. -/
lemma Gap.Piece.faulty {gap : Gap} (h : gap.Piece l v) (hstray : '\r' ∈ l) :
    ∃ f, Faulty o (l ++ v) f := by
  cases h with
  | blank hc => rcases hc with rfl | rfl | rfl <;> simp at hstray
  | @lineComment body v hbody =>
    have hmem : '\r' ∈ body := by simpa using hstray
    obtain ⟨a, b, rfl, ha⟩ := List.eq_append_cons_of_mem hmem
    have hcomment : Interrupted ('/' :: '/' :: a) := .lineComment fun h => hbody (by simp [h])
    have hfault := Faulty.malformedLineEnding (o := o) (v := b ++ v) hcomment (by simpa using ha)
    exact ⟨_, by simpa using hfault⟩
  | @blockComment body v hbody =>
    have hmem : '\r' ∈ body := by simpa using hstray
    obtain ⟨a, b, rfl, ha⟩ := List.eq_append_cons_of_mem hmem
    have hcomment : Interrupted ('/' :: '*' :: a) := .blockComment hbody.of_append
    have hfault := Faulty.malformedLineEnding (o := o) (v := b ++ '*' :: '/' :: v) hcomment
      (by simpa using ha)
    exact ⟨_, by simpa using hfault⟩

/-- A block comment that is not closed is a fault. -/
lemma Gap.Unclosed.faulty {body : List Char} (h : Gap.Unclosed body) :
    ∃ f, Faulty o ('/' :: '*' :: body) f := by
  by_cases hstray : '\r' ∈ body
  · obtain ⟨a, b, rfl, ha⟩ := List.eq_append_cons_of_mem hstray
    exact ⟨_, .malformedLineEnding (.blockComment h.of_append) (by simpa using ha)⟩
  · exact ⟨_, .unterminatedComment h hstray⟩

/-- The text is at its end, or begins with a fault. -/
def Stops (o : Position) (r : List Char) : Prop := r = [] ∨ ∃ f, Faulty o r f

/-- **Passages.**  Every text consists of gaps and lexemes up to its end or up to
a fault. -/
theorem exists_passage (o : Position) (w : List Char) :
    ∃ u r ts, w = u ++ r ∧ '\r' ∉ u ∧ Passes o u r ts ∧ Stops (o.through u) r := by
  induction hn : w.length using Nat.strong_induction_on generalizing w o with
  | _ n ih =>
    subst hn
    have hstop : Stops o w →
        ∃ u r ts, w = u ++ r ∧ '\r' ∉ u ∧ Passes o u r ts ∧ Stops (o.through u) r :=
      fun h => ⟨[], w, [], rfl, by simp, .gap .nil, h⟩
    by_cases hne : w = []
    · exact hstop (Or.inl hne)
    cases hgap : Gap.opener? w with
    | some gap =>
      rcases Gap.exists_piece_or hgap with ⟨l, v, rfl, hl⟩ | ⟨-, body, rfl, hbody⟩
      · by_cases hclean : '\r' ∈ l
        · exact hstop (Or.inr (hl.faulty hclean))
        · have hlt : v.length < (l ++ v).length := by
            simpa using List.length_pos_iff.mpr hl.ne_nil
          obtain ⟨u, r, ts, rfl, hu, hpass, hend⟩ := ih v.length hlt (o.through l) v rfl
          have hpass' := hpass.of_gaps (.of_piece hl)
          refine ⟨l ++ u, r, ts, by simp, by simp [hclean, hu], hpass', ?_⟩
          rwa [Position.through_append]
      · exact hstop (Or.inr hbody.faulty)
    | none =>
      have hsettled : Settled o w := settled_of_opener? hne hgap
      rcases hsettled with ⟨l, v, token, rfl, hl, hclean, hv⟩ | hfault
      · have hlt : v.length < (l ++ v).length := by
          simpa using List.length_pos_iff.mpr hl.ne_nil
        obtain ⟨u, r, ts, rfl, hu, hpass, hend⟩ := ih v.length hlt (o.through l) v rfl
        have hpass' := hpass.of_lexeme hl hv
        refine ⟨l ++ u, r, token (o.right 1) :: ts, by simp, by simp [hclean, hu], hpass', ?_⟩
        rwa [Position.through_append]
      · exact hstop (Or.inr hfault)

/-! ### A text has one fault -/

/-- The scanner is before a text, behind all tokens that were given back and
outside of comments. -/
structure Scanner.ReadyAt (s : Scanner) (o : Position) (w : List Char) : Prop where
  pending : s.pending = []
  inComment : s.inComment = false
  cursor : s.cursor.At o w

/-- There is a scanner before every text that no stray carriage return begins. -/
lemma Scanner.exists_readyAt (o : Position) (hw : w.head? ≠ some '\r') :
    ∃ s : Scanner, s.ReadyAt o w := by
  cases w with
  | nil => exact ⟨{ cursor := ⟨.ended, o⟩ }, rfl, rfl, .ended o⟩
  | cons x v =>
    obtain ⟨rest, rfl, -⟩ := exists_folded_eq v
    have hx : x ≠ '\r' := by simpa using hw
    exact ⟨{ cursor := ⟨.shows (.ofChar x) rest, o.past x⟩ }, rfl, rfl, .shows o x rest hx⟩

/-- **A text begins with one fault** at most, for the scanner ends in it. -/
theorem Faulty.unique {f' : Fault} (h : Faulty o r f) (h' : Faulty o r f') : f = f' := by
  -- a blank in front of the text brings it before a scanner whatever it begins with
  obtain ⟨o', ho⟩ : ∃ o' : Position, o'.through [' '] = o := by
    refine ⟨⟨o.line, o.column - 1⟩, ?_⟩
    rw [Position.through_cons, Position.through_nil, Position.past_of_ne (by decide),
      Position.right, UInt32.sub_add_cancel]
  subst ho
  obtain ⟨s, hs⟩ := Scanner.exists_readyAt (w := [' '] ++ r) o' (by simp)
  have hblank : Gaps [' '] r := .of_piece (.blank (Or.inl rfl))
  obtain ⟨s₁, h₁⟩ := Scanner.scan_faulty hs.inComment hs.cursor hblank (by decide) h
  obtain ⟨s₂, h₂⟩ := Scanner.scan_faulty hs.inComment hs.cursor hblank (by decide) h'
  rw [h₁] at h₂
  cases h₂
  rfl

namespace Scanner

variable {s s' : Scanner} {t : Token}

/-! ### One token after the other -/

/-- The scanner hands out these tokens one after the other, and none of them is
the end of the text. -/
inductive Hands : Scanner → List Token → Scanner → Prop
  | nil {s : Scanner} : Hands s [] s
  | cons {s s₁ s₂ : Scanner} {t : Token} {ts : List Token} (h : next s = .ok t s₁)
      (ht : t.kind ≠ .endOfText) (hs : Hands s₁ ts s₂) : Hands s (t :: ts) s₂

lemma next_of_scan_ok (hp : s.pending = []) (h : scan s = .ok t s') :
    next s = .ok t { s' with token := t } := by
  simp only [next, hp, h]

lemma next_of_scan_error (hp : s.pending = []) (h : scan s = .error f s') :
    next s = .error f s' := by
  simp only [next, hp, h]

/-- A lexeme is handed out as its token. -/
lemma ReadyAt.next_lexeme (h : s.ReadyAt o (g ++ (l ++ v))) (hg : Gaps g (l ++ v))
    (hl : Lexeme l v token) (hclean : '\r' ∉ g ++ l) (hv : v.head? ≠ some '\r') :
    ∃ s', next s = .ok (token ((o.through g).right 1)) s'
      ∧ s'.ReadyAt ((o.through g).through l) v := by
  obtain ⟨c, hat, hr⟩ := scan_lexeme h.inComment h.cursor hg hl hclean hv
  exact ⟨_, next_of_scan_ok h.pending hr, h.pending, h.inComment, hat⟩

/-- The tokens of a passage are handed out one after the other, up to its last
gap. -/
theorem ReadyAt.hands (h : Passes o u r ts) (hs : s.ReadyAt o (u ++ r)) (hclean : '\r' ∉ u) :
    ∃ s' o' g, Hands s ts s' ∧ s'.ReadyAt o' (g ++ r) ∧ Gaps g r ∧ '\r' ∉ g
      ∧ o'.through g = o.through u := by
  induction h generalizing s with
  | @gap o g r hg => exact ⟨s, o, g, .nil, hs, hg, hclean, rfl⟩
  | @token o g l u r token ts hg hl hv h ih =>
    have hgl : '\r' ∉ g ++ l := fun hmem => hclean (by simpa [or_assoc] using Or.inl hmem)
    have hu : '\r' ∉ u := fun hmem => hclean (by simp [hmem])
    obtain ⟨s₁, hr, hs₁⟩ := ReadyAt.next_lexeme (by simpa using hs) hg hl hgl hv
    obtain ⟨s₂, o', g', hands, hs₂, hg', hclean', hplace⟩ := ih hs₁ hu
    refine ⟨s₂, o', g', .cons hr (hl.kind_ne _) hands, hs₂, hg', hclean', ?_⟩
    rw [hplace, Position.through_append, Position.through_append]

/-! ### All tokens -/

lemma tokens_of_error (h : next s = .error f s') : tokens s = .error f := by
  rw [tokens]
  split <;> simp_all

lemma tokens_of_end (h : next s = .ok t s') (ht : t.kind = .endOfText) : tokens s = .ok [t] := by
  rw [tokens]
  split <;> simp_all

lemma tokens_of_ok (h : next s = .ok t s') (ht : t.kind ≠ .endOfText) :
    tokens s = (tokens s').map (t :: ·) := by
  rw [tokens]
  split <;> simp_all

/-- The tokens that were handed out come before all others. -/
lemma Hands.tokens_eq (h : Hands s ts s') : tokens s = (tokens s').map (ts ++ ·) := by
  induction h with
  | @nil s => cases tokens s <;> rfl
  | @cons s s₁ s₂ t ts hr ht hs ih =>
    rw [tokens_of_ok hr ht, ih]
    cases tokens s₂ <;> rfl

/-- The end of the text behind the tokens of a passage. -/
theorem ReadyAt.hands_end (hs : s.ReadyAt o u) (h : Passes o u [] ts) (hclean : '\r' ∉ u) :
    ∃ s₁ s₂, Hands s ts s₁ ∧ next s₁ = .ok (.endOfText (o.through u)) s₂ := by
  obtain ⟨s₁, o', g, hands, hs₁, hg, hg', hplace⟩ := ReadyAt.hands h (by simpa using hs) hclean
  obtain ⟨c, -, hr⟩ := scan_end hs₁.inComment (by simpa using hs₁.cursor) hg hg'
  rw [hplace] at hr
  exact ⟨s₁, _, hands, next_of_scan_ok hs₁.pending hr⟩

/-- All tokens of a text that is passed as a whole. -/
theorem ReadyAt.tokens_of_passes (hs : s.ReadyAt o u) (h : Passes o u [] ts) (hclean : '\r' ∉ u) :
    tokens s = .ok (ts ++ [.endOfText (o.through u)]) := by
  obtain ⟨s₁, s₂, hands, hr⟩ := hs.hands_end h hclean
  rw [hands.tokens_eq, tokens_of_end hr rfl]
  rfl

/-- The fault behind the tokens of a passage. -/
theorem ReadyAt.hands_faulty (hs : s.ReadyAt o (u ++ r)) (h : Passes o u r ts) (hclean : '\r' ∉ u)
    (hf : Faulty (o.through u) r f) : ∃ s₁ s₂, Hands s ts s₁ ∧ next s₁ = .error f s₂ := by
  obtain ⟨s₁, o', g, hands, hs₁, hg, hg', hplace⟩ := ReadyAt.hands h hs hclean
  rw [← hplace] at hf
  obtain ⟨s₂, hr⟩ := scan_faulty hs₁.inComment hs₁.cursor hg hg' hf
  exact ⟨s₁, s₂, hands, next_of_scan_error hs₁.pending hr⟩

/-! ### All tokens of a text -/

/-- A new text is before the scanner, unless a stray carriage return begins it. -/
lemma load_new (text : String) :
    (∀ v, folded text.toList = '\r' :: v →
        ∃ s, load text .new = .error ⟨.malformedLineEnding, Position.start.right (strayWidth v)⟩ s)
      ∧ ((folded text.toList).head? ≠ some '\r' →
        ∃ s, load text .new = .ok () s ∧ s.ReadyAt .start (folded text.toList)) := by
  have hload := load_meets text.toList Cursor.empty
  constructor
  · intro v hv
    obtain ⟨c, hr⟩ := hload.stray v hv
    exact ⟨{ cursor := c }, by rw [load, ScanM.onCursor]; exact hr ▸ rfl⟩
  · intro hclear
    obtain ⟨c, hat, hr⟩ := hload.here hclear
    exact ⟨{ cursor := c }, by rw [load, ScanM.onCursor]; exact hr ▸ rfl, rfl, rfl, hat⟩

/-- The scanner of the text hands out these tokens and then ends in the fault,
which may be met before a first token can be asked for. -/
def FailsAfter (text : String) (ts : List Token) (f : Fault) : Prop :=
  (ts = [] ∧ ∃ s, load text .new = .error f s)
    ∨ ∃ s₀ s₁ s₂, load text .new = .ok () s₀ ∧ Hands s₀ ts s₁ ∧ next s₁ = .error f s₂

lemma FailsAfter.tokenize_eq {text : String} (h : FailsAfter text ts f) :
    tokenize text = .error f := by
  rcases h with ⟨-, s, hload⟩ | ⟨s₀, s₁, s₂, hload, hands, hr⟩
  · rw [tokenize, hload]
  · simp only [tokenize, hload]
    rw [hands.tokens_eq, tokens_of_error hr]
    rfl

/-- Behind the tokens of its passage a text fails with the fault that begins
there. -/
theorem failsAfter_of_faulty {text : String} (hw : folded text.toList = u ++ r)
    (hclean : '\r' ∉ u) (h : Passes .start u r ts) (hf : Faulty (Position.start.through u) r f) :
    FailsAfter text ts f := by
  obtain ⟨hstray, hclear⟩ := load_new text
  rw [hw] at hstray hclear
  rcases strayFirst_or (u ++ r) with ⟨v, hv⟩ | hhead
  · obtain ⟨s, hload⟩ := hstray v hv
    obtain rfl : u = [] := eq_nil_of_strayFirst hclean hv
    obtain rfl : r = '\r' :: v := hv
    have hts : ts = [] := by
      generalize hu : ([] : List Char) = u at h
      cases h with
      | gap => rfl
      | token _ hl =>
        simp only [List.nil_eq, List.append_eq_nil_iff] at hu
        exact absurd hu.2.1 hl.ne_nil
    have hf' : Faulty (Position.start.through []) ('\r' :: v) _ :=
      .malformedLineEnding (u := []) .nothing (by simp)
    rw [hf.unique hf']
    exact Or.inl ⟨hts, s, hload⟩
  · obtain ⟨s₀, hload, hs⟩ := hclear hhead
    obtain ⟨s₁, s₂, hands, hr⟩ := ReadyAt.hands_faulty hs h hclean hf
    exact Or.inr ⟨s₀, s₁, s₂, hload, hands, hr⟩

end Scanner

/-- All tokens of a text that is a passage as a whole. -/
theorem tokenize_of_passes {text : String} (hclean : '\r' ∉ folded text.toList)
    (h : Passes .start (folded text.toList) [] ts) :
    tokenize text = .ok (ts ++ [.endOfText (.after (folded text.toList))]) := by
  obtain ⟨-, hclear⟩ := Scanner.load_new text
  obtain ⟨s₀, hload, hs⟩ := hclear fun hhead => hclean (List.mem_of_mem_head? hhead)
  simp only [tokenize, hload]
  rw [hs.tokens_of_passes h hclean, Position.through_start]

/-- A text of one lexeme has one token. -/
theorem tokenize_of_lexeme {text : String} (hclean : '\r' ∉ folded text.toList)
    (h : Lexeme (folded text.toList) [] token) :
    tokenize text
      = .ok ([token (Position.start.right 1)] ++ [.endOfText (.after (folded text.toList))]) := by
  refine tokenize_of_passes hclean ?_
  rw [← List.append_nil (folded text.toList)]
  exact .of_lexeme h (by simp) (.gap .nil)

/-- The fault of a text that is a passage up to it. -/
theorem tokenize_of_faulty {text : String} (hw : folded text.toList = u ++ r)
    (hclean : '\r' ∉ u) (h : Passes .start u r ts) (hf : Faulty (Position.start.through u) r f) :
    tokenize text = .error f :=
  (Scanner.failsAfter_of_faulty hw hclean h hf).tokenize_eq

/-- A text that has tokens is a passage as a whole. -/
theorem passes_of_tokenize {text : String} (h : tokenize text = .ok ts) :
    '\r' ∉ folded text.toList ∧ ∃ us, Passes .start (folded text.toList) [] us
      ∧ ts = us ++ [.endOfText (.after (folded text.toList))] := by
  obtain ⟨u, r, us, hw, hclean, hpass, rfl | ⟨f, hf⟩⟩ :=
    exists_passage .start (folded text.toList)
  · rw [List.append_nil] at hw
    rw [← hw] at hclean hpass
    have htokens := tokenize_of_passes hclean hpass
    rw [h] at htokens
    exact ⟨hclean, us, hpass, by simpa using htokens⟩
  · rw [tokenize_of_faulty hw hclean hpass hf] at h
    simp at h

/-- A text that has a fault is a passage up to it. -/
theorem faulty_of_tokenize {text : String} (h : tokenize text = .error f) :
    ∃ u r ts, folded text.toList = u ++ r ∧ '\r' ∉ u ∧ Passes .start u r ts
      ∧ Faulty (Position.start.through u) r f := by
  obtain ⟨u, r, ts, hw, hclean, hpass, rfl | ⟨f', hf⟩⟩ :=
    exists_passage .start (folded text.toList)
  · rw [List.append_nil] at hw
    rw [← hw] at hclean hpass
    rw [tokenize_of_passes hclean hpass] at h
    simp at h
  · rw [tokenize_of_faulty hw hclean hpass hf] at h
    obtain rfl : f' = f := by simpa using h
    exact ⟨u, r, ts, hw, hclean, hpass, hf⟩

end Lexis
