import Lexis.Proofs.Source.Reading

/-!
# What the window shows

A cursor shows its text as it is folded, one character after the other, up to the
first stray carriage return.  It may be looked behind the window at any time, and
the window may be moved on only if it shows what is wanted; neither changes what
there is to be seen.

* `visible`: what there is to be seen of a text;
* `Cursor.advance_movesTo`: what a move of the window comes to;
* `Cursor.Use`, `Cursor.moves`: what a cursor is asked for, and how often its window
  moves on;
* `Cursor.Viewing`: the window has come to a character of the text, or to its end,
  which every use keeps (`Cursor.Viewing.moves`);
* `Cursor.Shows`, `Cursor.window_shows`: what the window shows, how it moves on, and
  what is behind it.
-/

namespace Lexis

open CursorM

variable {text a b r : List Char} {g : Glyph} {o : Position} {k : Nat} {c : Cursor}

/-! ### What there is to be seen -/

/-- The text up to its first stray carriage return, with every carriage return and
line feed read as one line feed. -/
def visible : List Char → List Char
  | '\r' :: '\n' :: text => '\n' :: visible text
  | '\r' :: _ => []
  | c :: text => c :: visible text
  | [] => []

/-- What is to be seen of a text is what its folding has in front of carriage
returns. -/
lemma visible_eq (text : List Char) : visible text = (folded text).takeWhile (· ≠ '\r') := by
  fun_induction visible text with
  | case1 text ih => rw [folded_lineEnding, List.takeWhile_cons_of_pos (by decide), ih]
  | case2 text hbreak =>
    rw [folded_cons fun _ h => ?_, List.takeWhile_cons_of_neg (by decide)]
    obtain ⟨text', rfl⟩ := List.head?_eq_some_iff.mp h
    exact hbreak text' rfl
  | case3 c text _ hc ih =>
    have hc : c ≠ '\r' := hc
    rw [folded_cons_of_ne hc, List.takeWhile_cons_of_pos (by simpa using hc), ih]
  | case4 => rfl

/-- What is to be seen goes through a cut with no stray carriage return in front of
it. -/
lemma visible_append (h : '\r' ∉ folded a) : visible (a ++ b) = folded a ++ visible b := by
  have hclean : ∀ x ∈ folded a, decide (x ≠ '\r') := by
    intro x hx
    have hne : x ≠ '\r' := by
      rintro rfl
      exact h hx
    simpa using hne
  rw [visible_eq, visible_eq, folded_append fun hlast => absurd hlast (getLast?_ne_of_clean h),
    List.takeWhile_append_of_pos hclean]

/-- So do stray carriage returns. -/
lemma hasStrayReturn_append (h : '\r' ∉ folded a) :
    HasStrayReturn (a ++ b) ↔ HasStrayReturn b := by
  rw [hasStrayReturn_iff, hasStrayReturn_iff,
    folded_append fun hlast => absurd hlast (getLast?_ne_of_clean h), List.mem_append]
  exact or_iff_right h

/-- Nothing is to be seen in front of a stray carriage return. -/
lemma visible_strayReturn (h : b.head? ≠ some '\n') : visible ('\r' :: b) = [] := by
  rw [visible_eq, folded_cons fun _ => h, List.takeWhile_cons_of_neg (by decide)]

namespace Cursor

/-! ### One move -/

/-- What a move of the window comes to, from a glyph `g` with some text behind it. -/
inductive MovesTo (g : Glyph) (o : Position) :
    List Char → EStateM.Result Fault Cursor Unit → Prop
  /-- There is nothing behind the window. -/
  | ended : MovesTo g o [] (.ok () ⟨.ended, o⟩)
  /-- A character comes into the window, out of one or two of the text. -/
  | shows {d : List Char} {x : Char} (r : List Char) (hd : folded d = [x]) (hx : x ≠ '\r') :
    MovesTo g o (d ++ r) (.ok () ⟨.shows (.ofChar x) r, o.past x⟩)
  /-- A stray carriage return is lost, and the window stays as it is. -/
  | broken {d : List Char} (r : List Char) (p : Position) (hd : (d ++ r).head? ≠ some '\n') :
    MovesTo g o ('\r' :: d ++ r) (.error ⟨.malformedLineEnding, p⟩ ⟨.shows g r, p⟩)

/-- **A move of the window** comes to the end of the text, to the character behind
the window, or to a stray carriage return. -/
theorem advance_movesTo (g : Glyph) (r : List Char) (o : Position) :
    MovesTo g o r (advance ⟨.shows g r, o⟩) := by
  simp only [advance]
  fun_cases Pull.of r with
  | case1 => exact .ended
  | case2 r => exact .shows (d := ['\n']) r rfl (by decide)
  | case3 r => exact .shows (d := ['\r', '\n']) r rfl (by decide)
  | case4 x r hx => exact .broken (d := [x]) r _ (by simpa using hx)
  | case5 => exact .broken (d := []) [] _ (by simp)
  | case6 x r hbreak _ hpair hlast =>
    have hx : x ≠ '\r' := by
      rintro rfl
      cases r with
      | nil => exact hlast rfl rfl
      | cons y r => exact hpair y r rfl rfl
    have hmove := MovesTo.shows (g := g) (o := o) (d := [x]) r (folded_cons_of_ne hx []) hx
    rwa [Position.past_of_ne hbreak, Glyph.ofChar, if_neg hbreak] at hmove

/-- A move that fails leaves the window as it is. -/
lemma glyph?_of_advance_error {f : Fault} {c' : Cursor} (h : advance c = .error f c') :
    c'.glyph? = c.glyph? := by
  obtain ⟨ahead, o⟩ := c
  cases ahead with
  | ended => cases h
  | shows g r =>
    have hmove := advance_movesTo g r o
    rw [h] at hmove
    generalize hres : EStateM.Result.error f c' = res at hmove
    cases hmove <;> cases hres
    rfl

/-- What is seen of a glyph in the window. -/
lemma observe_of_glyph? (h : c.glyph? = some g) :
    c.atEnd = false ∧ c.current = g.shown ∧ c.atLineBreak = decide (g = .lineBreak) := by
  simp [atEnd, current, shown?, atLineBreak, h]

/-- What is seen of the end of the text. -/
lemma observe_of_ended (h : c.atEnd) : c.current = endMark ∧ c.atLineBreak = false := by
  have hg : c.glyph? = none := by simpa [atEnd] using h
  simp [current, shown?, atLineBreak, hg]

/-- What is seen of a line break. -/
lemma observe_of_atLineBreak (h : c.atLineBreak) : c.current = ' ' ∧ c.atEnd = false := by
  have hg : c.glyph? = some .lineBreak := by simpa [atLineBreak] using h
  obtain ⟨hend, hcurrent, -⟩ := observe_of_glyph? hg
  exact ⟨hcurrent, hend⟩

/-! ### Uses of a cursor -/

/-- The character behind the window, as it stands in the text. -/
def peek : CursorM (Option Char) := fun c => .ok c.next? c

/-- What a cursor may be asked for. -/
inductive Use where
  /-- The next character. -/
  | advance
  /-- A look behind the window. -/
  | peek
  /-- The next character, if the window shows the character `x`. -/
  | take (x : Char)

/-- One use of the cursor.  Has the window moved on? -/
def Use.run : Use → CursorM Bool
  | advance => do
    CursorM.advance
    return true
  | peek => do
    let _ ← Cursor.peek
    return false
  | take x => CursorM.take x

/-- One use after the other.  How often has the window moved on? -/
def moves : List Use → CursorM Nat
  | [] => return 0
  | use :: uses => do
    let moved ← use.run
    let n ← moves uses
    return if moved then n + 1 else n

/-- Taking a character is moving on, if the window shows the character. -/
lemma take_eq (x : Char) (c : Cursor) :
    take x c = if c.atEnd = false ∧ c.current = x then
        match advance c with
        | .ok _ c' => .ok true c'
        | .error f c' => .error f c'
      else .ok false c := by
  have hshown : c.shown? = some x ↔ c.atEnd = false ∧ c.current = x := by
    cases hg : c.glyph? with
    | none => simp [shown?, atEnd, hg]
    | some g => simp [shown?, atEnd, current, hg]
  rw [take, bind_apply, look]
  simp only [hshown]
  split
  next =>
    rw [bind_apply]
    cases advance c <;> rfl
  next => rfl

/-! ### The text at the window -/

/-- The window has moved on `k` times from the first character of the text: it shows
the character that it has come to, with the rest of the text behind it, or the text is
at its end. -/
inductive Viewing (text : List Char) : Nat → Cursor → Prop
  | shows {a r u : List Char} {x : Char} (o : Position) (htext : text = a ++ r)
    (ha : folded a = u ++ [x]) (hclean : '\r' ∉ folded a) :
    Viewing text u.length ⟨.shows (.ofChar x) r, o⟩
  | ended {k : Nat} (o : Position) (hclean : '\r' ∉ folded text) (hk : (folded text).length ≤ k) :
    Viewing text k ⟨.ended, o⟩

/-- **One move** behind the text `a`: the window comes to the next character of the
text, or to its end. -/
lemma Viewing.of_advance (htext : text = a ++ r) (hclean : '\r' ∉ folded a)
    (h : advance ⟨.shows g r, o⟩ = .ok () c) : Viewing text (folded a).length c := by
  have hmove := advance_movesTo g r o
  rw [h] at hmove
  generalize hres : EStateM.Result.ok () c = res at hmove
  cases hmove with
  | ended =>
    cases hres
    rw [List.append_nil] at htext
    subst htext
    exact .ended o hclean le_rfl
  | @shows d x r hd hx =>
    cases hres
    have hfolded : folded (a ++ d) = folded a ++ [x] := by
      rw [folded_append fun hlast => absurd hlast (getLast?_ne_of_clean hclean), hd]
    refine .shows (o.past x) (by rw [htext, List.append_assoc]) hfolded ?_
    simpa [hfolded, hclean] using hx.symm
  | broken => cases hres

/-- Every use keeps the window at the text. -/
lemma Viewing.use {use : Use} {moved : Bool} {c' : Cursor} (h : Viewing text k c)
    (hr : use.run c = .ok moved c') : Viewing text (if moved then k + 1 else k) c' := by
  have hadvance {c' : Cursor} (hmove : advance c = .ok () c') : Viewing text (k + 1) c' := by
    cases h with
    | @shows a r u x o htext ha hclean =>
      have hlength : u.length + 1 = (folded a).length := by rw [ha, List.length_append]; rfl
      rw [hlength]
      exact .of_advance htext hclean hmove
    | ended o hclean hk =>
      rw [advance_of_ended rfl] at hmove
      cases hmove
      exact .ended o hclean (hk.trans k.le_succ)
  cases use with
  | advance =>
    obtain ⟨_, c₁, hmove, hr⟩ := exists_of_bind hr
    cases hr
    exact hadvance hmove
  | peek =>
    cases hr
    exact h
  | take x =>
    obtain ⟨_, _, ⟨⟩, hr⟩ := exists_of_bind (x := look) hr
    split at hr
    next =>
      obtain ⟨_, c₁, hmove, hr⟩ := exists_of_bind hr
      cases hr
      exact hadvance hmove
    next =>
      cases hr
      exact h

/-- **All uses** keep the window at the text. -/
theorem Viewing.moves {uses : List Use} {n : Nat} {c' : Cursor} (h : Viewing text k c)
    (hr : moves uses c = .ok n c') : Viewing text (k + n) c' := by
  induction uses generalizing k n c with
  | nil =>
    cases hr
    exact h
  | cons use uses ih =>
    obtain ⟨moved, c₁, huse, hr⟩ := exists_of_bind hr
    obtain ⟨m, c₂, hrest, hr⟩ := exists_of_bind hr
    cases hr
    have hlast := ih (h.use huse) hrest
    cases moved with
    | false => exact hlast
    | true => rwa [if_pos rfl, Nat.add_assoc, Nat.add_comm 1] at hlast

/-! ### What a cursor shows of a text -/

/-- What there is to be seen of the text is shown by the cursor, whose window has moved
on `k` times from the first character of it. -/
structure Shows (text : List Char) (k : Nat) (c : Cursor) : Prop where
  /-- The window shows the character that it has come to, and a line break as a
  space. -/
  shown : ∀ x, (visible text)[k]? = some x → c.atEnd = false
    ∧ c.current = (if x = '\n' then ' ' else x) ∧ c.atLineBreak = decide (x = '\n')
  /-- Behind the last character there is the end of the text, and the window stays
  there. -/
  ended : (visible text).length ≤ k → ¬HasStrayReturn text ∧ c.atEnd = true
    ∧ c.current = endMark ∧ c.atLineBreak = false ∧ advance c = .ok () c
  /-- The window moves on, but over a stray carriage return. -/
  goesOn : (k + 1 = (visible text).length → ¬HasStrayReturn text) → ∃ c', advance c = .ok () c'
  /-- A stray carriage return behind the last character is met by the next move. -/
  breaks : k + 1 = (visible text).length → HasStrayReturn text →
    ∃ p c', advance c = .error ⟨.malformedLineEnding, p⟩ c'
  /-- A look behind the window shows the first of the characters `d` that the next move
  takes out of the text, and leaves the cursor as it is. -/
  behind : ∃ a d r, text = a ++ (d ++ r) ∧ folded a = (visible text).take (k + 1)
    ∧ (stateAfter (advance c)).rest = r ∧ peek c = .ok d.head? c

/-- What a move takes, and what is behind the window before and after it. -/
lemma exists_rest_eq (c : Cursor) :
    ∃ d, c.rest = d ++ (stateAfter (advance c)).rest ∧ peek c = .ok d.head? c := by
  obtain ⟨ahead, o⟩ := c
  cases ahead with
  | ended => exact ⟨[], rfl, rfl⟩
  | shows g r =>
    have hmove := advance_movesTo g r o
    generalize advance ⟨.shows g r, o⟩ = res at hmove ⊢
    cases hmove with
    | ended => exact ⟨[], rfl, rfl⟩
    | @shows d x r hd =>
      refine ⟨d, rfl, ?_⟩
      cases d with
      | nil => simp at hd
      | cons y d => rfl
    | @broken d r p => exact ⟨'\r' :: d, rfl, rfl⟩

/-- A move over the rest of a text fails exactly if there is nothing to be seen of it but
a stray carriage return. -/
lemma advance_of_rest (g : Glyph) (r : List Char) (o : Position) :
    (visible r = [] → HasStrayReturn r →
        ∃ p c, advance ⟨.shows g r, o⟩ = .error ⟨.malformedLineEnding, p⟩ c)
      ∧ ((visible r = [] → ¬HasStrayReturn r) → ∃ c, advance ⟨.shows g r, o⟩ = .ok () c) := by
  have hmove := advance_movesTo g r o
  generalize advance ⟨.shows g r, o⟩ = res at hmove ⊢
  cases hmove with
  | ended =>
    have hnone : ¬HasStrayReturn [] := by simp [hasStrayReturn_iff]
    exact ⟨fun _ h => absurd h hnone, fun _ => ⟨_, rfl⟩⟩
  | @shows d x r hd hx =>
    have hsome : visible (d ++ r) = x :: visible r := by
      rw [visible_append (by simpa [hd] using hx.symm), hd]
      rfl
    exact ⟨fun h _ => by simp [hsome] at h, fun _ => ⟨_, rfl⟩⟩
  | @broken d r p hd =>
    have hstray : HasStrayReturn ('\r' :: d ++ r) := ⟨[], d ++ r, rfl, hd⟩
    exact ⟨fun _ _ => ⟨p, _, rfl⟩, fun h => absurd hstray (h (visible_strayReturn hd))⟩

/-- **The window** at a text shows what there is to be seen of it. -/
theorem Viewing.shows_text (h : Viewing text k c) : c.Shows text k := by
  obtain ⟨d, hrest, hpeek⟩ := c.exists_rest_eq
  cases h with
  | @shows a r u x o htext ha hclean =>
    have hv : visible text = u ++ x :: visible r := by
      rw [htext, visible_append hclean, ha, List.append_assoc]
      rfl
    have hlast : u.length + 1 = (visible text).length ↔ visible r = [] := by
      rw [hv, ← List.length_eq_zero_iff, List.length_append, List.length_cons]
      omega
    have hstray : HasStrayReturn text ↔ HasStrayReturn r := by
      rw [htext, hasStrayReturn_append hclean]
    obtain ⟨hbreaks, hgoes⟩ := advance_of_rest (.ofChar x) r o
    refine ⟨?_, ?_, ?_, ?_, ?_⟩
    · intro y hy
      obtain rfl : x = y := by simpa [hv] using hy
      obtain ⟨hend, hcurrent, hline⟩ := observe_of_glyph? (c := ⟨.shows (.ofChar x) r, o⟩) rfl
      refine ⟨hend, hcurrent.trans (shownFor_eq x), hline.trans ?_⟩
      by_cases hb : x = '\n' <;> simp [hb, Glyph.ofChar]
    · intro hk
      rw [hv, List.length_append, List.length_cons] at hk
      omega
    · rwa [hlast, hstray]
    · rwa [hlast, hstray]
    · refine ⟨a, d, _, by rw [← hrest]; exact htext, ?_, rfl, hpeek⟩
      rw [hv, List.append_cons, ha, List.take_left' (by simp)]
  | @ended k o hclean hk =>
    have hv : visible text = folded text := by
      have h := visible_append (b := []) hclean
      rwa [List.append_nil, visible, List.append_nil] at h
    rw [← hv] at hk
    refine ⟨?_, ?_, ?_, ?_, ?_⟩
    · intro y hy
      rw [List.getElem?_eq_none hk] at hy
      cases hy
    · exact fun _ => ⟨by rwa [hasStrayReturn_iff], rfl, rfl, rfl, rfl⟩
    · exact fun _ => ⟨_, rfl⟩
    · intro hlast
      omega
    · refine ⟨text, d, _, by rw [← hrest]; simp [rest], ?_, rfl, hpeek⟩
      rw [List.take_of_length_le (by omega), hv]

/-- **What the window shows.**  A new text comes into the window unless a stray carriage
return is all there is to be seen of it.  After any uses, by which the window has moved
on `k` times, the cursor shows the text as it is to be seen from its `k`-th character
on.  And whatever has led to a cursor: taking a character is moving on if the window
shows it, and nothing otherwise; a failed move leaves the window as it is; and the end
of the text is no line break and shows the end mark, as a line break shows a space. -/
theorem window_shows (text : List Char) :
    (∀ c₀, (visible text = [] → HasStrayReturn text →
        ∃ p c, load text c₀ = .error ⟨.malformedLineEnding, p⟩ c)
      ∧ ((visible text = [] → ¬HasStrayReturn text) → ∃ c, load text c₀ = .ok () c))
      ∧ (∀ c₀ uses k c, (load text >>= fun _ => moves uses) c₀ = .ok k c → c.Shows text k)
      ∧ ∀ c : Cursor,
        (∀ x, take x c = if c.atEnd = false ∧ c.current = x then
            match advance c with
            | .ok _ c' => .ok true c'
            | .error f c' => .error f c'
          else .ok false c)
        ∧ (∀ f c', advance c = .error f c' → c'.glyph? = c.glyph?)
        ∧ (c.atEnd → c.current = endMark ∧ c.atLineBreak = false)
        ∧ (c.atLineBreak → c.current = ' ' ∧ c.atEnd = false) := by
  refine ⟨fun c₀ => advance_of_rest _ text .start, ?_, fun c => ⟨fun x => take_eq x c, ?_⟩⟩
  · intro c₀ uses k c h
    obtain ⟨_, c₁, hload, h⟩ := exists_of_bind h
    have hfirst : Viewing text 0 c₁ := .of_advance (a := []) rfl (by simp) hload
    have hlast := hfirst.moves h
    rw [Nat.zero_add] at hlast
    exact hlast.shows_text
  · exact ⟨fun _ _ => glyph?_of_advance_error, observe_of_ended, observe_of_atLineBreak⟩

/-- A text with a line ending and the end mark in it, and two carriage returns in front
of its last line feed: the end mark is passed, and the next move fails behind both. -/
theorem window_shows_endMark :
    let text := ['a', '\r', '\n', '\x00', '\r', '\r', '\n']
    let uses : List Use := [.peek, .take 'a', .take '\n', .peek, .advance]
    visible text = ['a', '\n', '\x00'] ∧ HasStrayReturn text
      ∧ ∃ c, (load text >>= fun _ => moves uses) .empty = .ok 2 c ∧ c.atEnd = false
        ∧ c.current = '\x00' ∧ c.next? = some '\r'
        ∧ ∃ p c', advance c = .error ⟨.malformedLineEnding, p⟩ c' := by
  intro text uses
  have hvisible : visible text = ['a', '\n', '\x00'] := by decide
  have hstray : HasStrayReturn text := ⟨['a', '\r', '\n', '\x00'], ['\r', '\n'], rfl, by decide⟩
  have hrun : (load text >>= fun _ => moves uses) .empty
      = .ok 2 ⟨.shows (.char '\x00') ['\r', '\r', '\n'], ⟨2, 1⟩⟩ := by rfl
  have hshows := (window_shows text).2.1 .empty uses 2 _ hrun
  obtain ⟨hend, hcurrent, -⟩ := hshows.shown '\x00' (by rw [hvisible]; rfl)
  have hbreaks := hshows.breaks (by rw [hvisible]; rfl) hstray
  exact ⟨hvisible, hstray, _, hrun, hend, hcurrent, rfl, hbreaks⟩

end Cursor

end Lexis
