import Lexis.Proofs.Source.Folding
import Lexis.Proofs.Source.Place
import Lexis.Source.Reader

/-!
# What readers do to a text

A reader is described by what it does in front of a folded text: which piece `l`
of the text it passes, and what it comes out with if `v` follows.  A reader that
passes a piece looks at the character behind it, and if that is a stray carriage
return, then the reader ends there in a fault, whatever it was to come out with.

* `Cursor.At`: the cursor at a place, with a folded text before it;
* `Reads`: what a reader does in front of a text;
* `reads_bind`: readers one after the other pass their pieces one after the
  other;
* `reads_foldWhile`: a run of glyphs;
* `load_meets`: a new text.
-/

namespace Lexis

open CursorM

variable {α β σ : Type}

/-- The cursor has come to the place `o` and has a folded text before it, whose
first character is in the window.  The position of the cursor takes the window
in. -/
inductive Cursor.At : Cursor → Position → List Char → Prop
  | ended (o : Position) : At ⟨.ended, o⟩ o []
  | shows (o : Position) (x : Char) (rest : List Char) (hx : x ≠ '\r') :
      At ⟨.shows (.ofChar x) rest, o.past x⟩ o (x :: folded rest)

namespace Cursor.At

variable {c : Cursor} {o : Position} {v : List Char}

/-- A stray carriage return never comes into the window. -/
lemma head?_ne (h : c.At o v) : v.head? ≠ some '\r' := by
  cases h with
  | ended => simp
  | shows _ x rest hx => simpa using hx

lemma position_eq (h : c.At o v) : c.position = o.toward v := by
  cases h <;> rfl

lemma shown?_eq (h : c.At o v) : c.shown? = v.head?.map shownFor := by
  cases h <;> rfl

lemma glyph?_eq (h : c.At o v) : c.glyph? = v.head?.map Glyph.ofChar := by
  cases h <;> rfl

end Cursor.At

/-- A result together with the cursor that it leaves. -/
def outcome (r : Except Fault α) (c : Cursor) : EStateM.Result Fault Cursor α :=
  match r with
  | .ok a => .ok a c
  | .error f => .error f c

/-- What a reader comes out with that has come to the place `o`, with the folded
text `v` before it.  It meets with a stray carriage return, if that is next, or
else `out` tells the result for the position of its cursor. -/
structure Meets (o : Position) (v : List Char) (out : Position → Except Fault α)
    (r : EStateM.Result Fault Cursor α) : Prop where
  stray : ∀ v', v = '\r' :: v' →
    ∃ c, r = .error ⟨.malformedLineEnding, o.right (strayWidth v')⟩ c
  here : v.head? ≠ some '\r' → ∃ c, c.At o v ∧ r = outcome (out c.position) c

/-- In front of the text `l ++ v` the reader passes `l` and comes out with what
`out` tells for the position of the cursor. -/
structure Reads (x : CursorM α) (l v : List Char) (out : Position → Except Fault α) : Prop where
  clean : '\r' ∉ l
  meets : ∀ (c : Cursor) (o : Position), c.At o (l ++ v) → Meets (o.through l) v out (x c)

/-- In front of the text `l ++ v` the reader passes `l` and yields `a`. -/
abbrev Yields (x : CursorM α) (l v : List Char) (a : α) : Prop := Reads x l v fun _ => .ok a

/-- In front of the text `l ++ v` the reader passes `l` and ends in the fault. -/
abbrev Fails (x : CursorM α) (l v : List Char) (f : Fault) : Prop := Reads x l v fun _ => .error f

/-- A text has a stray carriage return in front or it has not. -/
lemma strayFirst_or (v : List Char) : (∃ v', v = '\r' :: v') ∨ v.head? ≠ some '\r' := by
  by_cases h : v.head? = some '\r'
  · exact Or.inl (List.head?_eq_some_iff.mp h)
  · exact Or.inr h

/-- Where a stray carriage return comes first, there is nothing in front of it. -/
lemma eq_nil_of_strayFirst {l v v' : List Char} (hl : '\r' ∉ l) (h : l ++ v = '\r' :: v') :
    l = [] := by
  cases l with
  | nil => rfl
  | cons x l =>
    simp only [List.cons_append, List.cons.injEq] at h
    simp [h.1] at hl

/-- A text in whose front there is no stray carriage return. -/
lemma Meets.of_here {o : Position} {v : List Char} {out : Position → Except Fault α}
    {r : EStateM.Result Fault Cursor α} {c : Cursor} (hc : c.At o v)
    (hr : r = outcome (out c.position) c) : Meets o v out r where
  stray := by
    rintro v' rfl
    exact absurd rfl hc.head?_ne
  here _ := ⟨c, hc, hr⟩

/-! ### Readers that stay where they are -/

/-- A reader that only looks at its cursor. -/
lemma reads_of_stays {x : CursorM α} {v : List Char} {out : Position → Except Fault α}
    (h : ∀ c o, c.At o v → x c = outcome (out c.position) c) : Reads x [] v out where
  clean := by simp
  meets c o hc := .of_here hc (h c o hc)

/-- No cursor has a stray carriage return in its window. -/
lemma reads_before_stray (x : CursorM α) (v : List Char) (out : Position → Except Fault α) :
    Reads x [] ('\r' :: v) out :=
  reads_of_stays fun _ _ hc => absurd rfl hc.head?_ne

lemma reads_pure (a : α) (v : List Char) : Yields (pure a) [] v a :=
  reads_of_stays fun _ _ _ => rfl

lemma reads_fail (cause : Cause) (p : Position) (v : List Char) :
    Fails (fail cause p : CursorM α) [] v ⟨cause, p⟩ :=
  reads_of_stays fun _ _ _ => rfl

/-- A fault that is found at the cursor. -/
lemma reads_failHere (cause : Cause) (v : List Char) :
    Reads (place >>= fun p => (fail cause p : CursorM α)) [] v fun p => .error ⟨cause, p⟩ :=
  reads_of_stays fun _ _ _ => rfl

lemma reads_look (v : List Char) : Yields look [] v (v.head?.map shownFor) :=
  reads_of_stays fun _ _ hc => by rw [look, hc.shown?_eq, outcome]

/-! ### One reader after the other -/

/-- Where two computations one after the other yield, both of them do. -/
lemma exists_of_bind {x : EStateM Fault σ α} {f : α → EStateM Fault σ β} {s s' : σ}
    {b : β} (h : (x >>= f) s = .ok b s') : ∃ a s₁, x s = .ok a s₁ ∧ f a s₁ = .ok b s' := by
  simp only [Bind.bind, EStateM.bind] at h
  cases hr : x s with
  | ok a s₁ =>
    rw [hr] at h
    exact ⟨a, s₁, rfl, h⟩
  | error f s₁ =>
    rw [hr] at h
    cases h

/-- Readers one after the other pass their pieces one after the other. -/
theorem reads_bind {x : CursorM α} {f : α → CursorM β} {l m v : List Char} {a : α}
    {out : Position → Except Fault β} (hx : Yields x l (m ++ v) a) (hf : Reads (f a) m v out) :
    Reads (x >>= f) (l ++ m) v out where
  clean := by simpa using ⟨hx.clean, hf.clean⟩
  meets c o hc := by
    rw [List.append_assoc] at hc
    have hm := hx.meets c o hc
    rw [Position.through_append]
    rcases strayFirst_or (m ++ v) with ⟨v', hv'⟩ | hclear
    · -- nothing is left for the second reader to pass
      obtain ⟨c', hr⟩ := hm.stray v' hv'
      have hstop : (x >>= f) c
          = .error ⟨.malformedLineEnding, (o.through l).right (strayWidth v')⟩ c' := by
        rw [bind_apply, hr]
      obtain rfl : m = [] := eq_nil_of_strayFirst hf.clean hv'
      obtain rfl : v = '\r' :: v' := hv'
      refine ⟨?_, fun h => absurd rfl h⟩
      rintro v'' hv''
      obtain rfl : v' = v'' := by simpa using hv''
      exact ⟨c', hstop⟩
    · obtain ⟨c', hc', hr⟩ := hm.here hclear
      have hgo : (x >>= f) c = f a c' := by rw [bind_apply, hr, outcome]
      rw [hgo]
      exact hf.meets c' _ hc'

/-- After a reader that stays where it is. -/
lemma reads_bind_stay {x : CursorM α} {f : α → CursorM β} {l v : List Char} {a : α}
    {out : Position → Except Fault β} (hx : Yields x [] (l ++ v) a) (hf : Reads (f a) l v out) :
    Reads (x >>= f) l v out := reads_bind hx hf

/-- Before a reader that stays where it is. -/
lemma reads_bind_last {x : CursorM α} {f : α → CursorM β} {l v : List Char} {a : α}
    {out : Position → Except Fault β} (hx : Yields x l v a) (hf : Reads (f a) [] v out) :
    Reads (x >>= f) l v out := by
  simpa using reads_bind (m := []) hx hf

/-- Before a reader that stays where it is, whatever the first one comes out
with. -/
lemma reads_bind_outcome {x : CursorM α} {f : α → CursorM β} {l v : List Char}
    {out : Position → Except Fault α} {out' : Position → Except Fault β} (hx : Reads x l v out)
    (hf : ∀ c p, (match outcome (out p) c with
      | .ok a c' => f a c'
      | .error e c' => .error e c') = outcome (out' p) c) :
    Reads (x >>= f) l v out' where
  clean := hx.clean
  meets c o hc := by
    have hm := hx.meets c o hc
    constructor
    · intro v' hv'
      obtain ⟨c', hr⟩ := hm.stray v' hv'
      exact ⟨c', by rw [bind_apply, hr]⟩
    · intro hclear
      obtain ⟨c', hc', hr⟩ := hm.here hclear
      refine ⟨c', hc', ?_⟩
      rw [bind_apply, hr]
      exact hf c' c'.position

/-- A fault ends the reading. -/
lemma reads_bind_fault {x : CursorM α} {f : α → CursorM β} {l v : List Char}
    {F : Position → Fault} (hx : Reads x l v fun p => .error (F p)) :
    Reads (x >>= f) l v fun p => .error (F p) :=
  reads_bind_outcome hx fun _ _ => rfl

/-- The result of a reader, worked on. -/
lemma reads_map {x : CursorM α} {l v : List Char} {out : Position → Except Fault α} (g : α → β)
    (hx : Reads x l v out) : Reads (x >>= fun a => pure (g a)) l v fun p => (out p).map g := by
  refine reads_bind_outcome hx fun c p => ?_
  cases out p <;> rfl

/-! ### The window -/

/-- The window moves on to the first glyph of the text behind it, whatever it
shows. -/
lemma advance_meets (g : Glyph) (rest : List Char) (o : Position) :
    Meets o (folded rest) (fun _ => .ok ()) (advance ⟨.shows g rest, o⟩) := by
  cases hf : folded rest with
  | nil =>
    refine .of_here (.ended o) ?_
    simp only [advance, Pull.of_eq_exhausted hf, outcome]
  | cons y v =>
    by_cases hy : y = '\r'
    · subst hy
      obtain ⟨r, hr⟩ := Pull.of_eq_broken hf
      refine ⟨?_, fun h => absurd rfl h⟩
      rintro v' hv'
      obtain rfl : v = v' := by simpa using hv'
      exact ⟨⟨.shows g r, o.right (strayWidth v)⟩, by simp only [advance, hr]⟩
    · obtain ⟨r, rfl, hr⟩ := Pull.of_eq_glyph hf hy
      refine .of_here (.shows o y r hy) ?_
      by_cases hb : y = '\n'
      · simp only [advance, hr, hb, if_true, outcome, Position.past_lineFeed]
        rfl
      · simp only [advance, hr, if_neg hb, outcome, Position.past_of_ne hb, Glyph.ofChar]

/-- The cursor before a text moves on to its first glyph. -/
lemma load_meets (text : List Char) (c : Cursor) :
    Meets .start (folded text) (fun _ => .ok ()) (CursorM.load text c) :=
  advance_meets _ text .start

/-- The window moves on over the character that it shows. -/
lemma reads_advance {x : Char} (hx : x ≠ '\r') (v : List Char) : Yields advance [x] v () where
  clean := by simpa using Ne.symm hx
  meets c o hc := by
    rw [List.singleton_append] at hc
    cases hc with
    | shows _ _ rest _ => exact advance_meets _ rest _

/-- A character that is wanted is passed. -/
lemma reads_take {x : Char} (hr : x ≠ '\r') (hb : x ≠ '\n') (v : List Char) :
    Yields (take x) [x] v true := by
  refine reads_bind_stay (reads_look _) ?_
  have hshown : ([x] ++ v).head?.map shownFor = some x := by simp [shownFor_of_ne hb]
  rw [if_pos hshown]
  exact reads_bind_last (reads_advance hr v) (reads_pure _ _)

/-- A character that is wanted and not there. -/
lemma reads_take_false {x : Char} {v : List Char} (hx : x ≠ ' ') (hv : v.head? ≠ some x) :
    Yields (take x) [] v false := by
  refine reads_bind_stay (reads_look _) ?_
  have hshown : v.head?.map shownFor ≠ some x := by
    intro h
    obtain ⟨y, hy, hyx⟩ := Option.map_eq_some_iff.mp h
    by_cases hb : y = '\n'
    · rw [hb, shownFor_lineFeed] at hyx
      exact hx hyx.symm
    · rw [shownFor_of_ne hb] at hyx
      exact hv (hyx ▸ hy)
  rw [List.nil_append, if_neg hshown]
  exact reads_pure _ _

/-! ### Runs of glyphs -/

/-- A glyph that the step refuses ends the run. -/
lemma foldWhile_of_refused {step : σ → Glyph → Option σ} {acc : σ} {c : Cursor} {g : Glyph}
    (hg : c.glyph? = some g) (hs : step acc g = none) : foldWhile step acc c = .ok acc c := by
  rw [foldWhile]
  split
  next => rfl
  next g' hg' =>
    obtain rfl : g' = g := by simpa [hg'] using hg
    simp only [hs]

/-- The end of the text ends the run. -/
lemma foldWhile_of_ended {step : σ → Glyph → Option σ} {acc : σ} {c : Cursor}
    (hg : c.glyph? = none) : foldWhile step acc c = .ok acc c := by
  rw [foldWhile]
  split
  next => rfl
  next g' hg' => simp [hg'] at hg

/-- A glyph that the step accepts is passed, and the run goes on. -/
lemma foldWhile_of_accepted {step : σ → Glyph → Option σ} {acc acc' : σ} {c : Cursor} {g : Glyph}
    (hg : c.glyph? = some g) (hs : step acc g = some acc') :
    foldWhile step acc c = (advance >>= fun _ => foldWhile step acc') c := by
  rw [bind_apply, foldWhile]
  split
  next hn => simp [hn] at hg
  next g' hg' =>
    obtain rfl : g' = g := by simpa [hg'] using hg
    simp only [hs]
    split <;> rename_i hr <;> rw [hr]

/-- A run passes the glyphs that the step accepts one after the other, up to one
that it refuses. -/
theorem reads_foldWhile {step : σ → Glyph → Option σ} {acc acc' : σ} {l v : List Char}
    (hl : l.foldlM (fun s x => step s (.ofChar x)) acc = some acc') (hclean : '\r' ∉ l)
    (hv : ∀ x ∈ v.head?, x ≠ '\r' → step acc' (.ofChar x) = none) :
    Yields (foldWhile step acc) l v acc' := by
  induction l generalizing acc with
  | nil =>
    obtain rfl : acc = acc' := by simpa using hl
    refine reads_of_stays fun c o hc => ?_
    cases hc with
    | ended => exact foldWhile_of_ended rfl
    | shows _ x rest hx => exact foldWhile_of_refused rfl (hv x (by simp) hx)
  | cons x l ih =>
    rw [List.foldlM_cons, Option.bind_eq_bind, Option.bind_eq_some_iff] at hl
    obtain ⟨acc₁, hx, hl⟩ := hl
    have hxr : x ≠ '\r' := by
      rintro rfl
      simp at hclean
    have hrun : Yields (advance >>= fun _ => foldWhile step acc₁) ([x] ++ l) v acc' :=
      reads_bind (reads_advance hxr _) (ih hl fun h => hclean (List.mem_cons_of_mem x h))
    refine ⟨hclean, fun c o hc => ?_⟩
    have hg : c.glyph? = some (.ofChar x) := by simpa using hc.glyph?_eq
    rw [foldWhile_of_accepted hg hx]
    exact hrun.meets c o hc

/-- A run of characters, with a line break read as a space. -/
lemma reads_foldShown {step : σ → Char → Option σ} {acc acc' : σ} {l v : List Char}
    (hl : l.foldlM (fun s x => step s (shownFor x)) acc = some acc') (hclean : '\r' ∉ l)
    (hv : ∀ x ∈ v.head?, x ≠ '\r' → step acc' (shownFor x) = none) :
    Yields (foldShown step acc) l v acc' :=
  reads_foldWhile hl hclean hv

end Lexis
