import Lexis.Fault
import Lexis.Source.Cursor
import Lexis.Source.LineEnding

/-!
# Readers

A reader is a computation that goes on from a cursor, and either yields a value
or ends in a fault; in both cases the cursor stays where the reader left it.
All lexemes are read by composing the few readers of this module.

* `advance`, `load`: the window moves on by one glyph, and a new text comes in
  front of it;
* `look`, `take`: the window is looked at, and passed if it shows what is wanted;
* `foldWhile`: as many glyphs as a step accepts, from left to right;
* `advance_lt`: every move of the window uses up some of the text, a failed one
  too;
* `Forward`: a reader does nothing to its cursor but move the window on, which
  all readers inherit from their parts;
* `foldWhile_lt`: an accepted first glyph leaves less to be read.
-/

namespace Lexis

/-- A computation that goes on from a cursor. -/
abbrev CursorM := EStateM Fault Cursor

/-- The state that a computation leaves, whether it succeeds or fails. -/
def stateAfter {ε σ α : Type} : EStateM.Result ε σ α → σ
  | .ok _ s => s
  | .error _ s => s

namespace CursorM

variable {α β σ : Type}

/-! ### The window -/

/-- The window moves on by one glyph.  A carriage return without its line feed
is a fault after the characters that it costs; the window then keeps what it
shows. -/
def advance : CursorM Unit := fun c =>
  match c.ahead with
  | .ended => .ok () c
  | .shows glyph rest =>
    match Pull.of rest with
    | .exhausted => .ok () { c with ahead := .ended }
    | .lineBreak rest => .ok () ⟨.shows .lineBreak rest, c.position.nextLine⟩
    | .char x rest => .ok () ⟨.shows (.char x) rest, c.position.right 1⟩
    | .broken taken rest =>
      let place := c.position.right taken
      .error ⟨.malformedLineEnding, place⟩ ⟨.shows glyph rest, place⟩

/-- A new text, with its first glyph in the window. -/
def load (text : List Char) : CursorM Unit := fun _ => advance (.before text)

/-- The character in the window. -/
def look : CursorM (Option Char) := fun c => .ok c.shown? c

/-- The place that the cursor has reached. -/
def place : CursorM Position := fun c => .ok c.position c

/-- The end of the scan, for a cause and at a place. -/
def fail (cause : Cause) (position : Position) : CursorM α := throw ⟨cause, position⟩

/-- The window moves on if it shows the character `x`, and only then. -/
def take (x : Char) : CursorM Bool := do
  if (← look) = some x then
    advance
    return true
  else
    return false

/-- Every move of the window uses up some of the text, a failed one too. -/
theorem advance_lt {c : Cursor} {g : Glyph} (h : c.glyph? = some g) :
    (stateAfter (advance c)).remaining < c.remaining := by
  have hle := Pull.rest_le c.rest
  have hlt := @Pull.rest_lt c.rest
  rw [Cursor.remaining_of_glyph? h]
  simp only [advance, Cursor.ahead_of_glyph? h]
  cases hp : Pull.of c.rest with
  | exhausted => exact Nat.succ_pos _
  | lineBreak rest | char x rest | broken taken rest =>
    -- a unit was taken, so that the rest was not empty
    have hne : c.rest ≠ [] := by
      intro hnil
      rw [hnil] at hp
      cases hp
    have hrest := hlt hne
    rw [hp] at hrest
    exact Nat.succ_lt_succ hrest

/-- At the end of the text the window does not move. -/
theorem advance_of_ended {c : Cursor} (h : c.glyph? = none) : advance c = .ok () c := by
  simp only [advance, Cursor.ahead_of_glyph?_none h]

/-! ### Runs of glyphs -/

/-- The glyphs that the step accepts, from left to right, up to the first one
that it refuses or the end of the text. -/
def foldWhile (step : σ → Glyph → Option σ) (acc : σ) : CursorM σ := fun c =>
  match _window : c.glyph? with
  | none => .ok acc c
  | some g =>
    match step acc g with
    | none => .ok acc c
    | some acc' =>
      match _move : advance c with
      | .error e c' => .error e c'
      | .ok _ c' => foldWhile step acc' c'
termination_by c => c.remaining
decreasing_by
  have := advance_lt _window
  rwa [_move] at this

/-- The characters that the step accepts, with a line break as a space. -/
def foldShown (step : σ → Char → Option σ) (acc : σ) : CursorM σ :=
  foldWhile (fun s g => step s g.shown) acc

/-! ### Readers go forward -/

/-- The second cursor comes from the first by moves of the window, failed ones
included. -/
inductive Onward (c : Cursor) : Cursor → Prop
  | refl : Onward c c
  | move {c' : Cursor} (h : Onward c c') : Onward c (stateAfter (advance c'))

/-- A reader does nothing to its cursor but move the window on. -/
def Forward (x : CursorM α) : Prop := ∀ c, Onward c (stateAfter (x c))

/-- From the cursor `c` the reader leaves less to be read than there was. -/
def Shortens (x : CursorM α) (c : Cursor) : Prop :=
  (stateAfter (x c)).remaining < c.remaining

/-- Moves after moves. -/
theorem Onward.trans {c c' c'' : Cursor} (h : Onward c c') (h' : Onward c' c'') :
    Onward c c'' := by
  induction h' with
  | refl => exact h
  | move _ ih => exact ih.move

/-- No move adds to the text before the window. -/
theorem Onward.remaining_le {c c' : Cursor} (h : Onward c c') : c'.remaining ≤ c.remaining := by
  induction h with
  | refl => exact Nat.le_refl _
  | @move c' _ ih =>
    cases hg : c'.glyph? with
    | some g => exact Nat.le_trans (Nat.le_of_lt (advance_lt hg)) ih
    | none =>
      rw [advance_of_ended hg]
      exact ih

theorem forward_pure (a : α) : Forward (pure a : CursorM α) := fun _ => .refl

theorem forward_look : Forward look := fun _ => .refl

theorem forward_place : Forward place := fun _ => .refl

theorem forward_fail (cause : Cause) (p : Position) : Forward (fail cause p : CursorM α) :=
  fun _ => .refl

theorem forward_advance : Forward advance := fun _ => .move .refl

/-- Two readers one after the other. -/
theorem bind_apply (x : CursorM α) (f : α → CursorM β) (c : Cursor) :
    (x >>= f) c = match x c with
      | .ok a c' => f a c'
      | .error e c' => .error e c' := by
  simp only [bind, EStateM.bind]
  cases x c <;> rfl

theorem forward_bind {x : CursorM α} {f : α → CursorM β} (hx : Forward x)
    (hf : ∀ a, Forward (f a)) : Forward (x >>= f) := by
  intro c
  have h := hx c
  rw [bind_apply]
  cases hr : x c with
  | ok a c' =>
    rw [hr] at h
    exact h.trans (hf a c')
  | error e c' =>
    rw [hr] at h
    exact h

theorem forward_ite {p : Prop} [Decidable p] {x y : CursorM α} (hx : Forward x)
    (hy : Forward y) : Forward (if p then x else y) := by
  split <;> assumption

theorem forward_take (x : Char) : Forward (take x) :=
  forward_bind forward_look fun _ =>
    forward_ite (forward_bind forward_advance fun _ => forward_pure _) (forward_pure _)

theorem forward_foldWhile (step : σ → Glyph → Option σ) (acc : σ) :
    Forward (foldWhile step acc) := by
  intro c
  fun_induction foldWhile step acc c with
  | case1 | case2 => exact .refl
  | case3 acc c g hg acc' hs e c' hr =>
    have h := forward_advance c
    rwa [hr] at h
  | case4 acc c g hg acc' hs u c' hr ih =>
    have h := forward_advance c
    rw [hr] at h
    exact h.trans ih

theorem forward_foldShown (step : σ → Char → Option σ) (acc : σ) :
    Forward (foldShown step acc) := forward_foldWhile _ acc

/-! ### Readers that use up text -/

/-- What the first reader uses up the whole does. -/
theorem Shortens.bind {x : CursorM α} {f : α → CursorM β} {c : Cursor}
    (hx : Shortens x c) (hf : ∀ a, Forward (f a)) : Shortens (x >>= f) c := by
  rw [Shortens] at hx ⊢
  rw [bind_apply]
  cases hr : x c with
  | ok a c' =>
    rw [hr] at hx
    exact Nat.lt_of_le_of_lt (hf a c').remaining_le hx
  | error e c' =>
    rw [hr] at hx
    exact hx

/-- A reader that only looks leaves the use of text to the one after it. -/
theorem Shortens.bind_of_eq {x : CursorM α} {f : α → CursorM β} {c : Cursor} {a : α}
    (hx : x c = .ok a c) (hf : Shortens (f a) c) : Shortens (x >>= f) c := by
  rwa [Shortens, bind_apply, hx]

/-- The window moves on unless the text is at its end. -/
theorem shortens_advance {c : Cursor} {x : Char} (h : c.shown? = some x) :
    Shortens advance c := by
  obtain ⟨g, hg, -⟩ := Option.map_eq_some_iff.mp h
  exact advance_lt hg

/-- A character that is in the window is passed. -/
theorem shortens_take {c : Cursor} {x : Char} (h : c.shown? = some x) :
    Shortens (take x) c := by
  refine Shortens.bind_of_eq (a := some x) (by rw [look, h]) ?_
  simpa using (shortens_advance h).bind fun _ => forward_pure _

/-- An accepted first glyph leaves less to be read. -/
theorem foldWhile_lt {step : σ → Glyph → Option σ} {acc acc' : σ} {c : Cursor} {g : Glyph}
    (hg : c.glyph? = some g) (hs : step acc g = some acc') :
    Shortens (foldWhile step acc) c := by
  have h := advance_lt hg
  rw [Shortens, foldWhile]
  split
  next hn => simp [hn] at hg
  next g' hg' =>
    obtain rfl : g' = g := by simpa [hg'] using hg
    simp only [hs]
    split <;> rename_i hr <;> rw [hr] at h
    · exact h
    · exact Nat.lt_of_le_of_lt (forward_foldWhile step acc' _).remaining_le h

/-- An accepted first character leaves less to be read. -/
theorem foldShown_lt {step : σ → Char → Option σ} {acc acc' : σ} {c : Cursor} {x : Char}
    (hx : c.shown? = some x) (hs : step acc x = some acc') :
    Shortens (foldShown step acc) c := by
  obtain ⟨g, hg, rfl⟩ := Option.map_eq_some_iff.mp hx
  exact foldWhile_lt hg hs

/-- A refused first character ends the run before it has begun. -/
theorem foldShown_of_refused {step : σ → Char → Option σ} {acc : σ} {c : Cursor} {x : Char}
    (hx : c.shown? = some x) (hs : step acc x = none) : foldShown step acc c = .ok acc c := by
  obtain ⟨g, hg, rfl⟩ := Option.map_eq_some_iff.mp hx
  rw [foldShown, foldWhile]
  split
  next => rfl
  next g' hg' =>
    obtain rfl : g' = g := by simpa [hg'] using hg
    simp only [hs]

end CursorM

end Lexis
