import Lexis.Proofs.Source.Place

/-!
# Displaced texts

A text may be read from another place on, some lines further down or behind a
text in front of it; then every place of it is displaced, and the map that tells
whereto goes along with the reading.

* `Position.Carries`: a map of places goes along with the reading of a text;
* `Position.carries_down`: going some lines down does so everywhere;
* `Position.behind`: where a place of a text comes to stand behind another text;
* `Position.carries_behind`: that goes along with every text whose lines can be
  counted.
-/

namespace Lexis.Position

variable {φ : Position → Position} {o : Position} {a b g w : List Char}

/-- The map takes the places of the text `w`, read from `o` on, to its places read
from `φ o` on.  On a line it moves all columns alike. -/
structure Carries (φ : Position → Position) (o : Position) (w : List Char) : Prop where
  right : ∀ p n, φ (p.right n) = (φ p).right n
  through : ∀ a b, w = a ++ b → φ (o.through a) = (φ o).through a

namespace Carries

/-- What is left of the text is displaced like the whole. -/
lemma drop (h : Carries φ o (a ++ b)) : Carries φ (o.through a) b where
  right := h.right
  through c d hcd := by
    rw [← through_append, h.through (a ++ c) d (by rw [hcd, List.append_assoc]), through_append,
      h.through a b rfl]

/-- The place behind a piece of the text. -/
lemma through_eq (h : Carries φ o (a ++ b)) : φ (o.through a) = (φ o).through a :=
  h.through a b rfl

/-- The place of a reader that has come to the text. -/
lemma toward_eq (h : Carries φ o w) : φ (o.toward w) = (φ o).toward w := by
  cases w with
  | nil => rfl
  | cons c w => exact h.through [c] w rfl

end Carries

/-- Every text may be read some lines further down. -/
lemma carries_down (n : UInt32) (o : Position) (w : List Char) : Carries (·.down n) o w where
  right _ _ := rfl
  through a _ _ := (through_down o n a).symm

/-! ### Behind another text -/

/-- Where a place of a text comes to stand if the text `g` is put in front of it:
as many lines further down as `g` has line feeds, and on its first line as many
columns further on as `g` has characters behind the last of them. -/
def behind (g : List Char) (p : Position) : Position where
  line := p.line + UInt32.ofNat (g.count '\n')
  column :=
    if p.line = 1 then p.column + UInt32.ofNat (g.rtakeWhile (· ≠ '\n')).length else p.column

/-- The start of a text comes to stand where the text in front of it ends. -/
lemma behind_start (g : List Char) : start.behind g = after g := by
  rw [behind, after, UInt32.ofNat_add]
  simp [start]

lemma behind_right (g : List Char) (p : Position) (n : UInt32) :
    (p.right n).behind g = (p.behind g).right n := by
  unfold behind right
  split
  · rw [UInt32.add_assoc, UInt32.add_comm n, ← UInt32.add_assoc]
  · rfl

/-- A line that is begun behind the first one keeps its columns. -/
lemma behind_nextLine (g : List Char) {p : Position} (h : p.line ≠ 0) :
    p.nextLine.behind g = (p.behind g).nextLine := by
  have hline : p.nextLine.line ≠ 1 := by simpa [nextLine] using h
  rw [behind, if_neg hline]
  simp only [behind, nextLine, mk.injEq, and_true]
  rw [UInt32.add_assoc, UInt32.add_comm 1, ← UInt32.add_assoc]

lemma behind_past (g : List Char) {p : Position} (h : p.line ≠ 0) (c : Char) :
    (p.past c).behind g = (p.behind g).past c := by
  unfold past
  split
  · exact behind_nextLine g h
  · exact behind_right g p 1

/-- A place is on a line that is counted, unless the line counter has come round. -/
lemma line_after_ne (h : a.length + 1 < UInt32.size) : (after a).line ≠ 0 := by
  have hcount : a.count '\n' ≤ a.length := List.count_le_length
  have hpos : UInt32.ofNat 0 < UInt32.ofNat (1 + a.count '\n') := by
    rw [UInt32.ofNat_lt_iff_lt (by omega) (by omega)]
    omega
  exact (UInt32.ne_of_lt hpos).symm

/-- **Behind another text** a text is read as it is alone, as long as its lines
can be counted. -/
theorem carries_behind (g : List Char) (h : w.length < UInt32.size) :
    Carries (behind g) start w where
  right := behind_right g
  through a b hab := by
    have hlen : a.length < UInt32.size := by
      rw [hab, List.length_append] at h
      omega
    clear hab h
    -- from the front to the back: every further character moves on from a counted line
    induction a using List.reverseRecOn with
    | nil => rfl
    | append_singleton a c ih =>
      rw [List.length_append, List.length_singleton] at hlen
      have hline : (start.through a).line ≠ 0 := by
        rw [through_start]
        exact line_after_ne hlen
      rw [through_append, through_append, ← ih (by omega)]
      exact behind_past g hline c

/-- Behind a folded text the places of another one are those behind the text as it
is written. -/
lemma through_folded_append (h : Carries (behind g) start (a ++ b)) :
    start.through (folded g ++ a) = (start.through a).behind g := by
  rw [through_append, through_folded, through_start, ← behind_start, ← h.through_eq]

end Lexis.Position
