import Lexis.Proofs.Source.Folding
import Lexis.Source.Position
import Mathlib.Data.List.DropRight

/-!
# Places in a text

Where a text leaves its reader: a line feed begins a line, and every other
character moves on by one column.

* `Position.through`: the place behind a text that is read from a place on;
* `Position.after`: the place behind a text, counted out: the line is the number
  of line feeds and one, the column the number of characters behind the last
  line feed;
* `Position.through_start`: the two agree at the start of a text;
* `Position.through_folded`: folding a text moves nothing behind it;
* `Position.first_lt`, `Position.not_after_lt`: the characters of a text, and its
  end, stand in the order of the text;
* `Position.through_down`: a text that is read some lines further down leaves its
  reader as many lines further down.
-/

namespace Lexis.Position

/-! ### Moving over a text -/

/-- The place behind a character. -/
def past (p : Position) (c : Char) : Position := if c = '\n' then p.nextLine else p.right 1

/-- The place behind a text. -/
def through (p : Position) (text : List Char) : Position := text.foldl past p

/-- The place of a reader that has the first character of a text in its window,
or has come to the end if there is none. -/
def toward (p : Position) : List Char → Position
  | [] => p
  | c :: _ => p.past c

@[simp] lemma through_nil (p : Position) : p.through [] = p := rfl

@[simp] lemma through_cons (p : Position) (c : Char) (text : List Char) :
    p.through (c :: text) = (p.past c).through text := rfl

@[simp] lemma through_append (p : Position) (a b : List Char) :
    p.through (a ++ b) = (p.through a).through b := List.foldl_append

@[simp] lemma toward_nil (p : Position) : p.toward [] = p := rfl

@[simp] lemma toward_cons (p : Position) (c : Char) (text : List Char) :
    p.toward (c :: text) = p.past c := rfl

@[simp] lemma past_lineFeed (p : Position) : p.past '\n' = p.nextLine := rfl

lemma past_of_ne {c : Char} (h : c ≠ '\n') (p : Position) : p.past c = p.right 1 := by
  rw [past, if_neg h]

/-! ### Counting -/

/-- The place behind a text that is read from its start: one line more than it
has line feeds, and as many columns as it has characters behind the last of
them. -/
def after (text : List Char) : Position where
  line := UInt32.ofNat (1 + text.count '\n')
  column := UInt32.ofNat (text.rtakeWhile (· ≠ '\n')).length

/-- A line feed more: the next line. -/
lemma after_append_lineFeed (text : List Char) :
    after (text ++ ['\n']) = (after text).nextLine := by
  have hcol : (text ++ ['\n']).rtakeWhile (· ≠ '\n') = [] := by
    rw [List.rtakeWhile_concat_neg]
    simp
  rw [after, nextLine, after, hcol, List.count_append]
  simp only [List.count_singleton_self, List.length_nil, ← Nat.add_assoc, UInt32.ofNat_add]
  rfl

/-- Another character more: the next column. -/
lemma after_append_of_ne {c : Char} (h : c ≠ '\n') (text : List Char) :
    after (text ++ [c]) = (after text).right 1 := by
  have hcol : (text ++ [c]).rtakeWhile (· ≠ '\n') = text.rtakeWhile (· ≠ '\n') ++ [c] := by
    rw [List.rtakeWhile_concat_pos]
    simpa using h
  rw [after, right, after, hcol, List.count_append, List.count_singleton, List.length_append]
  simp [h, UInt32.ofNat_add]

/-- One character more. -/
lemma after_append_singleton (text : List Char) (c : Char) :
    after (text ++ [c]) = (after text).past c := by
  by_cases h : c = '\n'
  · rw [h, after_append_lineFeed, past_lineFeed]
  · rw [after_append_of_ne h, past_of_ne h]

/-- Moving over a text and counting it out come to the same place. -/
theorem after_append (a b : List Char) : after (a ++ b) = (after a).through b := by
  induction b generalizing a with
  | nil => simp
  | cons c b ih => rw [List.append_cons, ih, after_append_singleton, through_cons]

lemma after_append_append (a b c : List Char) :
    after (a ++ (b ++ c)) = ((after a).through b).through c := by
  rw [after_append, through_append]

/-- The place behind a text that is read from its start, counted out. -/
theorem through_start (text : List Char) : start.through text = after text :=
  (after_append [] text).symm

/-- Folding a text moves nothing behind it: a carriage return is either kept, or
on the line that the line feed after it ends. -/
theorem through_folded (p : Position) (text : List Char) :
    p.through (folded text) = p.through text := by
  induction text using foldedInduction generalizing p with
  | nil => rfl
  | lineEnding text ih =>
    rw [folded_lineEnding, through_cons, ih]
    rfl
  | keep c text hc ih => rw [folded_cons hc, through_cons, ih, through_cons]

/-- Folding a text moves nothing behind it. -/
lemma after_folded (text : List Char) : after (folded text) = after text :=
  calc
    after (folded text) = start.through (folded text) := (through_start _).symm
    _ = start.through text := through_folded start text
    _ = after text := through_start text

/-! ### The order of a text -/

variable {a b : List Char}

/-- The columns of a text that a line goes on with. -/
lemma length_rtakeWhile_append (h : '\n' ∉ b) :
    ((a ++ b).rtakeWhile (· ≠ '\n')).length
      = (a.rtakeWhile (· ≠ '\n')).length + b.length := by
  have hb : ∀ x ∈ b.reverse, decide (x ≠ '\n') := by
    intro x hx
    have hne : x ≠ '\n' := by
      rintro rfl
      exact h (List.mem_reverse.mp hx)
    simpa using hne
  rw [List.rtakeWhile, List.reverse_append, List.takeWhile_append_of_pos hb]
  simp [List.rtakeWhile, Nat.add_comm]

lemma length_rtakeWhile_le (a : List Char) : (a.rtakeWhile (· ≠ '\n')).length ≤ a.length :=
  (List.rtakeWhile_suffix _ _).length_le

/-- Where a character stands that begins no line. -/
lemma first_eq (a : List Char) : (after a).right 1
    = ⟨UInt32.ofNat (1 + a.count '\n'),
      UInt32.ofNat ((a.rtakeWhile (· ≠ '\n')).length + 1)⟩ := by
  rw [UInt32.ofNat_add _ 1]
  rfl

/-- Characters stand in the order of the text. -/
theorem first_lt (hb : b ≠ []) (hlen : (a ++ b).length + 1 < UInt32.size) :
    (after a).right 1 < (after (a ++ b)).right 1 := by
  have hlines : (a ++ b).count '\n' ≤ (a ++ b).length := List.count_le_length
  have hcolumns := length_rtakeWhile_le (a ++ b)
  rw [first_eq, first_eq, lt_iff]
  by_cases hbreak : '\n' ∈ b
  · have hmore : 0 < b.count '\n' := List.count_pos_iff.mpr hbreak
    rw [List.count_append] at hlines ⊢
    left
    rw [UInt32.ofNat_lt_iff_lt (by omega) (by omega)]
    omega
  · have hnone : b.count '\n' = 0 := List.count_eq_zero.mpr hbreak
    have hmore : 0 < b.length := List.length_pos_iff.mpr hb
    rw [length_rtakeWhile_append hbreak] at hcolumns ⊢
    right
    refine ⟨by simp [hnone], ?_⟩
    rw [UInt32.ofNat_lt_iff_lt (by omega) (by omega)]
    omega

/-- The end of a text does not stand before any of its characters. -/
theorem not_after_lt {x : Char} (hx : x ≠ '\n') (hlen : (a ++ x :: b).length < UInt32.size) :
    ¬after (a ++ x :: b) < (after a).right 1 := by
  have hlines : (x :: b).count '\n' ≤ b.length := by
    rw [List.count_cons_of_ne hx]
    exact List.count_le_length
  have hcolumns := length_rtakeWhile_le (a ++ x :: b)
  have hbefore := length_rtakeWhile_le a
  have hbefore' : a.count '\n' ≤ a.length := List.count_le_length
  rw [List.length_append, List.length_cons] at hlen hcolumns
  rw [first_eq, after, lt_iff, List.count_append]
  by_cases hbreak : '\n' ∈ x :: b
  · have hmore : 0 < (x :: b).count '\n' := List.count_pos_iff.mpr hbreak
    have hlt : UInt32.ofNat (1 + a.count '\n')
        < UInt32.ofNat (1 + (a.count '\n' + (x :: b).count '\n')) := by
      rw [UInt32.ofNat_lt_iff_lt (by omega) (by omega)]
      omega
    rintro (h | ⟨h, -⟩)
    · exact absurd h (UInt32.lt_asymm hlt)
    · exact absurd h.symm (UInt32.ne_of_lt hlt)
  · rw [length_rtakeWhile_append hbreak, List.length_cons] at hcolumns ⊢
    rw [List.count_eq_zero.mpr hbreak]
    rintro (h | ⟨-, h⟩)
    · exact absurd h (by simp)
    · rw [UInt32.ofNat_lt_iff_lt (by omega) (by omega)] at h
      omega

/-! ### Further down -/

/-- The same column, `n` lines further down. -/
def down (p : Position) (n : UInt32) : Position := { p with line := p.line + n }

lemma past_down (p : Position) (n : UInt32) (c : Char) :
    (p.down n).past c = (p.past c).down n := by
  unfold past
  split
  · simp only [nextLine, down, Position.mk.injEq, and_true]
    rw [UInt32.add_assoc, UInt32.add_comm n, ← UInt32.add_assoc]
  · rfl

lemma through_down (p : Position) (n : UInt32) (text : List Char) :
    (p.down n).through text = (p.through text).down n := by
  induction text generalizing p with
  | nil => rfl
  | cons c text ih => rw [through_cons, past_down, ih, through_cons]

end Lexis.Position
