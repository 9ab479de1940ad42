/-!
# Positions in a text

A position is a line and a column.  Lines count from one.  The column is the
number of characters already read on the line, so that the first character of
a line stands at column one and the place before it is column zero.

* `Position.start`: the place before the first character of a text;
* `Position.nowhere`: the place of something that stands in no text;
* `Position.render`: a position in writing, `line:column`;
* `Position.lt_iff`: positions are ordered by line, then by column.
-/

namespace Lexis

/-- A line and a column of a text. -/
structure Position where
  /-- The line, counted from one. -/
  line : UInt32
  /-- The number of characters read on that line. -/
  column : UInt32
deriving DecidableEq

namespace Position

/-- The place before the first character of a text. -/
def start : Position := ⟨1, 0⟩

/-- The place of something that stands in no text. -/
def nowhere : Position := ⟨0, 0⟩

instance : Inhabited Position := ⟨nowhere⟩

/-- Does the position belong to no text? -/
def isNowhere (p : Position) : Bool := p == nowhere

/-- The place `n` characters further on the same line. -/
def right (p : Position) (n : UInt32) : Position := { p with column := p.column + n }

/-- The place before the first character of the following line. -/
def nextLine (p : Position) : Position := ⟨p.line + 1, 0⟩

/-- A position in writing: the line, a colon and the column, in decimal. -/
def render (p : Position) : String :=
  p.line.toNat.repr ++ ":" ++ p.column.toNat.repr

/-! ### The order of a text -/

instance : Ord Position where
  compare p q := (compare p.line q.line).then (compare p.column q.column)

instance : LE Position := leOfOrd

instance : LT Position := ltOfOrd

instance : Max Position := maxOfLe

instance : Min Position := minOfLe

/-- A position is before another if its line is, or on one line its column. -/
theorem lt_iff (p q : Position) :
    p < q ↔ p.line < q.line ∨ p.line = q.line ∧ p.column < q.column := by
  have key : p < q ↔ ((compare p.line q.line).then (compare p.column q.column)) = .lt := by
    exact Iff.rfl
  rw [key, Ordering.then_eq_lt]
  simp only [compare, compareOfLessAndEq]
  grind

/-- The positions in the order of the text, equal ones next to each other. -/
def sorted (ps : List Position) : List Position :=
  ps.mergeSort fun p q => (compare p q).isLE

end Position

end Lexis
