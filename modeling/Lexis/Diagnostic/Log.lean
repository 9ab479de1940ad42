import Lexis.Diagnostic.Basic

/-!
# The log of a run

Nothing prints on its own: whatever is found during a run is recorded in a
log, and the host decides whether and how to show it.

* `Log.record`: diagnostics are kept in the order in which they come;
* `Log.hasErrors_iff`: a log has errors exactly if it counts at least one.
-/

namespace Lexis

/-- The diagnostics of a run, the oldest first. -/
structure Log where
  /-- What was recorded. -/
  entries : List Diagnostic := []

namespace Log

/-- Nothing recorded yet. -/
def empty : Log := {}

/-- The log with one more diagnostic. -/
def record (l : Log) (d : Diagnostic) : Log := ⟨l.entries ++ [d]⟩

/-- The number of recorded diagnostics of a level. -/
def count (l : Log) (level : Level) : Nat := l.entries.countP (·.level = level)

/-- Was an error recorded? -/
def hasErrors (l : Log) : Bool := l.entries.any (·.level = .error)

/-- A log has errors exactly if it counts at least one. -/
theorem hasErrors_iff (l : Log) : l.hasErrors ↔ 0 < l.count .error := by
  simp [hasErrors, count, List.countP_pos_iff]

/-- The log shown: every diagnostic in writing, the oldest first. -/
def render (l : Log) : List String := l.entries.map (·.render)

end Log

end Lexis
