import Lexis.Proofs.Scan.Call

/-!
# Sessions one after the other

In the course of its life a scanner takes up one text after another, from memory or
from a file that may not be readable, and is called in any order in between.  To
every step it has one reply, and no step keeps it from taking the next.

* `Step`, `Scanner.afterSteps`: what a scanner may go through, and where that leads;
* `Reply`, `Scanner.replies`: its replies, one to every step;
* `Scanner.replies_append`: what comes later depends on the past by the scanner that
  it leaves;
* `Scanner.afterSteps_induction`: what every step keeps is kept by all of them.
-/

namespace Lexis

variable {ρ : Type}

/-- What a scanner may go through, if `ρ` are the reasons for which a file cannot be
read. -/
inductive Step (ρ : Type) where
  /-- It takes up a new text. -/
  | load (text : String)
  /-- It takes up the text of a file, if the reading of the file brought one. -/
  | loadFile (contents : Except ρ String)
  /-- It is called. -/
  | call (k : Call)

/-- What a scanner replies to a step. -/
inductive Reply (ρ : Type) where
  /-- It has taken up a text or passed a gap, or met with a fault. -/
  | done (a : Except Fault Unit)
  /-- It has taken up the text of a file, or could not. -/
  | opened (a : Except (SessionFault ρ) Unit)
  /-- A token, or the fault in its place. -/
  | token (a : Except Fault Token)
  /-- An item of the stream, or its end. -/
  | item (a : Option (Except Fault Token))
  /-- Nothing was asked. -/
  | silence

/-- The fault that a reply tells of, if it tells of one. -/
def Reply.fault? : Reply ρ → Option Fault
  | done (.error f) | token (.error f) | item (some (.error f)) => some f
  | opened (.error (.lexical f)) => some f
  | _ => none

/-- What the scanner replies to a call. -/
def Call.reply (s : Scanner) : Call → Reply ρ
  | next => .token (answer (Scanner.next s))
  | item => .item s.next?.1
  | skipGaps => .done (answer (Scanner.skipGaps s))
  | readWord => .token (answer (Scanner.readWord s))
  | readNumeral => .token (answer (Scanner.readNumeral s))
  | readQuoted => .token (answer (Scanner.readQuoted s))
  | readMark => .token (answer (Scanner.readMark s))
  | pushBack _ => .silence
  | clearPending => .silence

namespace Step

/-- The text that a step brings, if it brings one. -/
def text? : Step ρ → Option String
  | load text => some text
  | loadFile (.ok text) => some text
  | loadFile (.error _) => none
  | call _ => none

/-- The scanner after a step, whether it ended in a fault or not. -/
def run (s : Scanner) : Step ρ → Scanner
  | load text => stateAfter (Scanner.load text s)
  | loadFile contents => stateAfter (Scanner.loadFile contents s)
  | call k => k.run s

/-- What the scanner replies to a step. -/
def reply (s : Scanner) : Step ρ → Reply ρ
  | load text => .done (answer (Scanner.load text s))
  | loadFile contents => .opened (answer (Scanner.loadFile contents s))
  | call k => k.reply s

end Step

namespace Scanner

/-- A new text out of a file is taken up like any other. -/
lemma stateAfter_loadFile (text : String) (s : Scanner) :
    stateAfter (loadFile (ρ := ρ) (.ok text) s) = stateAfter (load text s) := by
  simp only [loadFile]
  cases load text s <;> rfl

/-- The scanner after the steps. -/
def afterSteps (s : Scanner) (steps : List (Step ρ)) : Scanner := steps.foldl Step.run s

/-- What the scanner replies to the steps, one after the other. -/
def replies (s : Scanner) : List (Step ρ) → List (Reply ρ)
  | [] => []
  | step :: steps => step.reply s :: replies (step.run s) steps

@[simp] lemma afterSteps_nil (s : Scanner) : s.afterSteps ([] : List (Step ρ)) = s := rfl

@[simp] lemma afterSteps_cons (s : Scanner) (step : Step ρ) (steps : List (Step ρ)) :
    s.afterSteps (step :: steps) = (step.run s).afterSteps steps := rfl

@[simp] lemma replies_nil (s : Scanner) : s.replies ([] : List (Step ρ)) = [] := rfl

@[simp] lemma replies_cons (s : Scanner) (step : Step ρ) (steps : List (Step ρ)) :
    s.replies (step :: steps) = step.reply s :: (step.run s).replies steps := rfl

/-- What comes later depends on the past by the scanner that it leaves. -/
theorem replies_append (s : Scanner) (before after : List (Step ρ)) :
    s.replies (before ++ after) = s.replies before ++ (s.afterSteps before).replies after := by
  induction before generalizing s with
  | nil => rfl
  | cons step before ih => rw [List.cons_append, replies_cons, ih, replies_cons]; rfl

/-- What every step keeps is kept by all of them. -/
theorem afterSteps_induction {P : Scanner → Prop} {s : Scanner} {steps : List (Step ρ)}
    (hs : P s) (hstep : ∀ step ∈ steps, ∀ u, P u → P (step.run u)) : P (s.afterSteps steps) := by
  induction steps generalizing s with
  | nil => exact hs
  | cons step steps ih =>
    have hfirst : P (step.run s) := hstep step (by simp) s hs
    exact ih hfirst fun step' hmem => hstep step' (List.mem_cons_of_mem step hmem)

end Scanner

end Lexis
