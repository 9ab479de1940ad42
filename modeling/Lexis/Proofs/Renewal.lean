import Lexis.Proofs.Scan.Frame
import Lexis.Proofs.Scan.Session

/-!
# New texts

A new text takes the place of everything that a scanner knew: whatever it went
through before, a fault in the middle of a lexeme, a comment that was left open or
the end of its stream included, it goes on as a new scanner does.  Only the tokens
that were given back are kept, until they are cleared.  A file that cannot be read
changes nothing.

* `Scanner.load_eq`: a new text, beside the same text in a new scanner;
* `Scanner.renewed_replies`: the replies to everything that comes then;
* `Scanner.loadFile_eq`: a file is taken up as its text is;
* `Scanner.load_forgets`: all of it together.
-/

namespace Lexis

variable {ρ : Type}

/-- The same result, with its fault taken as that of a file. -/
def asFile : EStateM.Result Fault Scanner Unit → EStateM.Result (SessionFault ρ) Scanner Unit
  | .ok u s => .ok u s
  | .error f s => .error (.lexical f) s

namespace Scanner

/-- The scanner with other tokens that were given back. -/
def withPending (s : Scanner) (q : List Token) : Scanner := { s with pending := q }

/-- **A new text** is taken up as by a new scanner, with the same result and in the
same state, but that the tokens that were given back are kept. -/
theorem load_eq (s : Scanner) (text : String) :
    load text s = mapState (·.withPending s.pending) (load text .new) := by
  -- the cursor that was there has no part in what the text does to it
  have hcursor : CursorM.load text.toList s.renewed.cursor
      = CursorM.load text.toList Scanner.new.renewed.cursor := rfl
  simp only [load, ScanM.onCursor, hcursor]
  cases CursorM.load text.toList Scanner.new.renewed.cursor <;> rfl

/-- A new text in a new scanner finds no token that was given back. -/
lemma pending_load_new (text : String) : (stateAfter (load text .new)).pending = [] := by
  unfold load ScanM.onCursor
  split <;> rfl

/-- Without the tokens that were given back the scanner of a new text is that of a new
scanner. -/
lemma clearPending_load (s : Scanner) (text : String) :
    (stateAfter (load text s)).clearPending = stateAfter (load text .new) := by
  have hkept : (stateAfter (load text .new)).withPending [] = stateAfter (load text .new) :=
    congrArg (stateAfter (load text .new)).withPending (pending_load_new text).symm
  rw [load_eq, stateAfter_mapState]
  exact hkept

/-- The result is the one that a new scanner has. -/
lemma answer_load (s : Scanner) (text : String) :
    answer (load text s) = answer (load text .new) := by
  rw [load_eq]
  cases load text .new <;> rfl

/-- **The replies** to a new text, and to all that comes when the queue has been
cleared, do not depend on the past. -/
theorem renewed_replies (before after : List (Step ρ)) (text : String) :
    ∃ r rs, new.replies (before ++ .load text :: .call .clearPending :: after)
        = new.replies before ++ r :: .silence :: rs
      ∧ new.replies (.load text :: after) = r :: rs := by
  refine ⟨.done (answer (load text .new)), (stateAfter (load text .new)).replies after, ?_, rfl⟩
  simp only [replies_append, replies_cons, Step.reply, Step.run, Call.reply, Call.run,
    answer_load, clearPending_load]

/-- **A file** that can be read is taken up as its text is. -/
theorem loadFile_eq (s : Scanner) (text : String) :
    loadFile (ρ := ρ) (.ok text) s = asFile (load text s) := by
  simp only [loadFile]
  cases load text s <;> rfl

/-- **A new text** takes the place of everything but the queue. -/
theorem load_forgets (before : List (Step ρ)) (text : String) :
    let s := new.afterSteps before
    load text s = mapState (·.withPending s.pending) (load text .new)
      ∧ (∀ after : List (Step ρ), ∃ r rs,
        new.replies (before ++ .load text :: .call .clearPending :: after)
            = new.replies before ++ r :: .silence :: rs
          ∧ new.replies (.load text :: after) = r :: rs)
      ∧ (∀ bytes : ByteArray, String.fromUTF8? bytes = some text →
        loadFile (decodeText bytes) s = asFile (load text s))
      ∧ ∀ (failure : ρ), loadFile (.error failure) s = .error (.unreadable failure) s := by
  intro s
  refine ⟨load_eq s text, fun after => renewed_replies before after text, fun bytes hbytes => ?_,
    fun failure => rfl⟩
  have hread : decodeText bytes = .ok text := by simp only [decodeText, hbytes]
  rw [hread]
  exact loadFile_eq s text

/-- A file of one word, after a comment that was left open and a token that was given
back. -/
theorem load_forgets_comment :
    let s := new.afterSteps (ρ := ReadFailure)
      [.load "/*", .call .next, .call (.pushBack (.endOfText ⟨7, 7⟩))]
    s.inComment ∧ String.fromUTF8? "a".toUTF8 = some "a"
      ∧ loadFile (decodeText "a".toUTF8) s = asFile (load "a" s)
      ∧ (stateAfter (load "a" s)).inComment = false
      ∧ (stateAfter (load "a" s)).pending = [.endOfText ⟨7, 7⟩] := by
  intro s
  have hbytes : String.fromUTF8? "a".toUTF8 = some "a" := by decide
  obtain ⟨hload, -, hfile, -⟩ := load_forgets (ρ := ReadFailure)
    [.load "/*", .call .next, .call (.pushBack (.endOfText ⟨7, 7⟩))] "a"
  refine ⟨by decide +kernel, hbytes, hfile _ hbytes, ?_, ?_⟩
  · rw [hload, stateAfter_mapState]
    rfl
  · rw [hload, stateAfter_mapState]
    decide +kernel

end Scanner

end Lexis
