import Lexis.Proofs.Scan.Displaced

/-!
# Texts line by line

A text that has tokens and a text after it on a new line are scanned one by one:
nothing is left over from the first when the second begins, and what comes out of
the second stands as many lines further down as the first has lines.

* `Passes.down`, `Faulty.down`: what a text amounts to does not depend on its
  line;
* `Passes.join`: passages one after the other, with a line break between them;
* `tokenize_append_line`: texts one after the other, with a line break between
  them.
-/

namespace Lexis

variable {u u' r : List Char} {o : Position} {f : Fault} {ts us : List Token}

/-! ### Further down -/

/-- The token, `n` lines further down. -/
def Token.down (t : Token) (n : UInt32) : Token := { t with position := t.position.down n }

/-- The fault, `n` lines further down. -/
def Fault.down (f : Fault) (n : UInt32) : Fault := { f with position := f.position.down n }

/-- A passage further down. -/
theorem Passes.down (h : Passes o u r ts) (n : UInt32) :
    Passes (o.down n) u r (ts.map fun t => t.down n) :=
  h.displaced (Position.carries_down n o (u ++ r))

/-- A fault further down. -/
theorem Faulty.down (h : Faulty o r f) (n : UInt32) : Faulty (o.down n) r (f.down n) :=
  h.displaced (Position.carries_down n o r)

/-! ### One after the other -/

/-- Passages one after the other, with a line break between them: a line break
ends everything that the end of a text ends. -/
theorem Passes.join (h : Passes o u [] ts) (h' : Passes (o.through (u ++ ['\n'])) u' r us) :
    Passes o (u ++ '\n' :: u') r (ts ++ us) := by
  generalize hnil : ([] : List Char) = e at h
  induction h with
  | @gap o g e hg =>
    subst hnil
    have hgap : Gaps g ('\n' :: (u' ++ r)) := hg.before (by simp)
    have hbreak : Gaps ['\n'] (u' ++ r) := .of_piece (.blank (by simp))
    rw [List.append_cons]
    exact h'.of_gaps (hgap.append hbreak)
  | @token o g l u e token ts hg hl hv h ih =>
    subst hnil
    rw [List.append_nil] at hg hl
    have hhead : ∀ x ∈ (u ++ '\n' :: u' ++ r).head?, x ∈ u.head? ∨ x = '\n' := by
      cases u <;> simp
    have hl' : Lexeme l (u ++ '\n' :: u' ++ r) token :=
      hl.before fun x hx => (hhead x hx).imp_right Or.inl
    have hg' : Gaps g (l ++ (u ++ '\n' :: u' ++ r)) := by
      refine hg.before ?_
      obtain ⟨x, l, rfl⟩ := List.exists_cons_of_ne_nil hl.ne_nil
      simp
    have hv' : (u ++ '\n' :: u' ++ r).head? ≠ some '\r' := by
      cases u with
      | nil => simp
      | cons x u => simpa using hv
    have hrest := ih (by simpa using h') rfl
    have hpass := Passes.token hg' hl' hv' hrest
    simpa using hpass

/-- A line break between two texts, the first of which has no stray carriage
return. -/
lemma folded_append_line {a : List Char} (ha : '\r' ∉ folded a) (b : List Char) :
    folded (a ++ '\n' :: b) = folded a ++ '\n' :: folded b := by
  rw [folded_append fun h => absurd h (getLast?_ne_of_clean ha), folded_cons_of_ne (by decide)]

/-- A text behind another one and a line break is read from the start on, further
down. -/
lemma Position.through_line (w v : List Char) :
    start.through (w ++ '\n' :: v) = (start.through v).down (UInt32.ofNat (1 + w.count '\n')) := by
  have hstart : start.through (w ++ ['\n']) = start.down (UInt32.ofNat (1 + w.count '\n')) := by
    rw [through_start, after_append_lineFeed, nextLine, after, down, UInt32.add_comm]
    rfl
  rw [List.append_cons, through_append, hstart, through_down]

/-- **Texts line by line.**  If a text has tokens, then those of a text after it
on a new line come after them; or its fault is the fault of both.  Either stands
as many lines further down as the first text has lines.  Lines are counted in 32
bits, and so is their sum: of the texts of fewer than `2 ^ 32` characters only that
of `2 ^ 32 - 1` line feeds has so many that the count begins again at zero. -/
theorem tokenize_append_line {p : String} {ts : List Token} {last : Token}
    (hp : tokenize p = .ok (ts ++ [last])) (q : String) :
    tokenize (p ++ "\n" ++ q) = match tokenize q with
      | .ok us => .ok (ts ++ us.map fun t => t.down (UInt32.ofNat (1 + p.toList.count '\n')))
      | .error f => .error (f.down (UInt32.ofNat (1 + p.toList.count '\n'))) := by
  obtain ⟨hclean, us, hpass, hts⟩ := passes_of_tokenize hp
  obtain ⟨rfl, -⟩ : ts = us ∧ _ := by simpa using hts
  have hw : folded (p ++ "\n" ++ q).toList = folded p.toList ++ '\n' :: folded q.toList :=
    calc
      folded (p ++ "\n" ++ q).toList = folded (p.toList ++ '\n' :: q.toList) := by simp
      _ = folded p.toList ++ '\n' :: folded q.toList := folded_append_line hclean q.toList
  have hplace : ∀ v, Position.start.through (folded p.toList ++ '\n' :: v)
      = (Position.start.through v).down (UInt32.ofNat (1 + p.toList.count '\n')) := by
    intro v
    rw [Position.through_line, count_folded]
  obtain ⟨u, r, us, hq, hu, hpass', hend⟩ := exists_passage .start (folded q.toList)
  have hjoin := hpass.join (by rw [hplace []]; exact hpass'.down _)
  have hu' : '\r' ∉ folded p.toList ++ '\n' :: u := by simp [hclean, hu]
  rcases hend with rfl | ⟨f, hf⟩
  · -- the second text has tokens
    rw [List.append_nil] at hq
    subst hq
    rw [← hw] at hu' hjoin
    have hlast : Position.after (folded (p ++ "\n" ++ q).toList)
        = (Position.after (folded q.toList)).down (UInt32.ofNat (1 + p.toList.count '\n')) := by
      rw [← Position.through_start, ← Position.through_start, hw]
      exact hplace (folded q.toList)
    rw [tokenize_of_passes hu' hjoin, tokenize_of_passes hu hpass', hlast]
    simp only [List.map_append, List.append_assoc]
    rfl
  · -- the second text has a fault
    have hfault := hf.down (UInt32.ofNat (1 + p.toList.count '\n'))
    rw [← hplace] at hfault
    rw [hq, ← List.cons_append, ← List.append_assoc] at hw
    rw [tokenize_of_faulty hw hu' hjoin hfault, tokenize_of_faulty hq hu hpass' hf]

/-- A text of one word, and after it a line with a fault. -/
theorem tokenize_append_line_word :
    tokenize "a" = .ok ([.identifier "a" ⟨1, 1⟩] ++ [.endOfText ⟨1, 1⟩])
      ∧ tokenize ("a" ++ "\n" ++ ".") = .error ⟨.invalidNumber, ⟨2, 1⟩⟩ := by
  have hword : Lexeme ['a'] [] (Token.identifier "a") :=
    .identifier (by decide) (by simp) (by simp) (by decide)
  have hp : tokenize "a" = .ok ([.identifier "a" ⟨1, 1⟩] ++ [.endOfText ⟨1, 1⟩]) :=
    tokenize_of_lexeme (by decide) hword
  have hpoint : Faulty .start ['.'] ⟨.invalidNumber, ⟨1, 1⟩⟩ := .invalidNumber (by simp) (by simp)
  have hq : tokenize "." = .error ⟨.invalidNumber, ⟨1, 1⟩⟩ :=
    tokenize_of_faulty (u := []) rfl (by simp) (.gap .nil) hpoint
  refine ⟨hp, ?_⟩
  rw [tokenize_append_line hp, hq]
  rfl

end Lexis
