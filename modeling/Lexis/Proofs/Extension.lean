import Lexis.Proofs.Scan.Item

/-!
# Texts that go on

A text that is cut off anywhere has the tokens of the whole but for its last one,
which the cut may have shortened: what a lexeme amounts to depends on the first
character behind it and on nothing further off.  A fault that is found without
looking behind it is there in the whole text as well.

* `Passes.split`: a passage, cut behind any of its tokens;
* `Faulty.exists_seen`: the part of a text that tells its fault;
* `Scanner.items_before_last`, `Scanner.items_of_foundAtOnce`: the items of the text
  that goes on;
* `Scanner.items_extend`: both of them.
-/

namespace Lexis

variable {u r r' : List Char} {o : Position} {f : Fault} {t : Token} {ts us : List Token}
  {text : String}

/-! ### Passages in part -/

/-- Of what follows a passage the first character matters only. -/
lemma Passes.before (h : Passes o u r ts) (hr : r'.head? = r.head?) : Passes o u r' ts := by
  induction h with
  | gap hg => exact .gap (hg.before fun x hx => Or.inl (hr ▸ hx))
  | @token o g l u r token ts hg hl hv h ih =>
    have hhead : (u ++ r').head? = (u ++ r).head? := by simp [List.head?_append, hr]
    have hgap : (l ++ (u ++ r')).head? = (l ++ (u ++ r)).head? := by
      rw [List.head?_append_of_ne_nil l hl.ne_nil, List.head?_append_of_ne_nil l hl.ne_nil]
    refine .token ?_ ?_ (hhead ▸ hv) (ih hr)
    · exact hg.before fun x hx => Or.inl (hgap ▸ hx)
    · exact hl.before fun x hx => Or.inl (hhead ▸ hx)

/-- A passage, cut behind any of its tokens. -/
theorem Passes.split (h : Passes o u r (ts ++ us)) :
    ∃ a b, u = a ++ b ∧ Passes o a (b ++ r) ts ∧ Passes (o.through a) b r us := by
  induction ts generalizing o u with
  | nil => exact ⟨[], u, rfl, .gap .nil, h⟩
  | cons t ts ih =>
    cases h with
    | @token _ g l u _ token _ hg hl hv h =>
      obtain ⟨a, b, rfl, hfirst, hlast⟩ := ih h
      rw [List.append_assoc] at hg hl hv
      refine ⟨g ++ (l ++ a), b, by simp, .token hg hl hv hfirst, ?_⟩
      rwa [Position.through_append, Position.through_append]

/-- A passage that has tokens is not empty. -/
lemma Passes.ne_nil (h : Passes o u r (t :: ts)) : u ≠ [] := by
  cases h with
  | token _ hl => simp [hl.ne_nil]

/-! ### Faults that are found at once -/

/-- Is the fault found without looking behind what is wrong? -/
def Cause.foundAtOnce : Cause → Bool
  | .integerOverflow | .exponentOverflow | .unrecognizedCharacter _ => true
  | _ => false

/-- The part of a text that tells a fault which is found at once. -/
theorem Faulty.exists_seen (h : Faulty o r f) (hf : f.cause.foundAtOnce) :
    ∃ a b, r = a ++ b ∧ a ≠ [] ∧ '\r' ∉ a ∧ ∀ b', Faulty o (a ++ b') f := by
  cases h with
  | @unrecognizedCharacter c v hc =>
    have hclean : '\r' ∉ [c] := by simpa using hc.not_stray.symm
    exact ⟨[c], v, rfl, by simp, hclean, fun b' => .unrecognizedCharacter hc⟩
  | @integerOverflow d v hd hlt =>
    have hne : d ≠ [] := by
      rintro rfl
      exact absurd hlt (by decide)
    have hclean : '\r' ∉ d := notMem_of_run hd (by decide)
    exact ⟨d, v, rfl, hne, hclean, fun b' => .integerOverflow hd hlt⟩
  | @exponentOverflow m e s d v hm he hs hd hlt =>
    have hclean : '\r' ∉ m.text ++ e :: (s ++ d) := by
      simpa [hm.clean] using Numeral.clean_exponent he hs hd
    exact ⟨m.text ++ e :: (s ++ d), v, rfl, by simp, hclean,
      fun b' => .exponentOverflow hm he hs hd hlt⟩
  | _ => simp [Cause.foundAtOnce] at hf

namespace Scanner

variable {s : Scanner}

/-! ### Items -/

/-- A text that was taken up is before the scanner. -/
lemma readyAt_of_load (hload : load text .new = .ok () s) :
    s.ReadyAt .start (folded text.toList) := by
  obtain ⟨hstray, hclear⟩ := load_new text
  rcases strayFirst_or (folded text.toList) with ⟨v, hv⟩ | hhead
  · obtain ⟨s', hload'⟩ := hstray v hv
    cases hload.symm.trans hload'
  · obtain ⟨s', hload', hs⟩ := hclear hhead
    cases hload.symm.trans hload'
    exact hs

/-- However a text goes on that begins with something else than a stray carriage
return, it is taken up and begins so. -/
lemma exists_load_append (hw : folded text.toList = u ++ r) (hclean : '\r' ∉ u) (hne : u ≠ [])
    (more : String) :
    ∃ s v, load (text ++ more) .new = .ok () s ∧ folded (text ++ more).toList = u ++ v := by
  obtain ⟨v, hv⟩ := exists_folded_append hw hclean more.toList
  rw [← String.toList_append] at hv
  obtain ⟨-, hclear⟩ := load_new (text ++ more)
  rw [hv, List.head?_append_of_ne_nil u hne] at hclear
  obtain ⟨s, hload, -⟩ := hclear fun hhead => hclean (List.mem_of_mem_head? hhead)
  exact ⟨s, v, hload, hv⟩

/-- The items of a text are the tokens of its passage and the fault behind it, if
there is one. -/
lemma exists_items (hload : load text .new = .ok () s) :
    ∃ u r ts, folded text.toList = u ++ r ∧ '\r' ∉ u ∧ Passes .start u r ts
      ∧ (s.drain.1 = ts.map .ok
        ∨ ∃ f, Faulty (Position.start.through u) r f ∧ s.drain.1 = ts.map .ok ++ [.error f]) := by
  obtain ⟨u, r, ts, hw, hclean, hpass, rfl | ⟨f, hf⟩⟩ := exists_passage .start (folded text.toList)
  · refine ⟨u, [], ts, hw, hclean, hpass, Or.inl ?_⟩
    have hs := readyAt_of_load hload
    rw [hw, List.append_nil] at hs
    obtain ⟨s₁, s₂, hands, hr⟩ := hs.hands_end hpass hclean
    exact hands.items_of_end (exhausted_of_load hload) hr rfl
  · exact ⟨u, r, ts, hw, hclean, hpass,
      Or.inr ⟨f, hf, (failsAfter_of_faulty hw hclean hpass hf).items_eq hload⟩⟩

/-- The tokens of a passage that a text begins with are its first items. -/
lemma prefix_items (hload : load text .new = .ok () s) (hw : folded text.toList = u ++ r)
    (hclean : '\r' ∉ u) (h : Passes .start u r ts) : ts.map .ok <+: s.drain.1 := by
  have hs := readyAt_of_load hload
  rw [hw] at hs
  obtain ⟨s₁, -, -, hands, -⟩ := ReadyAt.hands h hs hclean
  obtain ⟨-, hitems⟩ := hands.items_eq (exhausted_of_load hload)
  exact ⟨s₁.drain.1, hitems.symm⟩

/-- **All tokens but the last** are there however the text goes on. -/
theorem items_before_last {text : String} (hload : load text .new = .ok () s)
    (hitems : (ts ++ [t]).map .ok <+: s.drain.1) (more : String) :
    ∃ s', load (text ++ more) .new = .ok () s' ∧ ts.map .ok <+: s'.drain.1 := by
  obtain ⟨u, r, all, hw, hclean, hpass, hall⟩ := exists_items hload
  obtain ⟨us, rfl⟩ : ts ++ [t] <+: all := by
    have h := hitems.filterMap Except.toOption
    rcases hall with hall | ⟨f, -, hall⟩ <;>
      simpa [hall, Function.comp_def, Except.toOption, List.filterMap_cons] using h
  rw [List.append_assoc] at hpass
  obtain ⟨a, b, rfl, hfirst, hlast⟩ := hpass.split
  -- the last token begins behind the others: the cut is not in front of that
  obtain ⟨x, b, rfl⟩ := List.exists_cons_of_ne_nil hlast.ne_nil
  have hx : '\r' ∉ a ++ [x] := fun h => hclean (by simp at h ⊢; tauto)
  obtain ⟨s', v, hload', hw'⟩ : ∃ s v, load (text ++ more) .new = .ok () s
      ∧ folded (text ++ more).toList = (a ++ [x]) ++ v :=
    exists_load_append (r := b ++ r) (by simpa using hw) hx (by simp) more
  have hfirst' : Passes .start a ([x] ++ v) ts := hfirst.before (by simp)
  rw [List.append_assoc] at hw'
  exact ⟨s', hload', prefix_items hload' hw' (fun h => hx (by simp [h])) hfirst'⟩

/-- **A fault that is found at once** is there however the text goes on, behind the
same tokens. -/
theorem items_of_foundAtOnce (hload : load text .new = .ok () s)
    (hitems : s.drain.1 = ts.map .ok ++ [.error f]) (hf : f.cause.foundAtOnce) (more : String) :
    ∃ s', load (text ++ more) .new = .ok () s' ∧ s'.drain.1 = s.drain.1 := by
  obtain ⟨u, r, all, hw, hclean, hpass, hall⟩ := exists_items hload
  obtain ⟨f', hfault, hend⟩ :=
    hall.resolve_left fun hall => map_ok_ne_append_error all ts f (hall.symm.trans hitems)
  obtain rfl : f' = f := error_inj (hend.symm.trans hitems)
  obtain ⟨a, b, rfl, hne, ha, hseen⟩ := hfault.exists_seen hf
  have hua : '\r' ∉ u ++ a := by simp [hclean, ha]
  obtain ⟨s', v, hload', hw'⟩ : ∃ s v, load (text ++ more) .new = .ok () s
      ∧ folded (text ++ more).toList = (u ++ a) ++ v :=
    exists_load_append (r := b) (by simpa using hw) hua (by simp [hne]) more
  have hpass' : Passes .start u (a ++ v) all :=
    hpass.before (by rw [List.head?_append_of_ne_nil a hne, List.head?_append_of_ne_nil a hne])
  rw [List.append_assoc] at hw'
  have hfails := failsAfter_of_faulty hw' hclean hpass' (hseen v)
  exact ⟨s', hload', (hfails.items_eq hload').trans hend.symm⟩

/-- **Texts that go on.**  However a text goes on, all its tokens but the last are
there; and if its fault is found at once, its items are the same. -/
theorem items_extend (hload : load text .new = .ok () s) (more : String) :
    (∀ (ts : List Token) t, (ts ++ [t]).map .ok <+: s.drain.1 →
        ∃ s', load (text ++ more) .new = .ok () s' ∧ ts.map .ok <+: s'.drain.1)
      ∧ ∀ (ts : List Token) f, s.drain.1 = ts.map .ok ++ [.error f] → f.cause.foundAtOnce →
        ∃ s', load (text ++ more) .new = .ok () s' ∧ s'.drain.1 = s.drain.1 :=
  ⟨fun _ _ hitems => items_before_last hload hitems more,
    fun _ _ hitems hf => items_of_foundAtOnce hload hitems hf more⟩

/-- A text that is cut off between the two characters of a line ending, behind a
character that begins nothing. -/
theorem items_extend_lineEnding :
    let s := stateAfter (load "a b ?\r" .new)
    let a := Token.identifier "a" ⟨1, 1⟩
    let b := Token.identifier "b" ⟨1, 3⟩
    let f : Fault := ⟨.unrecognizedCharacter '?', ⟨1, 5⟩⟩
    load "a b ?\r" .new = .ok () s ∧ s.drain.1 = [.ok a, .ok b, .error f]
      ∧ f.cause.foundAtOnce
      ∧ ∃ s', load ("a b ?\r" ++ "\nc") .new = .ok () s' ∧ [.ok a] <+: s'.drain.1
        ∧ s'.drain.1 = s.drain.1 := by
  intro s a b f
  have hload : load "a b ?\r" .new = .ok () s := rfl
  have hitems : s.drain.1 = [.ok a, .ok b, .error f] := by decide +kernel
  obtain ⟨hbefore, hfound⟩ := items_extend hload "\nc"
  obtain ⟨s', hload', hprefix⟩ := hbefore [a] b ⟨[.error f], hitems.symm⟩
  obtain ⟨s'', hload'', hsame⟩ := hfound [a, b] f hitems rfl
  cases hload'.symm.trans hload''
  exact ⟨hload, hitems, rfl, s', hload', hprefix, hsame⟩

end Scanner

end Lexis
