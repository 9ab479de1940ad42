import Lexis.Diagnostic.Basic
import Lexis.Proofs.Grammar.Numeral
import Mathlib.Data.List.Basic

/-!
# Diagnostics in writing

A diagnostic in writing tells everything that it is made of, as long as its texts keep
to one line each and the family of its code can be told from the number behind it: two
diagnostics that are written alike are the same.

* `Position.render_injective`: places that are written alike are the same;
* `Code.Plain`, `Code.render_injOn`: so are codes;
* `Detail`, `Detail.line_injective`: so are the lines behind the first one;
* `Diagnostic.Plain`, `Diagnostic.headline_injOn`: so are first lines;
* `Diagnostic.lines_eq_of_render_eq`: diagnostics that are written alike have the same
  lines;
* `Diagnostic.render_eq_render_iff`: diagnostics that are written alike are the same.
-/

namespace Lexis

variable {a a' b b' l : List Char} {x : Char}

/-- A text is cut in two by the first one of its separators. -/
lemma append_cons_inj (ha : x ∉ a) (ha' : x ∉ a') (h : a ++ x :: b = a' ++ x :: b') :
    a = a' ∧ b = b' := by
  rcases List.append_eq_append_iff.mp h with ⟨d, rfl, hd⟩ | ⟨d, rfl, hd⟩
  · cases d with
    | nil => simpa using hd
    | cons y d =>
      obtain ⟨rfl, -⟩ : x = y ∧ b = d ++ x :: b' := by simpa using hd
      simp at ha'
  · cases d with
    | nil => simpa [eq_comm] using hd
    | cons y d =>
      obtain ⟨rfl, -⟩ : x = y ∧ b' = d ++ x :: b := by simpa using hd
      simp at ha

/-! ### Numbers -/

namespace Numeral

/-- Zeros in front of a number do not change its value. -/
lemma decimal_leftpad (n : Nat) (l : List Char) : decimal (l.leftpad n '0') = decimal l := by
  rw [List.leftpad]
  induction n - l.length with
  | zero => rfl
  | succ k ih => rw [List.replicate_succ, List.cons_append, ← ih]; rfl

/-- A number in writing consists of digits. -/
lemma isDigit_of_mem_repr {n : Nat} (h : x ∈ n.repr.toList) : Lexis.isDigit x := by
  rw [Nat.repr_eq_ofList_toDigits, String.toList_ofList] at h
  exact isDigit_of_mem_toDigits h

/-- A number in writing has the value of the number. -/
lemma decimal_repr (n : Nat) : decimal n.repr.toList = n := by
  rw [Nat.repr_eq_ofList_toDigits, String.toList_ofList, decimal_toDigits]

end Numeral

/-- Numbers that are written alike are the same. -/
lemma eq_of_decimal_eq {m n : UInt32} {l l' : List Char} (h : l = l')
    (hm : Numeral.decimal l = m.toNat) (hn : Numeral.decimal l' = n.toNat) : m = n := by
  rw [← UInt32.toNat_inj, ← hm, ← hn, h]

namespace Position

lemma toList_render (p : Position) :
    p.render.toList = p.line.toNat.repr.toList ++ ':' :: p.column.toNat.repr.toList := by
  rw [render, String.toList_append, String.toList_append, List.append_assoc]
  rfl

/-- **Positions** that are written alike are the same. -/
theorem render_injective : Function.Injective render := by
  intro p q h
  have hcolon (n : Nat) : ':' ∉ n.repr.toList := fun hmem =>
    absurd (Numeral.isDigit_of_mem_repr hmem) (by decide)
  have hchars := congrArg String.toList h
  rw [toList_render, toList_render] at hchars
  obtain ⟨hline, hcolumn⟩ := append_cons_inj (hcolon _) (hcolon _) hchars
  cases p
  cases q
  rw [Position.mk.injEq]
  exact ⟨eq_of_decimal_eq hline (Numeral.decimal_repr _) (Numeral.decimal_repr _),
    eq_of_decimal_eq hcolumn (Numeral.decimal_repr _) (Numeral.decimal_repr _)⟩

end Position

/-! ### Codes -/

namespace Code

/-- The family of the code stays on its line, inside of brackets, and apart from the
number behind it. -/
structure Plain (c : Code) : Prop where
  oneLine : '\n' ∉ c.family.toList
  noBracket : ']' ∉ c.family.toList
  noDigit : ∀ x ∈ c.family.toList.getLast?, isDigit x = false

lemma toList_render (c : Code) :
    c.render.toList = c.family.toList ++ c.number.toNat.repr.toList.leftpad 4 '0' := by
  rw [render, paddedNumber, String.toList_append, String.toList_ofList]

/-- The number of a code consists of digits. -/
lemma isDigit_of_mem_leftpad {n : Nat} (h : x ∈ n.repr.toList.leftpad 4 '0') : isDigit x := by
  rw [List.leftpad, List.mem_append, List.mem_replicate] at h
  rcases h with ⟨-, rfl⟩ | h
  · decide
  · exact Numeral.isDigit_of_mem_repr h

/-- A character that is no digit and not in the family of a code is not in the code. -/
lemma notMem_render {c : Code} (hx : isDigit x = false) (h : x ∉ c.family.toList) :
    x ∉ c.render.toList := by
  rw [toList_render, List.mem_append]
  rintro (hmem | hmem)
  · exact h hmem
  · simp [isDigit_of_mem_leftpad hmem] at hx

/-- A text that does not end in a digit is told from the digits behind it. -/
lemma eq_of_append_digits {d d' : List Char} (ha : ∀ x ∈ a.getLast?, isDigit x = false)
    (ha' : ∀ x ∈ a'.getLast?, isDigit x = false) (hd : ∀ x ∈ d, isDigit x)
    (hd' : ∀ x ∈ d', isDigit x) (h : a ++ d = a' ++ d') : a = a' ∧ d = d' := by
  -- digits at the end of the one text would be digits behind the other
  have hnone {e e' w : List Char} (hlast : ∀ x ∈ (w ++ e).getLast?, isDigit x = false)
      (hdigits : ∀ x ∈ e ++ e', isDigit x) : e = [] := by
    rcases List.eq_nil_or_concat e with rfl | ⟨e, y, rfl⟩
    · rfl
    · have hy := hlast y (by simp [← List.append_assoc])
      simp [hdigits y (by simp)] at hy
  rcases List.append_eq_append_iff.mp h with ⟨e, rfl, rfl⟩ | ⟨e, rfl, rfl⟩
  · obtain rfl : e = [] := hnone ha' hd
    simp
  · obtain rfl : e = [] := hnone ha hd'
    simp

/-- **Codes** that are written alike are the same. -/
theorem render_injOn {c c' : Code} (hc : c.Plain) (hc' : c'.Plain) (h : c.render = c'.render) :
    c = c' := by
  have hchars := congrArg String.toList h
  rw [toList_render, toList_render] at hchars
  obtain ⟨hfamily, hnumber⟩ := eq_of_append_digits hc.noDigit hc'.noDigit
    (fun _ => isDigit_of_mem_leftpad) (fun _ => isDigit_of_mem_leftpad) hchars
  have hvalue (n : Nat) : Numeral.decimal (n.repr.toList.leftpad 4 '0') = n := by
    rw [Numeral.decimal_leftpad, Numeral.decimal_repr]
  cases c
  cases c'
  rw [Code.mk.injEq]
  exact ⟨String.toList_inj.mp hfamily, eq_of_decimal_eq hnumber (hvalue _) (hvalue _)⟩

end Code

/-! ### The lines behind the first one -/

/-- What a diagnostic has to tell besides its message. -/
inductive Detail where
  /-- Where. -/
  | place (p : Position)
  /-- An explanation. -/
  | note (text : String)
  /-- A piece of advice. -/
  | help (text : String)

namespace Detail

/-- The line of a detail. -/
def line : Detail → String
  | place p => "  --> " ++ p.render
  | note text => "  = note: " ++ text
  | help text => "  = help: " ++ text

/-- The place, if that is what the detail tells. -/
def place? : Detail → Option Position
  | place p => some p
  | _ => none

/-- The explanation, if the detail is one. -/
def note? : Detail → Option String
  | note text => some text
  | _ => none

/-- The piece of advice, if the detail is one. -/
def help? : Detail → Option String
  | help text => some text
  | _ => none

/-- **Details** whose lines are alike are the same: each line begins with a mark of its
own. -/
theorem line_injective : Function.Injective line := by
  intro d d' h
  have hchars := congrArg String.toList h
  cases d <;> cases d' <;> simp [line] at hchars
  case place.place p q => rw [Position.render_injective (String.toList_inj.mp hchars)]
  case note.note text text' => rw [String.toList_inj.mp hchars]
  case help.help text text' => rw [String.toList_inj.mp hchars]

/-- A detail of one line has no line feed in it. -/
lemma noLineFeed_line {d : Detail} (hnote : ∀ text ∈ d.note?, '\n' ∉ text.toList)
    (hhelp : ∀ text ∈ d.help?, '\n' ∉ text.toList) : '\n' ∉ d.line.toList := by
  cases d with
  | note text => simpa [line] using hnote text rfl
  | help text => simpa [line] using hhelp text rfl
  | place p =>
    have hnumber (n : Nat) : '\n' ∉ n.repr.toList := fun hmem =>
      absurd (Numeral.isDigit_of_mem_repr hmem) (by decide)
    have hline := hnumber p.line.toNat
    have hcolumn := hnumber p.column.toNat
    rw [line, String.toList_append, Position.toList_render]
    simp only [List.mem_append, List.mem_cons, not_or]
    exact ⟨by decide, hline, by decide, hcolumn⟩

end Detail

/-! ### Diagnostics -/

namespace Diagnostic

variable {d d' : Diagnostic}

/-- Every text of the diagnostic keeps to one line, and its code can be read off its
first one. -/
structure Plain (d : Diagnostic) : Prop where
  message : '\n' ∉ d.message.toList
  code : ∀ c ∈ d.code, c.Plain
  notes : ∀ text ∈ d.notes, '\n' ∉ text.toList
  helps : ∀ text ∈ d.helps, '\n' ∉ text.toList

/-- What the diagnostic has to tell besides its message, in order. -/
def details (d : Diagnostic) : List Detail :=
  (if d.position.isNowhere then [] else [.place d.position]) ++ d.notes.map .note
    ++ d.helps.map .help

/-- Behind the first line there is one line for each detail. -/
lemma lines_eq (d : Diagnostic) : d.lines = d.headline :: d.details.map Detail.line := by
  unfold lines details locationLines
  split <;> simp [Detail.line, Function.comp_def]

lemma filterMap_place? (d : Diagnostic) :
    d.details.filterMap Detail.place? = if d.position.isNowhere then [] else [d.position] := by
  unfold details
  split <;>
    simp [List.filterMap_append, List.filterMap_map, Function.comp_def, Detail.place?]

lemma filterMap_note? (d : Diagnostic) : d.details.filterMap Detail.note? = d.notes := by
  unfold details
  split <;>
    simp [List.filterMap_append, List.filterMap_map, List.filterMap_cons, Function.comp_def,
      Detail.note?]

lemma filterMap_help? (d : Diagnostic) : d.details.filterMap Detail.help? = d.helps := by
  unfold details
  split <;>
    simp [List.filterMap_append, List.filterMap_map, List.filterMap_cons, Function.comp_def,
      Detail.help?]

/-- The details tell the place, the notes and the helps. -/
lemma of_details_eq (h : d.details = d'.details) :
    d.position = d'.position ∧ d.notes = d'.notes ∧ d.helps = d'.helps := by
  refine ⟨?_, by rw [← filterMap_note?, h, filterMap_note?],
    by rw [← filterMap_help?, h, filterMap_help?]⟩
  -- a place that is nowhere is told by there being none
  have hplaces := congrArg (List.filterMap Detail.place?) h
  rw [filterMap_place?, filterMap_place?] at hplaces
  simp only [Position.isNowhere, beq_iff_eq] at hplaces
  grind

/-- The level comes first, and the message last. -/
lemma toList_headline (d : Diagnostic) : d.headline.toList = d.level.render.toList
    ++ match d.code with
      | some c => '[' :: (c.render.toList ++ ']' :: ':' :: ' ' :: d.message.toList)
      | none => ':' :: ' ' :: d.message.toList := by
  cases hcode : d.code <;> simp [headline, hcode]

/-- A level is told by its first character. -/
lemma level_append_inj {l l' : Level}
    (h : l.render.toList ++ a = l'.render.toList ++ a') : l = l' ∧ a = a' := by
  cases l <;> cases l' <;> simp [Level.render] at h <;> exact ⟨rfl, h⟩

/-- **First lines** that are alike are those of the same level, code and message. -/
theorem headline_injOn (hd : ∀ c ∈ d.code, c.Plain) (hd' : ∀ c ∈ d'.code, c.Plain)
    (h : d.headline = d'.headline) :
    d.level = d'.level ∧ d.code = d'.code ∧ d.message = d'.message := by
  have hchars := congrArg String.toList h
  rw [toList_headline, toList_headline] at hchars
  obtain ⟨hlevel, hrest⟩ := level_append_inj hchars
  refine ⟨hlevel, ?_⟩
  cases hcode : d.code with
  | none =>
    cases hcode' : d'.code with
    | none => simpa [hcode, hcode', String.toList_inj] using hrest
    | some c' => simp [hcode, hcode'] at hrest
  | some c =>
    cases hcode' : d'.code with
    | none => simp [hcode, hcode'] at hrest
    | some c' =>
      have hc := hd c hcode
      have hc' := hd' c' hcode'
      simp only [hcode, hcode', List.cons.injEq, true_and] at hrest
      obtain ⟨hsame, hmessage⟩ := append_cons_inj (Code.notMem_render (by decide) hc.noBracket)
        (Code.notMem_render (by decide) hc'.noBracket) hrest
      rw [Code.render_injOn hc hc' (String.toList_inj.mp hsame)]
      exact ⟨rfl, by simpa [String.toList_inj] using hmessage⟩

/-- Every line of the diagnostic is one line. -/
lemma Plain.noLineFeed (h : d.Plain) : ∀ line ∈ d.lines, '\n' ∉ line.toList := by
  rw [lines_eq, List.forall_mem_cons]
  constructor
  · have hlevel : '\n' ∉ d.level.render.toList := by cases d.level <;> decide
    have hmessage := h.message
    rw [toList_headline]
    cases hcode : d.code with
    | none => simp [hlevel, hmessage]
    | some c =>
      have hrender := Code.notMem_render (by decide) (h.code c hcode).oneLine
      simp [hlevel, hmessage, hrender]
  · intro line hline
    obtain ⟨detail, hdetail, rfl⟩ := List.mem_map.mp hline
    refine Detail.noLineFeed_line (fun text ht => h.notes text ?_) fun text ht => h.helps text ?_
    · exact filterMap_note? d ▸ List.mem_filterMap.mpr ⟨detail, hdetail, ht⟩
    · exact filterMap_help? d ▸ List.mem_filterMap.mpr ⟨detail, hdetail, ht⟩

/-- Diagnostics that are written alike have the same lines. -/
lemma lines_eq_of_render_eq (hd : d.Plain) (hd' : d'.Plain) (h : d.render = d'.render) :
    d.lines = d'.lines := by
  have hsplit {d : Diagnostic} (hd : d.Plain) :
      d.render.toList.splitOn '\n' = d.lines.map String.toList := by
    have hne : d.lines.map String.toList ≠ [] := by simp [lines_eq]
    rw [render, String.toList_intercalate]
    exact List.splitOn_intercalate '\n' (List.forall_mem_map.mpr hd.noLineFeed) hne
  have hchars : d.lines.map String.toList = d'.lines.map String.toList := by
    rw [← hsplit hd, ← hsplit hd', h]
  exact List.map_injective_iff.mpr (fun _ _ => String.toList_inj.mp) hchars

end Diagnostic

/-- **Diagnostics in writing** tell everything that they are made of: those that are
written alike are of the same level, code, message and place, with the same notes and
helps in order.  So do codes, whatever their numbers. -/
theorem Diagnostic.render_eq_render_iff :
    (∀ d d' : Diagnostic, d.Plain → d'.Plain → (d.render = d'.render ↔ d = d'))
      ∧ ∀ c c' : Code, c.Plain → c'.Plain → (c.render = c'.render ↔ c = c') := by
  refine ⟨fun d d' hd hd' => ⟨fun h => ?_, congrArg render⟩,
    fun c c' hc hc' => ⟨Code.render_injOn hc hc', congrArg Code.render⟩⟩
  have hlines := lines_eq_of_render_eq hd hd' h
  rw [lines_eq, lines_eq, List.cons.injEq] at hlines
  obtain ⟨hlevel, hcode, hmessage⟩ := headline_injOn hd.code hd'.code hlines.1
  have hdetails := List.map_injective_iff.mpr Detail.line_injective hlines.2
  obtain ⟨hposition, hnotes, hhelps⟩ := of_details_eq hdetails
  cases d
  cases d'
  rw [Diagnostic.mk.injEq]
  exact ⟨hlevel, hmessage, hposition, hcode, hnotes, hhelps⟩

/-- A message that looks like a code, a place and an explanation is told from the code,
the place and the explanation. -/
theorem Diagnostic.render_eq_render_iff_coded :
    let coded : Diagnostic :=
      { level := .error, message := "x", code := some ⟨"E", 12345⟩, position := ⟨1, 2⟩,
        notes := ["y"] }
    let uncoded : Diagnostic :=
      { level := .error, message := "[E12345]: x  --> 1:2", helps := ["y"] }
    coded.Plain ∧ uncoded.Plain ∧ coded.render ≠ uncoded.render
      ∧ (⟨"E", 12345⟩ : Code).render ≠ (⟨"E", 2345⟩ : Code).render := by
  intro coded uncoded
  have hcode (n : UInt32) : (⟨"E", n⟩ : Code).Plain :=
    ⟨by simp, by simp, by simp [isDigit]⟩
  have hcoded : coded.Plain := ⟨by simp [coded], by simpa [coded] using hcode 12345,
    by simp [coded], by simp [coded]⟩
  have huncoded : uncoded.Plain := ⟨by simp [uncoded], by simp [uncoded], by simp [uncoded],
    by simp [uncoded]⟩
  refine ⟨hcoded, huncoded, ?_, ?_⟩
  · rw [Ne, render_eq_render_iff.1 coded uncoded hcoded huncoded]
    decide
  · rw [Ne, render_eq_render_iff.2 ⟨"E", 12345⟩ ⟨"E", 2345⟩ (hcode _) (hcode _)]
    decide

end Lexis
