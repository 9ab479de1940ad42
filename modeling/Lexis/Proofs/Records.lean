import Lexis.Token.Record
import Mathlib.Data.List.Forall2
import Mathlib.Data.List.Nodup

/-!
# Records of tokens

A token with a finite number is read back from any of its records, whatever the order
of the fields and whatever stands among them.  A token with another number is written,
but not read back, and neither is any record that lacks a field or an item.

* `Json.Record`, `Json.Defective`: the records of some values, and what is none for lack
  of a field, or of an item, or for one too many;
* `Json.members?_of_record`, `Json.members?_of_defective`: what there is to be found in
  them;
* `Position.Recorded`, `Token.Recorded`: the records of a position and of a token;
* `Token.ofJson?_of_record`: what is read from the record of a token comes down to what
  is read from the record of its position;
* `Token.reads_back`: exactly the tokens with a finite number are read back.
-/

namespace Lexis

/-! ### Records -/

namespace Json

/-- The value is a record of the given values under the given names. -/
inductive Record (names : List String) (values : List Json) : Json → Prop where
  /-- An object of these fields in any order, with others among them. -/
  | object {fields : List (String × Json)} (others : List (String × Json))
      (perm : fields.Perm (names.zip values ++ others))
      (unknown : ∀ field ∈ others, field.1 ∉ names) : Record names values (object fields)
  /-- An array of just the values in order. -/
  | array : Record names values (array values)

/-- The value looks like a record of the given names, but it is none. -/
inductive Defective (names : List String) : Json → Prop where
  /-- An object without one of the fields, whatever there is in it. -/
  | object {fields : List (String × Json)} (name : String) (wanted : name ∈ names)
      (missing : ∀ field ∈ fields, field.1 ≠ name) : Defective names (object fields)
  /-- An array that is too short or too long. -/
  | array {items : List Json} (length : items.length ≠ names.length) :
      Defective names (array items)

variable {names : List String} {values : List Json} {fields others : List (String × Json)}
  {name : String} {v j : Json}

/-- A name that has only one value has this value. -/
lemma lookup_eq_some (h : (name, v) ∈ fields) (huniq : ∀ v', (name, v') ∈ fields → v' = v) :
    fields.lookup name = some v := by
  obtain ⟨v', hv'⟩ := Option.isSome_iff_exists.mp
    (List.lookup_isSome_iff.mpr ⟨_, h, beq_self_eq_true name⟩)
  obtain ⟨l₁, l₂, hfields, -⟩ := List.lookup_eq_some_iff.mp hv'
  rw [hv', huniq v' (by simp [hfields])]

/-- An object has the fields that it is a record of. -/
lemma field?_of_perm (hnames : names.Nodup) (hlength : names.length = values.length)
    (perm : fields.Perm (names.zip values ++ others))
    (unknown : ∀ field ∈ others, field.1 ∉ names) (h : (name, v) ∈ names.zip values) :
    (object fields).field? name = some v := by
  refine lookup_eq_some (perm.mem_iff.mpr (List.mem_append_left _ h)) fun v' hv' => ?_
  rcases List.mem_append.mp (perm.mem_iff.mp hv') with hzip | hother
  · -- no name stands twice among the wanted ones
    have hfst : (names.zip values).map Prod.fst = names :=
      List.map_fst_zip (Nat.le_of_eq hlength)
    exact congrArg Prod.snd (List.inj_on_of_nodup_map (hfst ▸ hnames) hzip h rfl)
  · exact absurd (List.of_mem_zip h).1 (unknown _ hother)

/-- All names have values if each of them has one. -/
lemma mapM_eq_some {find : String → Option Json}
    (h : List.Forall₂ (fun name v => find name = some v) names values) :
    names.mapM find = some values := by
  induction h with
  | nil => rfl
  | cons hv _ ih => rw [List.mapM_cons, hv, ih]; rfl

/-- Not all names have values if one of them has none. -/
lemma mapM_eq_none {find : String → Option Json} (h : name ∈ names) (hnone : find name = none) :
    names.mapM find = none := by
  induction names with
  | nil => cases h
  | cons other names ih =>
    rw [List.mapM_cons]
    rcases List.mem_cons.mp h with rfl | h
    · rw [hnone]; rfl
    · rw [ih h]; cases find other <;> rfl

/-- **All values** of a record are found under their names. -/
theorem members?_of_record (hnames : names.Nodup) (hlength : names.length = values.length)
    (h : Record names values j) : j.members? names = some values := by
  cases h with
  | array => exact if_pos hlength.symm
  | object others perm unknown =>
    exact mapM_eq_some (List.forall₂_iff_zip.mpr
      ⟨hlength, field?_of_perm hnames hlength perm unknown⟩)

/-- Nothing is found in a defective record. -/
theorem members?_of_defective (h : Defective names j) : j.members? names = none := by
  cases h with
  | array length => exact if_neg length
  | object name wanted missing =>
    exact mapM_eq_none wanted
      (List.lookup_eq_none_iff.mpr fun field h => bne_iff_ne.mpr (missing field h).symm)

/-- What is written of a number is read back if the number is finite. -/
lemma float?_ofFloat (x : Float) : (ofFloat x).float? = if x.isFinite then some x else none := by
  rw [ofFloat]
  split <;> rfl

end Json

/-! ### Positions -/

namespace Position

/-- The values in the record of a position. -/
def values (p : Position) : List Json := [.int p.line.toNat, .int p.column.toNat]

/-- The value is a record of the position. -/
def Recorded (p : Position) (j : Json) : Prop := Json.Record fieldNames p.values j

lemma recorded_toJson (p : Position) : p.Recorded p.toJson :=
  .object [] (.refl _) (by simp)

lemma uint32?_toNat (n : UInt32) : (Json.int n.toNat).uint32? = some n := by
  simp [Json.uint32?]

/-- A position is read back from all of its records. -/
theorem ofJson?_of_recorded {p : Position} {j : Json} (h : p.Recorded j) :
    ofJson? j = some p := by
  have hmembers := Json.members?_of_record (by decide) rfl h
  simp [ofJson?, hmembers, values, uint32?_toNat]

lemma ofJson?_of_defective {j : Json} (h : Json.Defective fieldNames j) : ofJson? j = none := by
  rw [ofJson?, Json.members?_of_defective h]
  rfl

end Position

/-! ### Tokens -/

namespace Token

variable {t : Token} {place j : Json}

/-- The values in the record of a token, with a record of its position among them. -/
def values (t : Token) (place : Json) : List Json :=
  [.string t.kind.label, place, .string t.text, .int t.intValue.toInt, .ofFloat t.floatValue]

/-- The value is a record of the token. -/
def Recorded (t : Token) (j : Json) : Prop :=
  ∃ place, t.position.Recorded place ∧ Json.Record fieldNames (t.values place) j

lemma recorded_toJson (t : Token) : t.Recorded t.toJson :=
  ⟨_, t.position.recorded_toJson, .object [] (.refl _) (by simp)⟩

lemma int64?_toInt (n : Int64) : (Json.int n.toInt).int64? = some n := by
  simp [Json.int64?]

/-- **What is read** from the record of a token with the given record of a position. -/
theorem ofJson?_of_record (h : Json.Record fieldNames (t.values place) j) :
    ofJson? j = if t.floatValue.isFinite then
      (Position.ofJson? place).map ({ t with position := · }) else none := by
  have hmembers := Json.members?_of_record (by decide) rfl h
  by_cases hfinite : t.floatValue.isFinite
  · cases hplace : Position.ofJson? place <;>
      simp [ofJson?, hmembers, values, Kind.ofJson?, Kind.ofLabel?_label, hplace, Json.string?,
        int64?_toInt, Json.float?_ofFloat, hfinite]
  · simp [ofJson?, hmembers, values, Json.float?_ofFloat, hfinite]

/-- **Records of tokens.**  A token is written as a record of itself.  If its number is
finite, it is read back from each of its records; if not, `null` is written for the
number, and no record of the token is read.  Nor is anything read from a record that is
defective, or in which the position is. -/
theorem reads_back (t : Token) :
    t.Recorded t.toJson
      ∧ (t.floatValue.isFinite → ∀ j, t.Recorded j → ofJson? j = some t)
      ∧ (¬t.floatValue.isFinite → t.toJson.field? "float_value" = some .null
        ∧ ∀ j, t.Recorded j → ofJson? j = none)
      ∧ (∀ j, Json.Defective fieldNames j → ofJson? j = none)
      ∧ ∀ place, Json.Defective Position.fieldNames place →
        ∀ j, Json.Record fieldNames (t.values place) j → ofJson? j = none := by
  refine ⟨t.recorded_toJson, fun hfinite j => ?_, fun hfinite => ⟨?_, fun j => ?_⟩,
    fun j h => ?_, fun place hplace j h => ?_⟩
  · rintro ⟨place, hplace, h⟩
    rw [ofJson?_of_record h, if_pos hfinite, Position.ofJson?_of_recorded hplace]
    rfl
  · have hfield : t.toJson.field? "float_value" = some (.ofFloat t.floatValue) := rfl
    rw [hfield, Json.ofFloat, if_neg hfinite]
  · rintro ⟨place, -, h⟩
    rw [ofJson?_of_record h, if_neg hfinite]
  · rw [ofJson?, Json.members?_of_defective h]
    rfl
  · rw [ofJson?_of_record h, Position.ofJson?_of_defective hplace, Option.map_none, ite_self]

/-- A record with its fields the other way round, with a field that is no part of it, and
with an array for the position; and an infinite number, and a record without a field. -/
theorem reads_back_reversed :
    let t : Token := .float 1.5 ⟨1, 2⟩
    let u : Token := .float (2.0 / 0.0) ⟨1, 2⟩
    let j (place : Json) : Json :=
      .object [("unit", .null), ("float_value", .float 1.5), ("int_value", .int 0),
        ("text", .string ""), ("position", place), ("kind", .string "Float")]
    t.floatValue.isFinite ∧ ofJson? (j (.array [.int 1, .int 2])) = some t
      ∧ ¬u.floatValue.isFinite ∧ ofJson? u.toJson = none
      ∧ ofJson? (j (.object [("line", .int 1)])) = none
      ∧ ofJson? (.object [("kind", .string "Float")]) = none := by
  intro t u j
  have hfinite : (1.5 : Float).isFinite := by decide
  have hinfinite : ¬(2.0 / 0.0 : Float).isFinite := by decide
  have hrecord (place : Json) : Json.Record fieldNames (t.values place) (j place) := by
    refine .object [("unit", .null)] ?_ (by simp [fieldNames])
    have hvalues : t.values place = [.string "Float", place, .string "", .int 0, .float 1.5] := by
      simp only [values, t, Json.ofFloat, float, if_pos hfinite]
      rfl
    rw [hvalues]
    exact List.reverse_perm (fieldNames.zip [.string "Float", place, .string "", .int 0,
      .float 1.5] ++ [("unit", .null)])
  obtain ⟨-, hread, -, -, hplace⟩ := reads_back t
  obtain ⟨hwritten, -, hlost, hdefective, -⟩ := reads_back u
  refine ⟨hfinite, hread hfinite _ ⟨_, .array, hrecord _⟩, hinfinite,
    (hlost hinfinite).2 _ hwritten, hplace _ ?_ _ (hrecord _), hdefective _ ?_⟩
  · exact .object "column" (by decide) (by simp)
  · exact .object "position" (by decide) (by simp)

end Token

end Lexis
