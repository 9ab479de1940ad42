/-!
# JSON values

A JSON value as a tree.  Whole numbers and floating-point numbers are told
apart by the way they are written, as a reader of records has to do.

* `Json.ofFloat`: a floating-point number, where `null` stands for what JSON
  cannot write;
* `Json.members?`: the members of a record, which may be an object with at least
  the wanted fields, or an array with just their values.
-/

namespace Lexis

/-- A JSON value. -/
inductive Json where
  | null
  | bool (b : Bool)
  /-- A number written without a point and without an exponent. -/
  | int (n : Int)
  /-- Any other number. -/
  | float (x : Float)
  | string (s : String)
  | array (items : List Json)
  | object (fields : List (String × Json))

namespace Json

instance : Inhabited Json := ⟨null⟩

/-- A floating-point number; `null` stands for the infinite ones and for what
is no number. -/
def ofFloat (x : Float) : Json := if x.isFinite then float x else null

/-! ### Looking into a value

Every function of this section gives `none` for a value of another shape. -/

/-- The text of a string. -/
def string? : Json → Option String
  | string s => some s
  | _ => none

/-- A whole number in 64 bits, if it is one that these can hold. -/
def int64? : Json → Option Int64
  | int n => if (Int64.ofInt n).toInt = n then some (Int64.ofInt n) else none
  | _ => none

/-- A whole number without a sign in 32 bits, if it is one that these can hold. -/
def uint32? : Json → Option UInt32
  | int n =>
    if (UInt32.ofNat n.toNat).toNat = n then some (UInt32.ofNat n.toNat) else none
  | _ => none

/-- The floating-point number nearest to a number of either form. -/
def float? : Json → Option Float
  | int n => some (Float.ofInt n)
  | float x => some x
  | _ => none

/-- The field of an object with the given name. -/
def field? (j : Json) (name : String) : Option Json :=
  match j with
  | object fields => fields.lookup name
  | _ => none

/-- The values that a record has under the given names: the fields of an
object, whatever other fields it has, or the items of an array if there are
just as many of them. -/
def members? (j : Json) (names : List String) : Option (List Json) :=
  match j with
  | object _ => names.mapM j.field?
  | array items => if items.length = names.length then some items else none
  | _ => none

end Json

end Lexis
