import Lexis.Json.Text
import Lexis.Token.Basic

/-!
# Tokens as records

A token is kept as a JSON record of five fields.  A record may be read back
from an object, whose fields may be in any order and need not be the only
ones, or from an array of the five values in order; a position within it is
read in the same way.

* `Token.toJson`, `Token.ofJson?`: a token as a record, and back.
-/

namespace Lexis

/-- The names of the fields of a position. -/
def Position.fieldNames : List String := ["line", "column"]

/-- A position as a record. -/
def Position.toJson (p : Position) : Json :=
  .object [("line", .int p.line.toNat), ("column", .int p.column.toNat)]

/-- The position of a record. -/
def Position.ofJson? (j : Json) : Option Position := do
  match ← j.members? Position.fieldNames with
  | [line, column] => return ⟨← line.uint32?, ← column.uint32?⟩
  | _ => none

/-- The kind of a name, which may also be the only field of an object without a
value. -/
def Kind.ofJson? : Json → Option Kind
  | .string name => Kind.ofLabel? name
  | .object [(name, .null)] => Kind.ofLabel? name
  | _ => none

namespace Token

/-- The names of the fields of a token. -/
def fieldNames : List String := ["kind", "position", "text", "int_value", "float_value"]

/-- A token as a record. -/
def toJson (t : Token) : Json :=
  .object [("kind", .string t.kind.label), ("position", t.position.toJson),
    ("text", .string t.text), ("int_value", .int t.intValue.toInt),
    ("float_value", .ofFloat t.floatValue)]

/-- The token of a record. -/
def ofJson? (j : Json) : Option Token := do
  match ← j.members? fieldNames with
  | [kind, position, text, intValue, floatValue] =>
    return {
      kind := ← Kind.ofJson? kind
      position := ← Position.ofJson? position
      text := ← text.string?
      intValue := ← intValue.int64?
      floatValue := ← floatValue.float? }
  | _ => none

end Token

end Lexis
