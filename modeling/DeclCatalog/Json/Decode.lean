import DeclCatalog.Json.Basic
import DeclCatalog.Word

/-!
# Reading typed values

How typed values are taken out of a JSON value. A record is written as an object, or as an array
with its fields in order. A field that the record does not know is passed over; a known field that
is given twice is refused.

- `Json.asString?`, `Json.asBool?`, `Json.asNat?`, `Json.asInt64?`, `Json.asList?`: plain values.
- `Json.record?`, `Json.object?`: the known fields of a record.
- `Json.readNested`: a reader for values inside values.
- `Fields.required?`, `Fields.optional?`, `Fields.orDefault?`: one field by name.
-/

namespace DeclCatalog

/-- The known fields of a record: every name occurs at most once. -/
abbrev Fields := List (String × Json)

namespace Json

/-- A text. -/
def asString? : Json → Option String
  | .str s => some s
  | _ => none

/-- A truth value. -/
def asBool? : Json → Option Bool
  | .bool b => some b
  | _ => none

/-- A number of the unsigned 64-bit range. -/
def asNat? : Json → Option Nat
  | .int n => if 0 ≤ n ∧ n < Word.unsignedBound then some n.toNat else none
  | _ => none

/-- A number of the signed 64-bit range. -/
def asInt64? : Json → Option Int64
  | .int n => if Word.Signed n then some (Int64.ofInt n) else none
  | _ => none

/-- A list whose items all read. -/
def asList? {α : Type} (item? : Json → Option α) : Json → Option (List α)
  | .arr items => items.mapM item?
  | _ => none

/-- The value of a choice without content: its name, or an object with the name as its only key and
`null` as its value. -/
def asChoice? {α : Type} (named? : String → Option α) : Json → Option α
  | .str s => named? s
  | .obj [(s, .null)] => named? s
  | _ => none

/-- The fields with a name among `names`, unless one of them is given twice. -/
def knownFields? (names : List String) (fields : List (String × Json)) : Option Fields :=
  let known := fields.filter fun field => names.contains field.1
  if (known.map Prod.fst).Nodup then some known else none

/-- The known fields of a record that is written as an object. -/
def object? (names : List String) : Json → Option Fields
  | .obj fields => knownFields? names fields
  | _ => none

/-- The known fields of a record that is written as an object, or as an array in the order of
`names`; an array may stop early but not go on after the last name. -/
def record? (names : List String) : Json → Option Fields
  | .obj fields => knownFields? names fields
  | .arr items => if items.length ≤ names.length then some (names.zip items) else none
  | _ => none

/-- A reader that is given itself for the values inside, at most `levels` times over. -/
def readLevels {α : Type} (read? : (Json → Option α) → Json → Option α) : Nat → Json → Option α
  | 0, _ => none
  | levels + 1, j => read? (readLevels read? levels) j

/-- Reads values inside values with one step of reading. A value inside a value is at least one
array or object further in, so the nesting of the whole is bound enough. -/
def readNested {α : Type} (read? : (Json → Option α) → Json → Option α) (j : Json) : Option α :=
  readLevels read? j.nesting j

end Json

namespace Fields

/-- A field that has to be there. -/
def required? {α : Type} (fields : Fields) (name : String) (value? : Json → Option α) : Option α :=
  match fields.lookup name with
  | some v => value? v
  | none => none

/-- A field that may be absent or `null`. -/
def optional? {α : Type} (fields : Fields) (name : String) (value? : Json → Option α) :
    Option (Option α) :=
  match fields.lookup name with
  | none => some none
  | some .null => some none
  | some v => (value? v).map some

/-- A field that may be absent. -/
def orDefault? {α : Type} (fields : Fields) (name : String) (absent : α)
    (value? : Json → Option α) : Option α :=
  match fields.lookup name with
  | none => some absent
  | some v => value? v

end Fields

end DeclCatalog
