import DeclCatalog.Json.Basic

/-!
# Writing typed values

The fields of a record as it is written: a field that is unset, empty or false is left out where the
record says so.

- `Json.field`: a field that is always written.
- `Json.fieldOf?`, `Json.fieldOfList`, `Json.flag`: fields that are left out when unset, empty,
  false.
-/

namespace DeclCatalog.Json

/-- A field that is always written. -/
def field (name : String) (value : Json) : List (String × Json) :=
  [(name, value)]

/-- A field that is left out when it is unset. -/
def fieldOf? {α : Type} (name : String) (write : α → Json) : Option α → List (String × Json)
  | none => []
  | some a => [(name, write a)]

/-- A field that is left out when its list is empty. -/
def fieldOfList {α : Type} (name : String) (write : α → Json) : List α → List (String × Json)
  | [] => []
  | items => [(name, .arr (items.map write))]

/-- A field that is left out when it is false. -/
def flag (name : String) : Bool → List (String × Json)
  | true => [(name, .bool true)]
  | false => []

end DeclCatalog.Json
