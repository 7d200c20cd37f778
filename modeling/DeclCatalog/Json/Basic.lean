/-!
# JSON values

- `Json`: a JSON value. An object is a list of fields in the order written, so that repeated keys
  and the order of keys can be seen.
- `Json.nesting`: how deep arrays and objects are nested, the outermost counting as one.
- `Json.isReadable`: whether every part of a value denotes something.
- `Json.cut`: the value with its parts below some levels made unreadable.
- `Json.sortKeys`: the value with the fields of every object in ascending order of their keys.
-/

namespace DeclCatalog

/-- A JSON value. -/
inductive Json where
  | null
  | bool (value : Bool)
  /-- An integer of the signed or unsigned 64-bit range. -/
  | int (value : Int)
  /-- Any other number, kept as it is written. -/
  | decimal (text : String)
  | str (value : String)
  | arr (items : List Json)
  | obj (fields : List (String × Json))
  /-- Text in the form of a value that denotes none, such as a number beyond all ranges. It can be
  passed over but not read. -/
  | unreadable

namespace Json

mutual

/-- The number of arrays and objects on the deepest path. -/
def nesting : Json → Nat
  | .arr items => nestingItems items + 1
  | .obj fields => nestingFields fields + 1
  | _ => 0

/-- The deepest nesting among the items of an array. -/
def nestingItems : List Json → Nat
  | [] => 0
  | item :: rest => max item.nesting (nestingItems rest)

/-- The deepest nesting among the fields of an object. -/
def nestingFields : List (String × Json) → Nat
  | [] => 0
  | (_, value) :: rest => max value.nesting (nestingFields rest)

end

mutual

/-- Whether every part of a value can be read. -/
def isReadable : Json → Bool
  | .arr items => isReadableItems items
  | .obj fields => isReadableFields fields
  | .unreadable => false
  | _ => true

/-- Whether every item can be read. -/
def isReadableItems : List Json → Bool
  | [] => true
  | item :: rest => item.isReadable && isReadableItems rest

/-- Whether every field's value can be read. -/
def isReadableFields : List (String × Json) → Bool
  | [] => true
  | (_, value) :: rest => value.isReadable && isReadableFields rest

end

mutual

/-- The value with its first `levels` levels of arrays and objects; the arrays and objects below
them are unreadable. -/
def cut (levels : Nat) : Json → Json
  | .arr items =>
    match levels with
    | 0 => .unreadable
    | levels + 1 => .arr (cutItems levels items)
  | .obj fields =>
    match levels with
    | 0 => .unreadable
    | levels + 1 => .obj (cutFields levels fields)
  | other => other

/-- `cut` of every item. -/
def cutItems (levels : Nat) : List Json → List Json
  | [] => []
  | item :: rest => item.cut levels :: cutItems levels rest

/-- `cut` of every field's value. -/
def cutFields (levels : Nat) : List (String × Json) → List (String × Json)
  | [] => []
  | (key, value) :: rest => (key, value.cut levels) :: cutFields levels rest

end

/-- Puts a field before the first field with a key that is not smaller. -/
def insertField (field : String × Json) : List (String × Json) → List (String × Json)
  | [] => [field]
  | first :: rest =>
    if field.1 ≤ first.1 then field :: first :: rest else first :: insertField field rest

/-- The fields in ascending order of their keys. -/
def sortFields : List (String × Json) → List (String × Json)
  | [] => []
  | field :: rest => insertField field (sortFields rest)

mutual

/-- The value with the fields of every object, at any depth, in ascending order of their keys. -/
def sortKeys : Json → Json
  | .arr items => .arr (sortKeysItems items)
  | .obj fields => .obj (sortFields (sortKeysFields fields))
  | other => other

/-- `sortKeys` of every item. -/
def sortKeysItems : List Json → List Json
  | [] => []
  | item :: rest => item.sortKeys :: sortKeysItems rest

/-- `sortKeys` of every field's value. -/
def sortKeysFields : List (String × Json) → List (String × Json)
  | [] => []
  | (key, value) :: rest => (key, value.sortKeys) :: sortKeysFields rest

end

theorem nesting_le_nestingItems {items : List Json} {v : Json} (h : v ∈ items) :
    v.nesting ≤ nestingItems items := by
  induction items with
  | nil => simp at h
  | cons w rest ih =>
    rcases List.mem_cons.1 h with rfl | h
    · exact Nat.le_max_left _ _
    · exact Nat.le_trans (ih h) (Nat.le_max_right _ _)

theorem nesting_le_nestingFields {fields : List (String × Json)} {key : String} {v : Json}
    (h : (key, v) ∈ fields) : v.nesting ≤ nestingFields fields := by
  induction fields with
  | nil => simp at h
  | cons field rest ih =>
    obtain ⟨k, w⟩ := field
    rcases List.mem_cons.1 h with h | h
    · obtain ⟨rfl, rfl⟩ := Prod.mk.inj h
      exact Nat.le_max_left _ _
    · exact Nat.le_trans (ih h) (Nat.le_max_right _ _)

theorem sortKeysFields_eq_map (fields : List (String × Json)) :
    sortKeysFields fields = fields.map fun (key, value) => (key, value.sortKeys) := by
  induction fields with
  | nil => rfl
  | cons field rest ih => simp [sortKeysFields, ih]

end Json

end DeclCatalog
