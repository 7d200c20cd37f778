import DeclCatalog.Json.Decode
import DeclCatalog.Json.Encode
import DeclCatalog.Term.Basic

/-!
# Terms as JSON

How terms are written and read. A type term is a record; a value term is an object whose only key
says which form it has.

- `Literal.toJson`, `TypeTerm.toJson`, `ValueTerm.toJson`: writing.
- `Literal.ofJson?`, `TypeTerm.ofJson?`, `ValueTerm.ofJson?`: reading.
- `TypeTerm.term?`, `ValueTerm.form?`: one step of reading, with a reader for the terms inside.
-/

namespace DeclCatalog

namespace Literal

/-- A literal is written as the scalar it is. -/
def toJson : Literal → Json
  | .boolean b => .bool b
  | .integer n => .int n.toInt
  | .text s => .str s

/-- Reads a truth value, an integer or a text. -/
def ofJson? (j : Json) : Option Literal :=
  match j with
  | .bool b => some (.boolean b)
  | .str s => some (.text s)
  | j => j.asInt64?.map .integer

end Literal

namespace Kind

/-- A kind is written as its text. -/
def toJson (kind : Kind) : Json :=
  .str kind.text

/-- Reads the text of a kind. -/
def ofJson? (j : Json) : Option Kind :=
  j.asString?.map ofText

end Kind

namespace TypeTerm

mutual

/-- A type term as a record; unset parts are left out. -/
def toJson : TypeTerm → Json
  | .mk kind none literal =>
    .obj (Json.field "kind" kind.toJson ++ Json.fieldOf? "literal" Literal.toJson literal)
  | .mk kind (some args) literal =>
    .obj (Json.field "kind" kind.toJson ++ Json.field "args" (.arr (toJsonList args)) ++
      Json.fieldOf? "literal" Literal.toJson literal)

/-- The terms of a list. -/
def toJsonList : List TypeTerm → List Json
  | [] => []
  | t :: ts => t.toJson :: toJsonList ts

end

theorem toJsonList_eq_map (ts : List TypeTerm) : toJsonList ts = ts.map toJson := by
  induction ts with
  | nil => rfl
  | cons t ts ih => simp [toJsonList, ih]

/-- Reads a type term with a reader for its arguments. -/
def term? (arg? : Json → Option TypeTerm) (j : Json) : Option TypeTerm := do
  let fields ← j.record? ["kind", "args", "literal"]
  let kind ← fields.required? "kind" Kind.ofJson?
  let args ← fields.optional? "args" (Json.asList? arg?)
  let literal ← fields.optional? "literal" Literal.ofJson?
  pure (.mk kind args literal)

/-- Reads a type term. -/
def ofJson? : Json → Option TypeTerm :=
  Json.readNested term?

end TypeTerm

namespace ValueTerm

mutual

/-- A value term as an object with one key. -/
def toJson : ValueTerm → Json
  | .plain term => .obj (Json.field "type" term.toJson)
  | .group kind members =>
    .obj (Json.field "structure" (.obj (Json.field "kind" kind.toJson ++
      Json.field "members" (.arr (toJsonMembers members)))))
  | .call callee args =>
    .obj (Json.field "call" (.obj (Json.field "callee" callee.toJson ++
      Json.field "args" (.arr (toJsonList args)))))
  | .construct target typeArgs args =>
    .obj (Json.field "new" (.obj (Json.field "constructor" target.toJson ++
      Json.fieldOfList "typeArgs" TypeTerm.toJson typeArgs ++
      Json.field "args" (.arr (toJsonList args)))))
  | .access operand name =>
    .obj (Json.field "propertyAccess" (.obj (Json.field "expression" (.str operand) ++
      Json.field "name" (.str name))))

/-- The values of a list. -/
def toJsonList : List ValueTerm → List Json
  | [] => []
  | v :: vs => v.toJson :: toJsonList vs

/-- The members of an array or object literal; an element of an array has no key. -/
def toJsonMembers : List (Option TypeTerm × ValueTerm) → List Json
  | [] => []
  | (key, v) :: members =>
    .obj (Json.fieldOf? "key" TypeTerm.toJson key ++ Json.field "value" v.toJson) ::
      toJsonMembers members

end

theorem toJsonList_eq_map (vs : List ValueTerm) : toJsonList vs = vs.map toJson := by
  induction vs with
  | nil => rfl
  | cons v vs ih => simp [toJsonList, ih]

/-- Reads one member of an array or object literal with a reader for its value. -/
def member? (value? : Json → Option ValueTerm) (j : Json) : Option Member := do
  let fields ← j.record? ["key", "value"]
  let key ← fields.optional? "key" TypeTerm.ofJson?
  let value ← fields.required? "value" value?
  pure (key, value)

/-- Reads an array or object literal with a reader for its values. -/
def group? (value? : Json → Option ValueTerm) (j : Json) : Option ValueTerm := do
  let fields ← j.record? ["kind", "members"]
  let kind ← fields.required? "kind" Kind.ofJson?
  let members ← fields.orDefault? "members" [] (Json.asList? (member? value?))
  pure (.group kind members)

/-- Reads a call with a reader for its parts. -/
def call? (value? : Json → Option ValueTerm) (j : Json) : Option ValueTerm := do
  let fields ← j.record? ["callee", "args"]
  let callee ← fields.required? "callee" value?
  let args ← fields.orDefault? "args" [] (Json.asList? value?)
  pure (.call callee args)

/-- Reads a construction with a reader for its arguments. -/
def construct? (value? : Json → Option ValueTerm) (j : Json) : Option ValueTerm := do
  let fields ← j.record? ["constructor", "typeArgs", "args"]
  let target ← fields.required? "constructor" TypeTerm.ofJson?
  let typeArgs ← fields.orDefault? "typeArgs" [] (Json.asList? TypeTerm.ofJson?)
  let args ← fields.orDefault? "args" [] (Json.asList? value?)
  pure (.construct target typeArgs args)

/-- Reads a member access. -/
def access? (j : Json) : Option ValueTerm := do
  let fields ← j.record? ["expression", "name"]
  let operand ← fields.required? "expression" Json.asString?
  let name ← fields.required? "name" Json.asString?
  pure (.access operand name)

/-- Reads a value term with a reader for the values inside it. -/
def form? (value? : Json → Option ValueTerm) : Json → Option ValueTerm
  | .obj [(form, j)] =>
    match form with
    | "type" => (TypeTerm.ofJson? j).map .plain
    | "structure" => group? value? j
    | "call" => call? value? j
    | "new" => construct? value? j
    | "propertyAccess" => access? j
    | _ => none
  | _ => none

/-- Reads a value term. -/
def ofJson? : Json → Option ValueTerm :=
  Json.readNested form?

end ValueTerm

end DeclCatalog
