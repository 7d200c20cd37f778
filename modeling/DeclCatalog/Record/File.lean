import DeclCatalog.Path
import DeclCatalog.Record.Member

/-!
# Source files

What is recorded of a file as a whole: its imports and exports.

- `Binding`: a name, with the name it gets if it is renamed.
- `Import`, `Export`: one statement each.
- `FileRecord`: the file. Both of its lists are always written; a file whose path is no text cannot
  be.
-/

namespace DeclCatalog

/-- `name` or `name as rename` in an import or export. -/
structure Binding where
  name : String
  rename : Option String
  deriving DecidableEq

namespace Binding

/-- A binding as a record. -/
def toJson (b : Binding) : Json :=
  .obj (Json.field "name" (.str b.name) ++ Json.fieldOf? "alias" Json.str b.rename)

/-- Reads a binding. -/
def ofJson? (j : Json) : Option Binding := do
  let fields ← j.record? ["name", "alias"]
  pure {
    name := ← fields.required? "name" Json.asString?
    rename := ← fields.optional? "alias" Json.asString? }

end Binding

/-- An import statement. -/
structure Import where
  /-- The module it names, without quotes. -/
  source : String
  defaultImport : Option String
  wholeModule : Option String
  names : List Binding
  typeOnly : Bool
  deriving DecidableEq

namespace Import

/-- The fields of an import, in the order written. -/
def fieldNames : List String :=
  ["source", "defaultImport", "namespace", "names", "typeOnly"]

/-- An import as a record. -/
def toJson (i : Import) : Json :=
  .obj (Json.field "source" (.str i.source) ++
    Json.fieldOf? "defaultImport" Json.str i.defaultImport ++
    Json.fieldOf? "namespace" Json.str i.wholeModule ++
    Json.fieldOfList "names" Binding.toJson i.names ++ Json.flag "typeOnly" i.typeOnly)

/-- Reads an import. -/
def ofJson? (j : Json) : Option Import := do
  let fields ← j.record? fieldNames
  pure {
    source := ← fields.required? "source" Json.asString?
    defaultImport := ← fields.optional? "defaultImport" Json.asString?
    wholeModule := ← fields.optional? "namespace" Json.asString?
    names := ← fields.orDefault? "names" [] (Json.asList? Binding.ofJson?)
    typeOnly := ← fields.orDefault? "typeOnly" false Json.asBool? }

end Import

/-- An export statement. -/
structure Export where
  /-- The module it exports from, without quotes. -/
  source : Option String
  names : List Binding
  wholeModule : Option String
  /-- The name of the declaration that is exported. -/
  declaration : Option String
  isDefault : Bool
  wildcard : Bool
  deriving DecidableEq

namespace Export

/-- The fields of an export, in the order written. -/
def fieldNames : List String :=
  ["source", "names", "namespace", "declaration", "isDefault", "wildcard"]

/-- An export as a record. -/
def toJson (e : Export) : Json :=
  .obj (Json.fieldOf? "source" Json.str e.source ++
    Json.fieldOfList "names" Binding.toJson e.names ++
    Json.fieldOf? "namespace" Json.str e.wholeModule ++
    Json.fieldOf? "declaration" Json.str e.declaration ++ Json.flag "isDefault" e.isDefault ++
    Json.flag "wildcard" e.wildcard)

/-- Reads an export. -/
def ofJson? (j : Json) : Option Export := do
  let fields ← j.record? fieldNames
  pure {
    source := ← fields.optional? "source" Json.asString?
    names := ← fields.orDefault? "names" [] (Json.asList? Binding.ofJson?)
    wholeModule := ← fields.optional? "namespace" Json.asString?
    declaration := ← fields.optional? "declaration" Json.asString?
    isDefault := ← fields.orDefault? "isDefault" false Json.asBool?
    wildcard := ← fields.orDefault? "wildcard" false Json.asBool? }

end Export

/-- A file. -/
structure FileRecord where
  identifier : String
  filepath : Path
  imports : List Import
  exports : List Export
  deriving DecidableEq

namespace FileRecord

/-- The fields of a file, in the order written. -/
def fieldNames : List String :=
  ["identifier", "filepath", "imports", "exports"]

/-- The fields of a file that are written, where the text of its path is `path`. -/
def fieldsAt (f : FileRecord) (path : String) : List (String × Json) :=
  Json.field "identifier" (.str f.identifier) ++ Json.field "filepath" (.str path) ++
  Json.field "imports" (.arr (f.imports.map Import.toJson)) ++
  Json.field "exports" (.arr (f.exports.map Export.toJson))

/-- A file as a record, unless its path is no text. -/
def toJson? (f : FileRecord) : Option Json :=
  f.filepath.text?.map fun path => .obj (f.fieldsAt path)

/-- Reads a file. -/
def ofJson? (j : Json) : Option FileRecord := do
  let fields ← j.record? fieldNames
  pure {
    identifier := ← fields.required? "identifier" Json.asString?
    filepath := ← fields.required? "filepath" Path.ofJson?
    imports := ← fields.orDefault? "imports" [] (Json.asList? Import.ofJson?)
    exports := ← fields.orDefault? "exports" [] (Json.asList? Export.ofJson?) }

end FileRecord

end DeclCatalog
