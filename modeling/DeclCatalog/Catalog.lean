import DeclCatalog.Json.Parser
import DeclCatalog.Json.Printer
import DeclCatalog.Record.Basic

/-!
# The catalog

A catalog holds every record of a run, one list a category. Lists keep the order of discovery, and
nothing is ever merged into one.

- `Catalog`: the ten lists.
- `Catalog.append`, `Catalog.extend`, `Catalog.merge`: adding a record, records, another catalog.
- `Catalog.records`, `Catalog.len`, `Catalog.identifiers`, `Catalog.total`: what it holds.
- `Catalog.agrees`: whether two catalogs hold the same records, however their paths are spelled.
- `Catalog.toText?`, `Catalog.ofText?`: the written form, in which all ten keys are present. There
  is none when a record has a path that is no text.
-/

namespace DeclCatalog

/-- Every record of a run, by category. -/
structure Catalog where
  classes : List ClassRecord
  components : List (Decorated ComponentInfo)
  directives : List (Decorated DirectiveInfo)
  injectables : List (Decorated InjectableInfo)
  modules : List (Decorated ModuleInfo)
  pipes : List (Decorated PipeInfo)
  enums : List EnumRecord
  interfaces : List InterfaceRecord
  typeAliases : List AliasRecord
  sourceFiles : List FileRecord
  deriving DecidableEq

namespace Catalog

/-- The catalog without records. -/
def empty : Catalog where
  classes := []
  components := []
  directives := []
  injectables := []
  modules := []
  pipes := []
  enums := []
  interfaces := []
  typeAliases := []
  sourceFiles := []

/-- Adds a record at the end of its category. -/
def append (c : Catalog) : Record → Catalog
  | .class r => { c with classes := c.classes ++ [r] }
  | .component r => { c with components := c.components ++ [r] }
  | .directive r => { c with directives := c.directives ++ [r] }
  | .injectable r => { c with injectables := c.injectables ++ [r] }
  | .module r => { c with modules := c.modules ++ [r] }
  | .pipe r => { c with pipes := c.pipes ++ [r] }
  | .enum r => { c with enums := c.enums ++ [r] }
  | .interface r => { c with interfaces := c.interfaces ++ [r] }
  | .typeAlias r => { c with typeAliases := c.typeAliases ++ [r] }
  | .sourceFile r => { c with sourceFiles := c.sourceFiles ++ [r] }

/-- Adds records in order. -/
def extend (c : Catalog) (records : List Record) : Catalog :=
  records.foldl append c

/-- Adds the records of another catalog, category by category. -/
def merge (c other : Catalog) : Catalog where
  classes := c.classes ++ other.classes
  components := c.components ++ other.components
  directives := c.directives ++ other.directives
  injectables := c.injectables ++ other.injectables
  modules := c.modules ++ other.modules
  pipes := c.pipes ++ other.pipes
  enums := c.enums ++ other.enums
  interfaces := c.interfaces ++ other.interfaces
  typeAliases := c.typeAliases ++ other.typeAliases
  sourceFiles := c.sourceFiles ++ other.sourceFiles

/-- The records of a category, in order of discovery. -/
def records (c : Catalog) : Category → List Record
  | .classes => c.classes.map .class
  | .components => c.components.map .component
  | .directives => c.directives.map .directive
  | .injectables => c.injectables.map .injectable
  | .modules => c.modules.map .module
  | .pipes => c.pipes.map .pipe
  | .enums => c.enums.map .enum
  | .interfaces => c.interfaces.map .interface
  | .typeAliases => c.typeAliases.map .typeAlias
  | .sourceFiles => c.sourceFiles.map .sourceFile

/-- The number of records of a category. -/
def len (c : Catalog) : Category → Nat
  | .classes => c.classes.length
  | .components => c.components.length
  | .directives => c.directives.length
  | .injectables => c.injectables.length
  | .modules => c.modules.length
  | .pipes => c.pipes.length
  | .enums => c.enums.length
  | .interfaces => c.interfaces.length
  | .typeAliases => c.typeAliases.length
  | .sourceFiles => c.sourceFiles.length

/-- The names of what a category declares, in order of discovery. -/
def identifiers (c : Catalog) : Category → List String
  | .classes => c.classes.map (·.identifier)
  | .components => c.components.map (·.base.identifier)
  | .directives => c.directives.map (·.base.identifier)
  | .injectables => c.injectables.map (·.base.identifier)
  | .modules => c.modules.map (·.base.identifier)
  | .pipes => c.pipes.map (·.base.identifier)
  | .enums => c.enums.map (·.identifier)
  | .interfaces => c.interfaces.map (·.identifier)
  | .typeAliases => c.typeAliases.map (·.identifier)
  | .sourceFiles => c.sourceFiles.map (·.identifier)

/-- The number of records in all categories. -/
def total (c : Catalog) : Nat :=
  Category.all.foldr (fun category n => c.len category + n) 0

/-- Whether there is no record. -/
def isEmpty (c : Catalog) : Bool :=
  c.total == 0

/-- Whether two catalogs hold records that agree, in the same order. -/
def agrees (c other : Catalog) : Bool :=
  Category.all.all fun category =>
    (c.records category).isEqv (other.records category) Record.agrees

/-! ## The written form -/

/-- A category's records under its key, unless one of them cannot be written. -/
def fieldOf? (c : Catalog) (category : Category) : Option (String × Json) :=
  ((c.records category).mapM Record.toJson?).map fun records => (category.key, .arr records)

/-- A catalog as an object with the ten categories in order, unless a record cannot be written. -/
def toJson? (c : Catalog) : Option Json :=
  (Category.all.mapM c.fieldOf?).map Json.obj

/-- Reads a catalog; a category that is not there is empty. -/
def ofJson? (j : Json) : Option Catalog := do
  let fields ← j.record? (Category.all.map Category.key)
  pure {
    classes := ← fields.orDefault? "classes" [] (Json.asList? ClassRecord.ofJson?)
    components := ← fields.orDefault? "components" [] (Json.asList? Record.component?)
    directives := ← fields.orDefault? "directives" [] (Json.asList? Record.directive?)
    injectables := ← fields.orDefault? "injectables" [] (Json.asList? Record.injectable?)
    modules := ← fields.orDefault? "modules" [] (Json.asList? Record.module?)
    pipes := ← fields.orDefault? "pipes" [] (Json.asList? Record.pipe?)
    enums := ← fields.orDefault? "enums" [] (Json.asList? EnumRecord.ofJson?)
    interfaces := ← fields.orDefault? "interfaces" [] (Json.asList? InterfaceRecord.ofJson?)
    typeAliases := ← fields.orDefault? "typeAliases" [] (Json.asList? AliasRecord.ofJson?)
    sourceFiles := ← fields.orDefault? "sourceFiles" [] (Json.asList? FileRecord.ofJson?) }

/-- The indented text of a catalog, unless a record cannot be written. -/
def toText? (c : Catalog) : Option String :=
  c.toJson?.map Json.pretty

/-- Reads the text of a catalog. -/
def ofText? (text : String) : Option Catalog := do
  ofJson? (← Json.read? text)

/-- Whether a catalog is read back as it is; nothing when it has no text or its text cannot be
read. -/
def roundTrips? (c : Catalog) : Option Bool :=
  (c.toText?.bind ofText?).map (· == c)

/-! ## What the views say of adding -/

@[simp] theorem records_empty (category : Category) : empty.records category = [] := by
  cases category <;> rfl

theorem records_append (c : Catalog) (r : Record) (category : Category) :
    (c.append r).records category =
      c.records category ++ if r.category = category then [r] else [] := by
  cases r <;> cases category <;> simp [append, records, Record.category]

theorem records_merge (c other : Catalog) (category : Category) :
    (c.merge other).records category = c.records category ++ other.records category := by
  cases category <;> simp [merge, records]

theorem length_records (c : Catalog) (category : Category) :
    (c.records category).length = c.len category := by
  cases category <;> simp [records, len]

end Catalog

end DeclCatalog
