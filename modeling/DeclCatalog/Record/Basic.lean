import DeclCatalog.Path
import DeclCatalog.Record.Class
import DeclCatalog.Record.Declaration
import DeclCatalog.Record.Decorated
import DeclCatalog.Record.File

/-!
# Records

- `Category`: the ten sorts of records, in the order in which a catalog lists them.
- `Record`: a record of any sort.
- `Record.category`, `Record.identifier`, `Record.filepath`: what all records have.
- `Record.agrees`: whether two records say the same, however their paths are spelled.
- `Record.toJson?`, `Record.ofJson?`: the written form, which a record has unless its path is no
  text; reading is told the category.
-/

namespace DeclCatalog

/-- A sort of records. -/
inductive Category where
  | classes
  | components
  | directives
  | injectables
  | modules
  | pipes
  | enums
  | interfaces
  | typeAliases
  | sourceFiles
  deriving DecidableEq

namespace Category

/-- Every category, in the order written. -/
def all : List Category :=
  [.classes, .components, .directives, .injectables, .modules, .pipes, .enums, .interfaces,
   .typeAliases, .sourceFiles]

/-- The key of a category. -/
def key : Category → String
  | .classes => "classes"
  | .components => "components"
  | .directives => "directives"
  | .injectables => "injectables"
  | .modules => "modules"
  | .pipes => "pipes"
  | .enums => "enums"
  | .interfaces => "interfaces"
  | .typeAliases => "typeAliases"
  | .sourceFiles => "sourceFiles"

/-- The category of a key. -/
def ofKey? (key : String) : Option Category :=
  all.find? fun category => category.key == key

end Category

/-- A record of any category. -/
inductive Record where
  | class (record : ClassRecord)
  | component (record : Decorated ComponentInfo)
  | directive (record : Decorated DirectiveInfo)
  | injectable (record : Decorated InjectableInfo)
  | module (record : Decorated ModuleInfo)
  | pipe (record : Decorated PipeInfo)
  | enum (record : EnumRecord)
  | interface (record : InterfaceRecord)
  | typeAlias (record : AliasRecord)
  | sourceFile (record : FileRecord)
  deriving DecidableEq

namespace Record

/-- The category of a record. -/
def category : Record → Category
  | .class _ => .classes
  | .component _ => .components
  | .directive _ => .directives
  | .injectable _ => .injectables
  | .module _ => .modules
  | .pipe _ => .pipes
  | .enum _ => .enums
  | .interface _ => .interfaces
  | .typeAlias _ => .typeAliases
  | .sourceFile _ => .sourceFiles

/-- The name of what is declared. -/
def identifier : Record → String
  | .class r => r.identifier
  | .component r => r.base.identifier
  | .directive r => r.base.identifier
  | .injectable r => r.base.identifier
  | .module r => r.base.identifier
  | .pipe r => r.base.identifier
  | .enum r => r.identifier
  | .interface r => r.identifier
  | .typeAlias r => r.identifier
  | .sourceFile r => r.identifier

/-- The file that declares it. -/
def filepath : Record → Path
  | .class r => r.filepath
  | .component r => r.base.filepath
  | .directive r => r.base.filepath
  | .injectable r => r.base.filepath
  | .module r => r.base.filepath
  | .pipe r => r.base.filepath
  | .enum r => r.filepath
  | .interface r => r.filepath
  | .typeAlias r => r.filepath
  | .sourceFile r => r.filepath

/-- The record under another path. -/
def withFilepath (path : Path) : Record → Record
  | .class r => .class { r with filepath := path }
  | .component r => .component { r with base.filepath := path }
  | .directive r => .directive { r with base.filepath := path }
  | .injectable r => .injectable { r with base.filepath := path }
  | .module r => .module { r with base.filepath := path }
  | .pipe r => .pipe { r with base.filepath := path }
  | .enum r => .enum { r with filepath := path }
  | .interface r => .interface { r with filepath := path }
  | .typeAlias r => .typeAlias { r with filepath := path }
  | .sourceFile r => .sourceFile { r with filepath := path }

@[simp] theorem withFilepath_self (r : Record) : r.withFilepath r.filepath = r := by
  cases r <;> rfl

/-- Whether two records say the same: their paths have the same steps, and all else is equal. -/
def agrees (r s : Record) : Bool :=
  Path.steps r.filepath == Path.steps s.filepath && r.withFilepath s.filepath == s

/-- The class part of a record, for a class with or without a decorator. -/
def base? : Record → Option ClassRecord
  | .class r => some r
  | .component r => some r.base
  | .directive r => some r.base
  | .injectable r => some r.base
  | .module r => some r.base
  | .pipe r => some r.base
  | _ => none

/-- The written form of a record, unless its path is no text. -/
def toJson? : Record → Option Json
  | .class r => r.toJson?
  | .component r => r.toJson? ComponentInfo.fields
  | .directive r => r.toJson? DirectiveInfo.fields
  | .injectable r => r.toJson? InjectableInfo.fields
  | .module r => r.toJson? ModuleInfo.fields
  | .pipe r => r.toJson? PipeInfo.fields
  | .enum r => r.toJson?
  | .interface r => r.toJson?
  | .typeAlias r => r.toJson?
  | .sourceFile r => r.toJson?

/-- A record can be written exactly when its path has a text. -/
@[simp] theorem isSome_toJson? (r : Record) : r.toJson?.isSome = r.filepath.text?.isSome := by
  cases r <;> exact Option.isSome_map

/-- Reads a component. -/
def component? (j : Json) : Option (Decorated ComponentInfo) :=
  Decorated.ofJson? ComponentInfo.fieldNames ComponentInfo.ofFields? j

/-- Reads a directive. -/
def directive? (j : Json) : Option (Decorated DirectiveInfo) :=
  Decorated.ofJson? DirectiveInfo.fieldNames DirectiveInfo.ofFields? j

/-- Reads an injectable. -/
def injectable? (j : Json) : Option (Decorated InjectableInfo) :=
  Decorated.ofJson? InjectableInfo.fieldNames InjectableInfo.ofFields? j

/-- Reads a module. -/
def module? (j : Json) : Option (Decorated ModuleInfo) :=
  Decorated.ofJson? ModuleInfo.fieldNames ModuleInfo.ofFields? j

/-- Reads a pipe. -/
def pipe? (j : Json) : Option (Decorated PipeInfo) :=
  Decorated.ofJson? PipeInfo.fieldNames PipeInfo.ofFields? j

/-- Reads a record of a category. -/
def ofJson? (category : Category) (j : Json) : Option Record :=
  match category with
  | .classes => (ClassRecord.ofJson? j).map .class
  | .components => (component? j).map .component
  | .directives => (directive? j).map .directive
  | .injectables => (injectable? j).map .injectable
  | .modules => (module? j).map .module
  | .pipes => (pipe? j).map .pipe
  | .enums => (EnumRecord.ofJson? j).map .enum
  | .interfaces => (InterfaceRecord.ofJson? j).map .interface
  | .typeAliases => (AliasRecord.ofJson? j).map .typeAlias
  | .sourceFiles => (FileRecord.ofJson? j).map .sourceFile

end Record

end DeclCatalog
