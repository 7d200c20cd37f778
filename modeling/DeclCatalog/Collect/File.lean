import DeclCatalog.Path
import DeclCatalog.Record.File
import DeclCatalog.Text.Quote
import DeclCatalog.Tree.Source

/-!
# Collecting files

- `importOf`, `exportOf`: what an import or export statement says.
- `collectFile`: the record of a file. Only statements at the top level are read.
-/

namespace DeclCatalog

/-- The text of a node without quotes around it. -/
def plainText (src : Source) (n : Node) : String :=
  Text.stripQuotes (src.text n)

/-- The module that a statement names. -/
def moduleSource? (src : Source) (statement : Node) : Option String :=
  (statement.child? "source").map (plainText src)

/-- The names, with their aliases, in a clause. -/
def bindingsOf (src : Source) (clause : Node) (specifier : String) : List Binding :=
  (clause.childrenOfKind specifier).filterMap fun spec =>
    (spec.child? "name").map fun name =>
      { name := plainText src name, rename := (spec.child? "alias").map (plainText src) }

/-- The last value that is given for a part of a statement. -/
def lastOf {α : Type} (part? : Node → Option α) (parts : List Node) : Option α :=
  (parts.filterMap part?).getLast?

/-- What an import statement says. -/
def importOf (src : Source) (statement : Node) : Import :=
  let parts := (statement.childrenOfKind "import_clause").flatMap Node.namedChildren
  { source := (moduleSource? src statement).getD ""
    defaultImport := lastOf (fun part =>
      if part.kind == "identifier" then some (src.text part) else none) parts
    wholeModule := (lastOf (fun part =>
      if part.kind == "namespace_import" then some (part.firstNamedChild?.map src.text)
      else none) parts).join
    names := (parts.filter fun part => part.kind == "named_imports").flatMap fun part =>
      bindingsOf src part "import_specifier"
    typeOnly := statement.hasToken "type" }

/-- The name of the declaration or value that is exported. -/
def exportedName? (src : Source) (statement : Node) : Option String :=
  match statement.child? "declaration" with
  | some declaration => src.fieldText? declaration "name"
  | none => src.fieldText? statement "value"

/-- The variables that an exported declaration without a name of its own declares. -/
def exportedVariables (src : Source) (statement : Node) : List Binding :=
  match statement.child? "declaration" with
  | none => []
  | some declaration =>
    match declaration.child? "name" with
    | some _ => []
    | none => (declaration.childrenOfKind "variable_declarator").filterMap fun declarator =>
        (src.fieldText? declarator "name").map fun name => { name, rename := none }

/-- What an export statement says. -/
def exportOf (src : Source) (statement : Node) : Export :=
  let parts := statement.namedChildren
  let source := moduleSource? src statement
  let wholeModule := (lastOf (fun part =>
    if part.kind == "namespace_export" then some (part.firstNamedChild?.map (plainText src))
    else none) parts).join
  { source
    names := exportedVariables src statement ++
      (parts.filter fun part => part.kind == "export_clause").flatMap fun part =>
        bindingsOf src part "export_specifier"
    wholeModule
    declaration := exportedName? src statement
    isDefault := statement.hasToken "default"
    wildcard := source.isSome && wholeModule.isNone && statement.hasToken "*" }

/-- The record of a file. -/
def collectFile (src : Source) (n : Node) : FileRecord where
  identifier := Path.fileName src.path
  filepath := src.path
  imports := (n.namedChildren.filter fun s => s.kind == "import_statement").map (importOf src)
  exports := (n.namedChildren.filter fun s => s.kind == "export_statement").map (exportOf src)

end DeclCatalog
