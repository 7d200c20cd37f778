import DeclCatalog.Collect.Declaration
import DeclCatalog.Collect.Decorated
import DeclCatalog.Collect.File
import DeclCatalog.Tree.Cursor

/-!
# Classifying a file

- `visit`: the record of a declaration; any other node has none.
- `Deadline`: whether the time is up, asked before every node.
- `walk`: visits node after node with a cursor until the time is up or there is nowhere to go, so
  that it keeps no more than a path of the tree.
- `Timeout`, `FileOutput`, `classifyFile`: what a file gives. A file that runs out of time gives
  diagnostics but no records.
-/

namespace DeclCatalog

/-- The record of a class: its decorators decide on its category. -/
def classLike (src : Source) (config : Config) (site : Site) : Logged Record :=
  match frameworkDecorator? src config.aliases site with
  | some (role, _) => collectDecorated src config site role
  | none => .class <$> collectClass src config.limits.maxDepth site

/-- The record of a declaration. -/
def visit (src : Source) (config : Config) (site : Site) : Logged (Option Record) :=
  let n := site.node
  let limit := config.limits.maxDepth
  match n.kind with
  | "program" => pure (some (.sourceFile (collectFile src n)))
  | "class_declaration" => some <$> classLike src config site
  | "abstract_class_declaration" => some <$> classLike src config site
  -- the keyword is a node of this kind as well, but not a named one
  | "class" => if n.head.isNamed then some <$> classLike src config site else pure none
  | "interface_declaration" => (some ∘ .interface) <$> collectInterface src limit n
  | "enum_declaration" => (some ∘ .enum) <$> collectEnum src limit n
  | "type_alias_declaration" => (some ∘ .typeAlias) <$> collectAlias src limit n
  | _ => pure none

/-- Whether the time is up, by the number of nodes visited before the question. -/
abbrev Deadline := Nat → Bool

namespace Deadline

/-- The time is never up. -/
def never : Deadline :=
  fun _ => false

/-- The time is up from the beginning. -/
def passed : Deadline :=
  fun _ => true

/-- The deadline of a configuration: no time at all is up at once, any other time is enough. -/
def ofConfig (config : Config) : Deadline :=
  match config.limits.fileTimeoutMs with
  | some 0 => passed
  | _ => never

end Deadline

/-- What a walk gives: the records, and the number of nodes visited when the time was up. -/
structure WalkResult where
  records : List Record
  stoppedAt : Option Nat
  deriving DecidableEq

/-- Visits the site of a cursor and goes on with the next, where `visited` sites came before. The
time is looked at before each site. -/
def walk (visit : Site → Logged (Option Record)) (expired : Deadline) (visited : Nat)
    (cursor : Cursor) : Logged WalkResult :=
  if expired visited then pure { records := [], stoppedAt := some visited }
  else do
    let record ← visit cursor.site
    match _h : cursor.advance? with
    | some next => do
      let rest ← walk visit expired (visited + 1) next
      pure { rest with records := record.toList ++ rest.records }
    | none => pure { records := record.toList, stoppedAt := none }
termination_by cursor.remaining.length
decreasing_by exact Cursor.length_remaining_of_advance? ‹_›

/-- Visits the tree at a site. -/
def classify (src : Source) (config : Config) (expired : Deadline) (site : Site) :
    Logged WalkResult :=
  walk (visit src config) expired 0 (Cursor.start site)

/-- A file that ran out of time. -/
structure Timeout where
  path : Path
  /-- The number of nodes visited before. -/
  visited : Nat
  deriving DecidableEq

namespace Timeout

/-- What is said of it. -/
def message (t : Timeout) : String :=
  t.path.shown ++ ": classification exceeded the per-file timeout after " ++ t.visited.repr ++
    " nodes"

end Timeout

/-- What a file gives. -/
structure FileOutput where
  path : Path
  records : List Record
  diagnostics : List Diagnostic
  timeout : Option Timeout
  deriving DecidableEq

/-- Classifies a file under a deadline. Syntax errors are reported once, where the first one is. -/
def classifyUnder (expired : Deadline) (src : Source) (root : Node) (config : Config) :
    FileOutput :=
  let errors := if root.head.hasError then
      (src.report .parseError root.firstError
        "source contains syntax errors; records may be incomplete").log
    else []
  let result := classify src config expired (Site.root root)
  match result.value.stoppedAt with
  | none =>
    { path := src.path
      records := result.value.records
      diagnostics := errors ++ result.log
      timeout := none }
  | some visited =>
    let timeout : Timeout := { path := src.path, visited }
    { path := src.path
      records := []
      diagnostics := errors ++ result.log ++ (src.report .fileTimeout root timeout.message).log
      timeout := some timeout }

/-- Classifies a file under the deadline of its configuration. -/
def classifyFile (src : Source) (root : Node) (config : Config) : FileOutput :=
  classifyUnder (Deadline.ofConfig config) src root config

end DeclCatalog
