import DeclCatalog.Config.File
import DeclCatalog.Disk
import DeclCatalog.Extract

/-!
# Projects

A run over files on a disk, with the configuration that the project has there.

- `findConfig?`, `loadConfig`: the configuration file of a directory, and the configuration that it
  gives.
- `Settings`: what a caller asks for; `Settings.build` gives an extractor, reading a configuration
  file only where a directory or a file is named.
- `readUnits`: the files that can be read; the others are counted.
- `extractFilesUnder`, `extractFiles`: a run over files. One that cannot be read counts as failed
  and ends nothing.
-/

namespace DeclCatalog

/-- The names of configuration files, in the order in which they are looked for. -/
def configCandidates : List String :=
  ["ngmeta.toml", ".ngmeta.toml"]

/-- The configuration file of a directory. -/
def findConfig? (disk : Disk) (root : Path) : Option Path :=
  (configCandidates.map fun name => root.join (.ofText name)).find? disk.isFile

/-- The configuration of a file. -/
def Config.ofFile (disk : Disk) (path : Path) : Except ConfigError Config :=
  match disk.readText path with
  | .ok text => Config.parse text
  | .error cause => .error (.unreadable path cause.message)

/-- The configuration of a directory: from the file that is asked for, which may be given relative
to the directory, else from the configuration file that is found there, else the standard one. -/
def loadConfig (disk : Disk) (root : Path) (asked : Option Path) : Except ConfigError Config :=
  match (asked.map root.join) <|> (findConfig? disk root) with
  | some path => Config.ofFile disk path
  | none => .ok Config.standard

/-- What a caller asks for. -/
structure Settings where
  /-- The directory whose configuration file is used. -/
  root : Option Path
  /-- The configuration file to use. -/
  configPath : Option Path
  /-- The configuration to use, whatever files there are. -/
  config : Option Config
  overrides : Overrides

namespace Settings

/-- The configuration that settings choose. -/
def chosen (s : Settings) (disk : Disk) : Except ConfigError Config :=
  match s.config with
  | some config => .ok config
  | none =>
    if s.root.isSome || s.configPath.isSome then
      loadConfig disk (s.root.getD (.ofText ".")) s.configPath
    else .ok Config.standard

/-- The extractor that settings give. -/
def build (s : Settings) (disk : Disk) : Except RunError Extractor :=
  match s.chosen disk with
  | .ok config => Extractor.build config s.overrides
  | .error cause => .error (.config cause)

end Settings

/-- The file at a path with its tree, where `parse` gives the tree of a text. -/
def readUnit? (disk : Disk) (parse : String → Node) (path : Path) : Option SourceUnit :=
  match disk.readText path with
  | .ok text => some { source := Source.ofText path text, tree := parse text }
  | .error _ => none

/-- The files that can be read, each with its deadline, and the number of those that cannot. -/
def readUnits (disk : Disk) (parse : String → Node) :
    List (Path × Deadline) → List TimedUnit × Nat
  | [] => ([], 0)
  | (path, expired) :: rest =>
    let (units, unreadable) := readUnits disk parse rest
    match readUnit? disk parse path with
    | some unit => ({ unit, expired } :: units, unreadable)
    | none => (units, unreadable + 1)

/-- A run over files on a disk, each under a deadline of its own, where `parse` gives the tree of a
text. -/
def extractFilesUnder (e : Extractor) (disk : Disk) (parse : String → Node)
    (paths : List (Path × Deadline)) : Except RunError Outcome :=
  let (units, unreadable) := readUnits disk parse paths
  match extractUnder e units with
  | .ok o => .ok { o with filesFailed := o.filesFailed + unreadable }
  | .error cause => .error cause

/-- A run over files on a disk under the deadline of the configuration. -/
def extractFiles (e : Extractor) (disk : Disk) (parse : String → Node) (paths : List Path) :
    Except RunError Outcome :=
  extractFilesUnder e disk parse (paths.map fun path => (path, Deadline.ofConfig e.config))

end DeclCatalog
