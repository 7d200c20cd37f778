import DeclCatalog.Record.Basic

/-!
# Configuration

- `Role`: what a framework decorator makes of a class.
- `Aliases`: further decorator names, each with a role.
- `Limits`: how deep terms are resolved, and how long a file may take.
- `Config`: all of it; `Config.roleOf?` gives the role of a decorator name, where the framework's
  own names come before the aliases.
- `Config.ofJson?`, `Config.validate`: reading, and the check that reading does not make.
-/

namespace DeclCatalog

/-- What a framework decorator makes of a class. -/
inductive Role where
  | component
  | directive
  | injectable
  | module
  | pipe
  deriving DecidableEq

namespace Role

/-- The roles in the order in which a class with several decorators is classified. -/
def byPriority : List Role :=
  [.component, .directive, .pipe, .module, .injectable]

/-- The name of the framework's decorator. -/
def decorator : Role → String
  | .component => "Component"
  | .directive => "Directive"
  | .injectable => "Injectable"
  | .module => "NgModule"
  | .pipe => "Pipe"

/-- The role of one of the framework's decorators. -/
def ofDecorator? (name : String) : Option Role :=
  byPriority.find? fun role => role.decorator == name

/-- The spelling of a role in a configuration. -/
def name : Role → String
  | .component => "component"
  | .directive => "directive"
  | .injectable => "injectable"
  | .module => "module"
  | .pipe => "pipe"

/-- The role of a spelling. -/
def ofName? (name : String) : Option Role :=
  byPriority.find? fun role => role.name == name

/-- The category of the records of a role. -/
def category : Role → Category
  | .component => .components
  | .directive => .directives
  | .injectable => .injectables
  | .module => .modules
  | .pipe => .pipes

/-- Reads a role. -/
def ofJson? (j : Json) : Option Role :=
  j.asChoice? ofName?

end Role

/-- Decorator names with the role that each stands for, in ascending order of the names. -/
abbrev Aliases := List (String × Role)

namespace Aliases

/-- Sets the role of a name, in place of an earlier one. -/
def set (name : String) (role : Role) : Aliases → Aliases
  | [] => [(name, role)]
  | (first, r) :: rest =>
    if name = first then (name, role) :: rest
    else if name < first then (name, role) :: (first, r) :: rest
    else (first, r) :: set name role rest

/-- The role of a name. -/
def get? (aliases : Aliases) (name : String) : Option Role :=
  aliases.lookup name

/-- The aliases of a list of pairs; the last pair of a name wins. -/
def ofPairs (pairs : List (String × Role)) : Aliases :=
  pairs.foldl (fun aliases (name, role) => set name role aliases) []

/-- Aliases as an object. -/
def toJson (aliases : Aliases) : Json :=
  .obj (aliases.map fun (name, role) => (name, .str role.name))

/-- Reads one alias. -/
def pair? : String × Json → Option (String × Role)
  | (name, j) => (Role.ofJson? j).map fun role => (name, role)

/-- Reads aliases from an object. -/
def ofJson? : Json → Option Aliases
  | .obj fields => (fields.mapM pair?).map ofPairs
  | _ => none

end Aliases

/-- How far a file is followed. -/
structure Limits where
  /-- The deepest nesting of terms that is resolved. -/
  maxDepth : Nat
  /-- The time that a file may take, in milliseconds. -/
  fileTimeoutMs : Option Nat
  deriving DecidableEq

namespace Limits

/-- The limits that hold when nothing is said. -/
def standard : Limits where
  maxDepth := 256
  fileTimeoutMs := none

/-- Limits as a record; an absent time limit is written as `null`. -/
def toJson (l : Limits) : Json :=
  .obj (Json.field "max_depth" (.int l.maxDepth) ++
    Json.field "file_timeout_ms" (match l.fileTimeoutMs with
      | some ms => .int ms
      | none => .null))

/-- Reads limits. -/
def ofJson? (j : Json) : Option Limits := do
  let fields ← j.record? ["max_depth", "file_timeout_ms"]
  pure {
    maxDepth := ← fields.orDefault? "max_depth" standard.maxDepth Json.asNat?
    fileTimeoutMs := ← fields.optional? "file_timeout_ms" Json.asNat? }

end Limits

/-- The configuration of a run. -/
structure Config where
  limits : Limits
  aliases : Aliases
  deriving DecidableEq

/-- Why a configuration cannot be used. -/
inductive ConfigError where
  /-- The file cannot be read. -/
  | unreadable (path : Path) (cause : String)
  /-- The text is no configuration. -/
  | malformed
  /-- A value is out of range. -/
  | invalid (key : String) (reason : String)
  deriving DecidableEq

namespace ConfigError

/-- The text of an error; a malformed text is described by its reader. -/
def message? : ConfigError → Option String
  | .unreadable path cause => some ("Failed to read config file " ++ path.shown ++ ": " ++ cause)
  | .malformed => none
  | .invalid key reason => some ("Invalid config value for " ++ key ++ ": " ++ reason)

end ConfigError

namespace Config

/-- The configuration that holds when nothing is said. -/
def standard : Config where
  limits := Limits.standard
  aliases := []

/-- The role of a decorator name: the framework's own names come first. -/
def roleOf? (config : Config) (name : String) : Option Role :=
  match Role.ofDecorator? name with
  | some role => some role
  | none => config.aliases.get? name

/-- Refuses a nesting limit of zero. -/
def validate (config : Config) : Except ConfigError Unit :=
  if config.limits.maxDepth = 0 then
    .error (.invalid "extractor.max_depth" "must be at least 1")
  else .ok ()

/-- A configuration as a record. -/
def toJson (config : Config) : Json :=
  .obj (Json.field "extractor" config.limits.toJson ++
    Json.field "decorators" config.aliases.toJson)

/-- Reads a configuration; both parts may be left out. -/
def ofJson? (j : Json) : Option Config := do
  let fields ← j.record? ["extractor", "decorators"]
  pure {
    limits := ← fields.orDefault? "extractor" Limits.standard Limits.ofJson?
    aliases := ← fields.orDefault? "decorators" [] Aliases.ofJson? }

end Config

end DeclCatalog
