import DeclCatalog.Config.Basic
import DeclCatalog.Toml.Document

/-!
# Configuration files

A configuration as TOML. Keys that it does not know are passed over.

- `Role.ofToml?`, `Aliases.ofToml?`, `Limits.ofToml?`, `Config.ofToml?`: each part.
- `Config.parse`: the configuration of a text, read and checked.
-/

namespace DeclCatalog

/-- A number from zero. -/
def Toml.asNat? : Toml → Option Nat
  | .integer n => if 0 ≤ n then some n.toNat else none
  | _ => none

namespace Role

/-- Reads a role: its name, or a table with the name as its only key, which holds nothing. -/
def ofToml? : Toml → Option Role
  | .string s => ofName? s
  | .table _ [(name, v)] => if v.isVoid then ofName? name else none
  | _ => none

end Role

namespace Aliases

/-- Reads one alias. -/
def entryOf? : String × Toml → Option (String × Role)
  | (name, v) => (Role.ofToml? v).map fun role => (name, role)

/-- Reads aliases from a table. -/
def ofToml? : Toml → Option Aliases
  | .table _ entries => (entries.mapM entryOf?).map ofPairs
  | _ => none

end Aliases

namespace Limits

/-- Reads limits from the values of their keys. -/
def ofValues? (maxDepth fileTimeoutMs : Option Toml) : Option Limits := do
  let maxDepth ← match maxDepth with
    | some v => v.asNat?
    | none => some standard.maxDepth
  let fileTimeoutMs ← match fileTimeoutMs with
    | some v => v.asNat?.map some
    | none => some standard.fileTimeoutMs
  pure { maxDepth, fileTimeoutMs }

/-- Reads limits: a table, or an array with the values in order. A moment has none of the keys, and
so leaves the standard limits. -/
def ofToml? : Toml → Option Limits
  | .table _ entries => ofValues? (entries.lookup "max_depth") (entries.lookup "file_timeout_ms")
  | .array items => ofValues? items[0]? items[1]?
  | .moment _ => some standard
  | _ => none

end Limits

namespace Config

/-- Reads a configuration; both parts may be left out. -/
def ofToml? (entries : Toml.Entries) : Option Config := do
  let limits ← match entries.lookup "extractor" with
    | some v => Limits.ofToml? v
    | none => some Limits.standard
  let aliases ← match entries.lookup "decorators" with
    | some v => Aliases.ofToml? v
    | none => some []
  pure { limits, aliases }

/-- The configuration of a text. -/
def parse (text : String) : Except ConfigError Config :=
  match (Toml.parse? text).bind ofToml? with
  | none => .error .malformed
  | some config =>
    match config.validate with
    | .ok () => .ok config
    | .error cause => .error cause

end Config

end DeclCatalog
