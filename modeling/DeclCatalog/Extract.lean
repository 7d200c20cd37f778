import DeclCatalog.Catalog
import DeclCatalog.Classify

/-!
# Extracting many files

- `Overrides`, `Extractor`: what a caller sets, and a valid configuration to run with.
- `SourceUnit`, `TimedUnit`: a file with its tree, and with the deadline it is classified under.
- `Outcome`: the catalog, the diagnostics and the file counts of a run.
- `extractUnder`, `extract`: a run over files in order. Each file counts as a whole: one that runs
  out of time adds its diagnostics and no record.
-/

namespace DeclCatalog

/-- Why a run ends without an outcome. -/
inductive RunError where
  | config (cause : ConfigError)
  | timeout (cause : Timeout)
  deriving DecidableEq

namespace RunError

/-- The text of an error, where it has one. -/
def message? : RunError → Option String
  | .config cause => cause.message?.map fun text => "Configuration error: " ++ text
  | .timeout cause => some cause.message

end RunError

/-- What a caller sets apart from the configuration. -/
structure Overrides where
  maxDepth : Option Nat
  fileTimeoutMs : Option Nat
  failOnTimeout : Bool
  deriving DecidableEq

/-- The largest time limit, in milliseconds. -/
def maxTimeoutMs : Nat :=
  Word.unsignedBound - 1

/-- A number of seconds as a time limit; what is too long is the longest limit. -/
def timeoutOfSeconds (seconds : Nat) : Nat :=
  min (1000 * seconds) maxTimeoutMs

/-- A configuration to run with. -/
structure Extractor where
  config : Config
  failOnTimeout : Bool
  deriving DecidableEq

namespace Extractor

/-- Applies what the caller sets, and checks the result. -/
def build (config : Config) (overrides : Overrides) : Except RunError Extractor :=
  let limits : Limits := {
    maxDepth := overrides.maxDepth.getD config.limits.maxDepth
    fileTimeoutMs := overrides.fileTimeoutMs <|> config.limits.fileTimeoutMs }
  -- only the result counts: a valid override mends an invalid limit
  let config := { config with limits }
  match config.validate with
  | .ok () => .ok { config, failOnTimeout := overrides.failOnTimeout }
  | .error cause => .error (.config cause)

end Extractor

/-- A file with its tree. -/
structure SourceUnit where
  source : Source
  tree : Node

/-- A file with the deadline that it is classified under: every file has a clock of its own. -/
structure TimedUnit where
  unit : SourceUnit
  expired : Deadline

namespace TimedUnit

/-- What the file gives. -/
def output (u : TimedUnit) (config : Config) : FileOutput :=
  classifyUnder u.expired u.unit.source u.unit.tree config

end TimedUnit

/-- What a run gives. -/
structure Outcome where
  catalog : Catalog
  diagnostics : List Diagnostic
  /-- The number of files whose records are in the catalog. -/
  filesProcessed : Nat
  /-- The number of files that ran out of time or could not be read. -/
  filesFailed : Nat
  deriving DecidableEq

namespace Outcome

/-- The outcome of a run over no file. -/
def empty : Outcome where
  catalog := Catalog.empty
  diagnostics := []
  filesProcessed := 0
  filesFailed := 0

/-- Adds a file that ran out of time. -/
def addFailed (o : Outcome) (file : FileOutput) : Outcome :=
  { o with
    diagnostics := o.diagnostics ++ file.diagnostics
    filesFailed := o.filesFailed + 1 }

/-- Adds a file that was classified. -/
def addProcessed (o : Outcome) (file : FileOutput) : Outcome :=
  { o with
    catalog := o.catalog.extend file.records
    diagnostics := o.diagnostics ++ file.diagnostics
    filesProcessed := o.filesProcessed + 1 }

/-- Two outcomes one after the other. -/
def combine (o other : Outcome) : Outcome where
  catalog := o.catalog.merge other.catalog
  diagnostics := o.diagnostics ++ other.diagnostics
  filesProcessed := o.filesProcessed + other.filesProcessed
  filesFailed := o.filesFailed + other.filesFailed

/-- Whether there is an error among the diagnostics. -/
def hasErrors (o : Outcome) : Bool :=
  o.diagnostics.any fun d => d.severity == .error

/-- Whether there is a warning or an error among the diagnostics. -/
def hasWarnings (o : Outcome) : Bool :=
  o.diagnostics.any fun d => Severity.warning.rank ≤ d.severity.rank

/-- The diagnostics of a severity. -/
def bySeverity (o : Outcome) (severity : Severity) : List Diagnostic :=
  o.diagnostics.filter fun d => d.severity == severity

/-- The diagnostics at least as bad, for a display of the source. -/
def reports (o : Outcome) (severity : Severity) : List Report :=
  (Diagnostic.atLeast severity o.diagnostics).map Diagnostic.report

/-- The line that sums a run up. -/
def summary (o : Outcome) : String :=
  "ngmeta: " ++ o.catalog.total.repr ++ " records from " ++ o.filesProcessed.repr ++ " files (" ++
  o.filesFailed.repr ++ " failed); " ++ (Diagnostic.count .error o.diagnostics).repr ++
  " error(s), " ++ (Diagnostic.count .warning o.diagnostics).repr ++ " warning(s), " ++
  (Diagnostic.count .info o.diagnostics).repr ++ " info(s)\n"

/-- The diagnostics at least as bad as text, and the line that sums the run up. -/
def formatReport (o : Outcome) (severity : Severity) : String :=
  String.join ((Diagnostic.atLeast severity o.diagnostics).map Diagnostic.block) ++ o.summary

end Outcome

/-- Adds files to an outcome in order. With `failOnTimeout` the first file that runs out of time
ends the run. -/
def extractFrom (e : Extractor) (o : Outcome) : List TimedUnit → Except RunError Outcome
  | [] => .ok o
  | unit :: rest =>
    let file := unit.output e.config
    match file.timeout with
    | none => extractFrom e (o.addProcessed file) rest
    | some timeout =>
      if e.failOnTimeout then .error (.timeout timeout)
      else extractFrom e (o.addFailed file) rest

/-- A run over files, each under a deadline of its own. -/
def extractUnder (e : Extractor) (units : List TimedUnit) : Except RunError Outcome :=
  extractFrom e Outcome.empty units

/-- A run over files under the deadline of the configuration. -/
def extract (e : Extractor) (units : List SourceUnit) : Except RunError Outcome :=
  extractUnder e (units.map fun unit => { unit, expired := Deadline.ofConfig e.config })

end DeclCatalog
