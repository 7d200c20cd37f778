import DeclCatalog.Json.Encode
import DeclCatalog.Path

/-!
# Diagnostics

Reading a file never fails on something it does not know: it records a sentinel and says so in a
diagnostic.

- `Severity`, `Rule`: how bad a finding is, and which of the nine rules it belongs to.
- `Location`, `Diagnostic`: a finding at a place of a file.
- `Diagnostic.block`, `Diagnostic.line`: the text on several lines and on one.
- `Diagnostic.report`: message, help and label for a display of the source.
-/

namespace DeclCatalog

/-- How bad a finding is. -/
inductive Severity where
  /-- Nothing was lost that could be recognized. -/
  | info
  /-- Something was not understood and replaced by a sentinel. -/
  | warning
  /-- What a file gives was dropped or may be incomplete. -/
  | error
  deriving DecidableEq

namespace Severity

/-- The severities in ascending order. -/
def all : List Severity :=
  [.info, .warning, .error]

/-- The place of a severity in their order. -/
def rank : Severity → Nat
  | .info => 0
  | .warning => 1
  | .error => 2

/-- The name of a severity. -/
def name : Severity → String
  | .info => "info"
  | .warning => "warning"
  | .error => "error"

/-- The severity of a name. -/
def ofName? (name : String) : Option Severity :=
  all.find? fun severity => severity.name == name

/-- Reads a severity. -/
def ofJson? (j : Json) : Option Severity :=
  j.asChoice? ofName?

end Severity

/-- What a finding is about. -/
inductive Rule where
  | unknownExpression
  | unknownType
  | skippedObjectMember
  | depthLimit
  | fileTimeout
  | unsetDecoratorField
  | skippedMember
  | unparsableNumber
  | parseError
  deriving DecidableEq

namespace Rule

/-- Every rule, in the order of the codes. -/
def all : List Rule :=
  [.unknownExpression, .unknownType, .skippedObjectMember, .depthLimit, .fileTimeout,
   .unsetDecoratorField, .skippedMember, .unparsableNumber, .parseError]

/-- The code of a rule. -/
def code : Rule → String
  | .unknownExpression => "NGM001"
  | .unknownType => "NGM002"
  | .skippedObjectMember => "NGM003"
  | .depthLimit => "NGM004"
  | .fileTimeout => "NGM005"
  | .unsetDecoratorField => "NGM006"
  | .skippedMember => "NGM007"
  | .unparsableNumber => "NGM008"
  | .parseError => "NGM009"

/-- The name of a rule. -/
def name : Rule → String
  | .unknownExpression => "unknown-expression"
  | .unknownType => "unknown-type"
  | .skippedObjectMember => "skipped-object-member"
  | .depthLimit => "depth-limit"
  | .fileTimeout => "file-timeout"
  | .unsetDecoratorField => "unset-decorator-field"
  | .skippedMember => "skipped-member"
  | .unparsableNumber => "unparsable-number"
  | .parseError => "parse-error"

/-- The severity of what a rule finds. -/
def severity : Rule → Severity
  | .skippedObjectMember => .info
  | .unsetDecoratorField => .info
  | .skippedMember => .info
  | .unparsableNumber => .info
  | .unknownExpression => .warning
  | .unknownType => .warning
  | .depthLimit => .warning
  | .fileTimeout => .error
  | .parseError => .error

/-- What can be done about a finding. -/
def help? : Rule → Option String
  | .depthLimit => some "raise `extractor.max_depth` in ngmeta.toml"
  | .fileTimeout => some "raise or remove `extractor.file_timeout_ms` in ngmeta.toml"
  | .unsetDecoratorField => some "use a literal value for this decorator field"
  | _ => none

/-- The rule of a name. -/
def ofName? (name : String) : Option Rule :=
  all.find? fun rule => rule.name == name

/-- Reads a rule. -/
def ofJson? (j : Json) : Option Rule :=
  j.asChoice? ofName?

end Rule

/-- A place in a file. Lines and columns count from one, and a column is a number of bytes. -/
structure Location where
  file : Path
  line : Nat
  column : Nat
  /-- The number of bytes before it. -/
  offset : Nat
  /-- The number of bytes it covers. -/
  length : Nat
  deriving DecidableEq

namespace Location

/-- A location as a record, unless its file's path is no text. -/
def toJson? (l : Location) : Option Json :=
  l.file.text?.map fun file =>
    .obj (Json.field "file" (.str file) ++ Json.field "line" (.int l.line) ++
      Json.field "column" (.int l.column) ++ Json.field "offset" (.int l.offset) ++
      Json.field "length" (.int l.length))

/-- Reads a location. -/
def ofJson? (j : Json) : Option Location := do
  let fields ← j.record? ["file", "line", "column", "offset", "length"]
  pure {
    file := ← fields.required? "file" Path.ofJson?
    line := ← fields.required? "line" Json.asNat?
    column := ← fields.required? "column" Json.asNat?
    offset := ← fields.required? "offset" Json.asNat?
    length := ← fields.required? "length" Json.asNat? }

/-- `file:line:column`. -/
def text (l : Location) : String :=
  l.file.shown ++ ":" ++ l.line.repr ++ ":" ++ l.column.repr

end Location

/-- A finding at a place of a file. -/
structure Diagnostic where
  rule : Rule
  severity : Severity
  location : Location
  message : String
  deriving DecidableEq

/-- A finding as a display of the source shows it: one label covers the place. -/
structure Report where
  message : String
  help : Option String
  offset : Nat
  length : Nat
  label : String
  deriving DecidableEq

namespace Diagnostic

/-- A finding with the severity of its rule. -/
def ofRule (rule : Rule) (location : Location) (message : String) : Diagnostic where
  rule := rule
  severity := rule.severity
  location := location
  message := message

/-- A finding as a record, unless its file's path is no text. -/
def toJson? (d : Diagnostic) : Option Json :=
  d.location.toJson?.map fun location =>
    .obj (Json.field "kind" (.str d.rule.name) ++ Json.field "severity" (.str d.severity.name) ++
      Json.field "location" location ++ Json.field "message" (.str d.message))

/-- Reads a finding. -/
def ofJson? (j : Json) : Option Diagnostic := do
  let fields ← j.record? ["kind", "severity", "location", "message"]
  pure {
    rule := ← fields.required? "kind" Rule.ofJson?
    severity := ← fields.required? "severity" Severity.ofJson?
    location := ← fields.required? "location" Location.ofJson?
    message := ← fields.required? "message" Json.asString? }

/-- A finding on lines of its own: code, rule and place, then the message, then what can be done. -/
def block (d : Diagnostic) : String :=
  d.rule.code ++ " " ++ d.rule.name ++ " at " ++ d.location.text ++ "\n" ++
  "  " ++ d.severity.name ++ ": " ++ d.message ++ "\n" ++
  match d.rule.help? with
  | some help => "  = help: " ++ help ++ "\n"
  | none => ""

/-- A finding on one line. -/
def line (d : Diagnostic) : String :=
  d.location.text ++ ": " ++ d.severity.name ++ " [" ++ d.rule.code ++ "] " ++ d.message

/-- A finding for a display of the source. -/
def report (d : Diagnostic) : Report where
  message := "[" ++ d.rule.code ++ "] " ++ d.message
  help := d.rule.help?
  offset := d.location.offset
  length := d.location.length
  label := d.rule.name

/-- The number of findings of a severity. -/
def count (severity : Severity) (ds : List Diagnostic) : Nat :=
  ds.countP fun d => d.severity == severity

/-- The findings that are at least as bad. -/
def atLeast (severity : Severity) (ds : List Diagnostic) : List Diagnostic :=
  ds.filter fun d => severity.rank ≤ d.severity.rank

end Diagnostic

end DeclCatalog
