import DeclCatalog.Logged
import DeclCatalog.Tree.Node

/-!
# Source files

- `Source`: a file's path and its bytes.
- `Source.text`: the text of a node.
- `Source.location`, `Source.report`: where a node stands, and a diagnostic there.
-/

namespace DeclCatalog

/-- A file's path and its bytes. -/
structure Source where
  path : Path
  bytes : ByteArray

namespace Source

/-- The source of a text. -/
def ofText (path : Path) (text : String) : Source where
  path := path
  bytes := text.toUTF8

/-- The text of a node; nothing when its bytes are no text. -/
def text (src : Source) (n : Node) : String :=
  (String.fromUTF8? (src.bytes.extract n.head.start n.head.stop)).getD ""

/-- The line of an offset: one more than the line feeds before it. -/
def line (src : Source) (offset : Nat) : Nat :=
  (src.bytes.extract 0 offset).data.toList.count 10 + 1

/-- The column of an offset: one more than the bytes between it and the line feed before it. -/
def column (src : Source) (offset : Nat) : Nat :=
  ((src.bytes.extract 0 offset).data.toList.reverse.takeWhile (· != 10)).length + 1

/-- Where a node stands. -/
def location (src : Source) (n : Node) : Location where
  file := src.path
  line := src.line n.head.start
  column := src.column n.head.start
  offset := n.head.start
  length := n.head.stop - n.head.start

/-- Raises a diagnostic at a node. -/
def report (src : Source) (rule : Rule) (n : Node) (message : String) : Logged Unit :=
  Logged.report (Diagnostic.ofRule rule (src.location n) message)

/-- The text of the child in a field. -/
def fieldText? (src : Source) (n : Node) (field : String) : Option String :=
  (n.child? field).map src.text

end Source

end DeclCatalog
