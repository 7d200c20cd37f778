import DeclCatalog.Toml.Value

/-!
# TOML documents

A document is a sequence of pairs, one a line, followed by sections: a header and the pairs below
it.

- `Toml.Section`: a section as it is written.
- `Toml.pairLines?`, `Toml.sections?`: the two parts of a document.
- `Toml.assemble?`: the table that the sections make, added in order.
- `Toml.parse?`: the table that a document denotes.
-/

namespace DeclCatalog.Toml

/-- A header and the pairs below it. -/
structure Section where
  /-- Whether the header has double brackets, and so adds one more table. -/
  repeats : Bool
  key : Key
  pairs : List (Key × Toml)

/-- The pairs up to a header or the end, each on a line of its own; `bound` limits their number. -/
def pairLines? : Nat → List Char → Option (List (Key × Toml) × List Char)
  | 0, _ => none
  | bound + 1, cs =>
    match skipBlank cs with
    | [] => some ([], [])
    | '[' :: rest => some ([], '[' :: rest)
    | cs => do
      let (pair, rest) ← pair? value? cs
      let rest ← lineEnd? rest
      let (pairs, rest) ← pairLines? bound rest
      pure (pair :: pairs, rest)

/-- The key between the brackets of a header, and whether they are double. -/
def header? : List Char → Option ((Bool × Key) × List Char)
  | '[' :: '[' :: rest => do
    let (key, rest) ← key? rest
    let rest ← word? [']', ']'] rest
    pure ((true, key), rest)
  | '[' :: rest => do
    let (key, rest) ← key? rest
    let rest ← char? ']' rest
    pure ((false, key), rest)
  | _ => none

/-- The sections of a document; `bound` limits their number. -/
def sections? : Nat → List Char → Option (List Section)
  | 0, _ => none
  | bound + 1, cs =>
    match cs with
    | [] => some []
    | cs => do
      let ((repeats, key), rest) ← header? cs
      let rest ← lineEnd? rest
      let (pairs, rest) ← pairLines? (rest.length + 1) rest
      let sections ← sections? bound rest
      pure ({ repeats, key, pairs } :: sections)

/-- Adds a section to a table. -/
def addSection? (root : Entries) (s : Section) : Option Entries :=
  if s.repeats then appendTable? s.key s.pairs root else openTable? s.key s.pairs root

/-- Adds sections in order. -/
def assemble? (root : Entries) : List Section → Option Entries
  | [] => some root
  | s :: rest => do
    let root ← addSection? root s
    assemble? root rest

/-- The text without the byte order mark that it may begin with. -/
def skipMark : List Char → List Char
  | '\uFEFF' :: rest => rest
  | cs => cs

/-- The table that a document denotes. -/
def parse? (text : String) : Option Entries := do
  let cs := skipMark text.toList
  let (pairs, rest) ← pairLines? (cs.length + 1) cs
  let sections ← sections? (rest.length + 1) rest
  let root ← putAll? [] pairs
  assemble? root sections

end DeclCatalog.Toml
