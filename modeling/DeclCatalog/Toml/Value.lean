import DeclCatalog.Toml.Moment
import DeclCatalog.Toml.Text

/-!
# Values of TOML documents

Arrays may go over several lines, with comments between their items and a comma after the last;
tables in braces stand on one line and have no such comma.

- `Toml.items?`, `Toml.pairs?`: the items of an array, the pairs of a table in braces.
- `Toml.valueIn?`: a value that nests no deeper than a number of levels.
- `Toml.value?`: a value.
-/

namespace DeclCatalog.Toml

/-- A reader takes the characters of a text and gives a value with the characters that follow it. -/
abbrev Reader := List Char → Option (Toml × List Char)

/-- The text after a fixed word. -/
def word? : List Char → List Char → Option (List Char)
  | [], rest => some rest
  | c :: word, d :: rest => if c == d then word? word rest else none
  | _ :: _, [] => none

/-- The items of an array up to its closing bracket; `bound` limits their number. -/
def items? (item? : Reader) : Nat → List Char → Option (List Toml × List Char)
  | 0, _ => none
  | bound + 1, cs =>
    match skipBlank cs with
    | ']' :: rest => some ([], rest)
    | cs => do
      let (item, rest) ← item? cs
      match skipBlank rest with
      | ',' :: rest =>
        let (items, rest) ← items? item? bound rest
        pure (item :: items, rest)
      | ']' :: rest => pure ([item], rest)
      | _ => none

/-- A dotted key, its value after the equals sign, and what follows. -/
def pair? (item? : Reader) (cs : List Char) : Option ((Key × Toml) × List Char) := do
  let (key, rest) ← key? cs
  let rest ← char? '=' rest
  let (v, rest) ← item? (skipSpace rest)
  pure ((key, v), rest)

/-- The pairs of a table in braces up to its closing brace, at least one of them; `bound` limits
their number. -/
def pairs? (item? : Reader) : Nat → List Char → Option (List (Key × Toml) × List Char)
  | 0, _ => none
  | bound + 1, cs => do
    let (pair, rest) ← pair? item? cs
    match skipSpace rest with
    | ',' :: rest =>
      -- a comma promises another pair, unlike in an array
      let (pairs, rest) ← pairs? item? bound rest
      pure (pair :: pairs, rest)
    | '\x7d' :: rest => pure ([pair], rest)
    | _ => none

/-- A table in braces, after the opening brace. -/
def inline? (item? : Reader) (cs : List Char) : Option (Toml × List Char) :=
  match skipSpace cs with
  | '\x7d' :: rest => some (.table .inline [], rest)
  | cs => do
    let (pairs, rest) ← pairs? item? (cs.length + 1) cs
    let entries ← putAll? [] pairs
    pure (.table .inline entries, rest)

/-- A value without inner values. -/
def scalarValue? (cs : List Char) : Option (Toml × List Char) :=
  match cs with
  | 't' :: rest => (word? ['r', 'u', 'e'] rest).map fun rest => (.boolean true, rest)
  | 'f' :: rest => (word? ['a', 'l', 's', 'e'] rest).map fun rest => (.boolean false, rest)
  | '\x22' :: _ | '\x27' :: _ => (string? cs).map fun (s, rest) => (.string s, rest)
  -- a date begins like a number, so it is tried first
  | _ => (moment? cs) <|> (number? cs)

/-- A value with at most `levels` levels of arrays and tables in braces. -/
def valueIn? : Nat → Reader
  | 0, cs =>
    match cs with
    | '[' :: _ | '\x7b' :: _ => none
    | _ => scalarValue? cs
  | levels + 1, cs =>
    match cs with
    | '[' :: rest =>
      (items? (valueIn? levels) (rest.length + 1) rest).map fun (items, rest) =>
        (.array items, rest)
    | '\x7b' :: rest => inline? (valueIn? levels) rest
    | _ => scalarValue? cs

/-- A value. -/
def value? : Reader :=
  valueIn? levelLimit

end DeclCatalog.Toml
