import DeclCatalog.Json.Number
import DeclCatalog.Text.Digit

/-!
# Reading JSON text

A reader takes the characters of a text and gives a value with the characters that follow it, or
nothing when the text does not begin with what it reads. Only the standard grammar is read: no
comments, no trailing commas, no leading zeros, no raw control characters. A part that keeps to the
grammar but denotes nothing, such as a string with half of a surrogate pair, is unreadable, and so
is a part that is nested too deep; it does no harm where nobody asks for it.

- `Json.string?`: a string, the lexical form with escapes.
- `Json.value?`: a value at the beginning of a text, with a bound on the number of steps.
- `Json.parse?`: the value that a whole text denotes.
- `Json.read?`: the same, down to the deepest nesting that is read.
-/

namespace DeclCatalog.Json

/-- The four characters that may stand between tokens. -/
def isSpace (c : Char) : Bool :=
  c == ' ' || c == '\n' || c == '\t' || c == '\r'

/-- The text without the white space it begins with. -/
def skipSpace (cs : List Char) : List Char :=
  cs.dropWhile isSpace

/-! ## Strings -/

/-- Four hexadecimal digits. -/
def hex4? : List Char → Option (Nat × List Char)
  | a :: b :: c :: d :: rest => do
    let a ← Text.hexValue? a
    let b ← Text.hexValue? b
    let c ← Text.hexValue? c
    let d ← Text.hexValue? d
    pure (((a * 16 + b) * 16 + c) * 16 + d, rest)
  | _ => none

/-- The low half of a surrogate pair, where one follows. -/
def lowHalf? : List Char → Option (Nat × List Char)
  | '\\' :: 'u' :: rest => do
    let (low, rest) ← hex4? rest
    if 0xDC00 ≤ low ∧ low < 0xE000 then pure (low, rest) else none
  | _ => none

/-- A character given by four digits, or by a pair of surrogates. Half of a pair on its own is no
character. -/
def codePoint? (cs : List Char) : Option (Option Char × List Char) := do
  let (n, rest) ← hex4? cs
  if 0xD800 ≤ n ∧ n < 0xDC00 then
    match lowHalf? rest with
    | some (low, rest) =>
      pure (some (Char.ofNat (0x10000 + (n - 0xD800) * 0x400 + (low - 0xDC00))), rest)
    | none => pure (none, rest)
  else if 0xDC00 ≤ n ∧ n < 0xE000 then pure (none, rest)
  else pure (some (Char.ofNat n), rest)

/-- What an escape denotes, after its backslash. -/
def escape? : List Char → Option (Option Char × List Char)
  | '\x22' :: rest => some (some '\x22', rest)
  | '\\' :: rest => some (some '\\', rest)
  | '/' :: rest => some (some '/', rest)
  | 'b' :: rest => some (some '\x08', rest)
  | 'f' :: rest => some (some '\x0c', rest)
  | 'n' :: rest => some (some '\n', rest)
  | 'r' :: rest => some (some '\r', rest)
  | 't' :: rest => some (some '\t', rest)
  | 'u' :: rest => codePoint? rest
  | _ => none

/-- What is written up to the closing quote; `bound` limits its length. -/
def stringChars? : Nat → List Char → Option (List (Option Char) × List Char)
  | 0, _ => none
  | bound + 1, cs =>
    match cs with
    | [] => none
    | '\x22' :: rest => some ([], rest)
    | '\\' :: rest => do
      let (c, rest) ← escape? rest
      let (body, rest) ← stringChars? bound rest
      pure (c :: body, rest)
    | c :: rest =>
      if c.toNat < 0x20 then none
      else do
        let (body, rest) ← stringChars? bound rest
        pure (some c :: body, rest)

/-- The text of what a string holds, when all of it is characters. -/
def textOf? (body : List (Option Char)) : Option String :=
  (body.mapM id).map String.ofList

/-- A string after its opening quote; it may denote no text. -/
def string? (bound : Nat) (cs : List Char) : Option (Option String × List Char) :=
  (stringChars? bound cs).map fun (body, rest) => (textOf? body, rest)

/-! ## Values -/

/-- Reads a fixed word. -/
def word? : List Char → List Char → Option (List Char)
  | [], rest => some rest
  | c :: word, d :: rest => if c == d then word? word rest else none
  | _ :: _, [] => none

/-- The value of a string. -/
def ofString : Option String → Json
  | some s => .str s
  | none => .unreadable

/-- A field whose key is a text. -/
def fieldOfKey? : Option String × Json → Option (String × Json)
  | (key, value) => key.map fun key => (key, value)

/-- The value of an object. -/
def ofFields (fields : List (Option String × Json)) : Json :=
  match fields.mapM fieldOfKey? with
  | some fields => .obj fields
  | none => .unreadable

mutual

/-- A value and what follows it. Every step into a value, an item, a field or a character of a
string uses one unit of the bound. Of two steps in a row at least one takes a character, so a bound
above twice the length of the text is never used up. -/
def value? : Nat → List Char → Option (Json × List Char)
  | 0, _ => none
  | bound + 1, cs =>
    match skipSpace cs with
    | [] => none
    | '\x22' :: rest => (string? bound rest).map fun (s, rest) => (ofString s, rest)
    | '[' :: rest =>
      match skipSpace rest with
      | ']' :: rest => some (.arr [], rest)
      | rest => (items? bound rest).map fun (items, rest) => (.arr items, rest)
    | '\x7b' :: rest =>
      match skipSpace rest with
      | '\x7d' :: rest => some (.obj [], rest)
      | rest => (fields? bound rest).map fun (fields, rest) => (ofFields fields, rest)
    | 'n' :: rest => (word? ['u', 'l', 'l'] rest).map fun rest => (.null, rest)
    | 't' :: rest => (word? ['r', 'u', 'e'] rest).map fun rest => (.bool true, rest)
    | 'f' :: rest => (word? ['a', 'l', 's', 'e'] rest).map fun rest => (.bool false, rest)
    | cs => number? cs

/-- The items of an array up to its closing bracket. -/
def items? : Nat → List Char → Option (List Json × List Char)
  | 0, _ => none
  | bound + 1, cs => do
    let (item, rest) ← value? bound cs
    match skipSpace rest with
    | ',' :: rest =>
      let (items, rest) ← items? bound rest
      pure (item :: items, rest)
    | ']' :: rest => pure ([item], rest)
    | _ => none

/-- The fields of an object up to its closing brace. -/
def fields? : Nat → List Char → Option (List (Option String × Json) × List Char)
  | 0, _ => none
  | bound + 1, cs =>
    match skipSpace cs with
    | '\x22' :: rest => do
      let (key, rest) ← string? bound rest
      match skipSpace rest with
      | ':' :: rest =>
        let (value, rest) ← value? bound rest
        match skipSpace rest with
        | ',' :: rest =>
          let (fields, rest) ← fields? bound rest
          pure ((key, value) :: fields, rest)
        | '\x7d' :: rest => pure ([(key, value)], rest)
        | _ => none
      | _ => none
    | _ => none

end

/-- The value that a whole text denotes. -/
def parse? (text : String) : Option Json := do
  let cs := text.toList
  let (v, rest) ← value? (2 * cs.length + 2) cs
  if (skipSpace rest).isEmpty then pure v else none

/-- The deepest nesting that is read from a text. -/
def nestingLimit : Nat :=
  127

/-- The value of a text; what nests deeper than the limit is unreadable. -/
def read? (text : String) : Option Json :=
  (parse? text).map (cut nestingLimit)

end DeclCatalog.Json
