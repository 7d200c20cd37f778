import DeclCatalog.Text.Digit
import DeclCatalog.Toml.Basic

/-!
# Text of TOML documents

The lexical forms below the level of a value. A reader takes the characters of a text and gives what
it read with the characters that follow, or nothing when the text does not begin with what it reads.

- `Toml.skipBlank`: white space, line ends and comments between the items of a document.
- `Toml.lineEnd?`: the end of a line on which nothing more may stand.
- `Toml.string?`: the four forms of strings.
- `Toml.key?`: a dotted key.
-/

namespace DeclCatalog.Toml

/-! ## Characters -/

/-- The white space within a line. -/
def isSpace (c : Char) : Bool :=
  c == ' ' || c == '\t'

/-- What a comment or a string may hold as it is: no control characters but the tab. -/
def isPlain (c : Char) : Bool :=
  c == '\t' || (0x20 ≤ c.toNat && c.toNat != 0x7F)

/-- What a basic string holds as it is. -/
def isBasic (c : Char) : Bool :=
  isPlain c && c != '\x22' && c != '\\'

/-- What a literal string holds. -/
def isLiteral (c : Char) : Bool :=
  isPlain c && c != '\x27'

/-- What a key without quotes is made of. -/
def isBare (c : Char) : Bool :=
  c.isAlphanum || c == '_' || c == '-'

/-! ## Between the items of a document -/

/-- The text without the white space within a line that it begins with. -/
def skipSpace (cs : List Char) : List Char :=
  cs.dropWhile isSpace

/-- The text after a line end. -/
def newline? : List Char → Option (List Char)
  | '\n' :: rest => some rest
  | '\r' :: '\n' :: rest => some rest
  | _ => none

/-- The text without the white space, line ends and comments that it begins with; `inComment` says
that a comment is open. -/
def skipBlankFrom : Bool → List Char → List Char
  | _, '\r' :: '\n' :: rest => skipBlankFrom false rest
  | inComment, c :: rest =>
    if c == '\n' then skipBlankFrom false rest
    else if inComment then
      if isPlain c then skipBlankFrom true rest else c :: rest
    else if isSpace c then skipBlankFrom false rest
    else if c == '#' then skipBlankFrom true rest
    else c :: rest
  | _, [] => []

/-- The text without the white space, line ends and comments that it begins with. -/
def skipBlank (cs : List Char) : List Char :=
  skipBlankFrom false cs

/-- The text without the white space and the line ends that it begins with. -/
def skipBreaks : List Char → List Char
  | '\r' :: '\n' :: rest => skipBreaks rest
  | c :: rest => if c == '\n' || isSpace c then skipBreaks rest else c :: rest
  | [] => []

/-- The text after the comment it may begin with. -/
def skipComment : List Char → List Char
  | '#' :: rest => rest.dropWhile isPlain
  | rest => rest

/-- The text after the end of a line on which only white space and a comment are left. -/
def lineEnd? (cs : List Char) : Option (List Char) :=
  match skipComment (skipSpace cs) with
  | [] => some []
  | rest => newline? rest

/-! ## Strings -/

/-- The character with the code point that hexadecimal digits give; surrogates have none. -/
def scalar? (digits : List Char) : Option Char :=
  if digits.all (Text.isDigitIn 16) then
    let n := Text.positionalValue 16 digits
    if n < 0xD800 ∨ (0xDFFF < n ∧ n < 0x110000) then some (Char.ofNat n) else none
  else none

/-- A character given by `count` hexadecimal digits. -/
def codePoint? (count : Nat) (cs : List Char) : Option (Char × List Char) :=
  let digits := cs.take count
  if digits.length = count then (scalar? digits).map fun c => (c, cs.drop count) else none

/-- The character that an escape denotes, after its backslash. -/
def escape? : List Char → Option (Char × List Char)
  | 'b' :: rest => some ('\x08', rest)
  | 't' :: rest => some ('\t', rest)
  | 'n' :: rest => some ('\n', rest)
  | 'f' :: rest => some ('\x0c', rest)
  | 'r' :: rest => some ('\r', rest)
  | '\x22' :: rest => some ('\x22', rest)
  | '\\' :: rest => some ('\\', rest)
  | 'u' :: rest => codePoint? 4 rest
  | 'U' :: rest => codePoint? 8 rest
  | _ => none

/-- The text after a backslash at the end of a line: the line end and all white space after it
belong to the escape. -/
def fold? (cs : List Char) : Option (List Char) :=
  (newline? (skipSpace cs)).map skipBreaks

/-- The characters of a basic string up to its closing quote; `bound` limits their number. -/
def basic? : Nat → List Char → Option (List Char × List Char)
  | 0, _ => none
  | bound + 1, cs =>
    match cs with
    | [] => none
    | '\x22' :: rest => some ([], rest)
    | '\\' :: rest => do
      let (c, rest) ← escape? rest
      let (body, rest) ← basic? bound rest
      pure (c :: body, rest)
    | c :: rest =>
      if isBasic c then do
        let (body, rest) ← basic? bound rest
        pure (c :: body, rest)
      else none

/-- The characters of a basic string of several lines up to its three closing quotes, before which
up to two quotes may stand that belong to the string; `bound` limits their number. -/
def basicBlock? : Nat → List Char → Option (List Char × List Char)
  | 0, _ => none
  | bound + 1, cs =>
    match cs with
    | [] => none
    | '\x22' :: '\x22' :: '\x22' :: '\x22' :: '\x22' :: rest => some (['\x22', '\x22'], rest)
    | '\x22' :: '\x22' :: '\x22' :: '\x22' :: rest => some (['\x22'], rest)
    | '\x22' :: '\x22' :: '\x22' :: rest => some ([], rest)
    | '\\' :: rest =>
      match fold? rest with
      | some rest => basicBlock? bound rest
      | none => do
        let (c, rest) ← escape? rest
        let (body, rest) ← basicBlock? bound rest
        pure (c :: body, rest)
    | '\r' :: '\n' :: rest => do
      let (body, rest) ← basicBlock? bound rest
      pure ('\n' :: body, rest)
    | c :: rest =>
      if isBasic c || c == '\n' || c == '\x22' then do
        let (body, rest) ← basicBlock? bound rest
        pure (c :: body, rest)
      else none

/-- The characters of a literal string up to its closing quote. -/
def literal? (cs : List Char) : Option (List Char × List Char) :=
  match cs.dropWhile isLiteral with
  | '\x27' :: rest => some (cs.takeWhile isLiteral, rest)
  | _ => none

/-- The characters of a literal string of several lines up to its three closing quotes, before
which up to two quotes may stand that belong to the string. -/
def literalBlock? : List Char → Option (List Char × List Char)
  | [] => none
  | '\x27' :: '\x27' :: '\x27' :: '\x27' :: '\x27' :: rest => some (['\x27', '\x27'], rest)
  | '\x27' :: '\x27' :: '\x27' :: '\x27' :: rest => some (['\x27'], rest)
  | '\x27' :: '\x27' :: '\x27' :: rest => some ([], rest)
  | '\r' :: '\n' :: rest => (literalBlock? rest).map fun (body, rest) => ('\n' :: body, rest)
  | c :: rest =>
    if isPlain c || c == '\n' then
      (literalBlock? rest).map fun (body, rest) => (c :: body, rest)
    else none

/-- The text after the line end that a string of several lines may begin with. -/
def skipFirstBreak (cs : List Char) : List Char :=
  (newline? cs).getD cs

/-- A string on one line. -/
def lineString? : List Char → Option (List Char × List Char)
  | '\x22' :: rest => basic? (rest.length + 1) rest
  | '\x27' :: rest => literal? rest
  | _ => none

/-- The characters of a string in any of the four forms. -/
def stringChars? : List Char → Option (List Char × List Char)
  | '\x22' :: '\x22' :: '\x22' :: rest => basicBlock? (rest.length + 1) (skipFirstBreak rest)
  | '\x27' :: '\x27' :: '\x27' :: rest => literalBlock? (skipFirstBreak rest)
  | cs => lineString? cs

/-- A string. -/
def string? (cs : List Char) : Option (String × List Char) :=
  (stringChars? cs).map fun (body, rest) => (String.ofList body, rest)

/-! ## Keys -/

/-- A key without quotes. -/
def bareKey? (cs : List Char) : Option (List Char × List Char) :=
  match cs.takeWhile isBare with
  | [] => none
  | name => some (name, cs.dropWhile isBare)

/-- One part of a dotted key. -/
def keyPart? (cs : List Char) : Option (String × List Char) :=
  ((lineString? cs) <|> (bareKey? cs)).map fun (name, rest) => (String.ofList name, rest)

/-- The parts of a dotted key, at most `limit` of them, with white space around each. -/
def keyParts? : Nat → List Char → Option (Key × List Char)
  | 0, _ => none
  | limit + 1, cs => do
    let (part, rest) ← keyPart? (skipSpace cs)
    match skipSpace rest with
    | '.' :: rest =>
      let (key, rest) ← keyParts? limit rest
      pure ({ key with path := part :: key.path }, rest)
    | rest => pure ({ path := [], last := part }, rest)

/-- The most parts of a dotted key, and the deepest nesting of arrays and tables in braces. -/
def levelLimit : Nat :=
  79

/-- A dotted key, with the white space around it. -/
def key? (cs : List Char) : Option (Key × List Char) :=
  keyParts? levelLimit cs

end DeclCatalog.Toml
