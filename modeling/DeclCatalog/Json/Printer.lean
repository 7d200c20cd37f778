import DeclCatalog.Json.Basic

/-!
# JSON text

Writing a value. Both writers put the text of a value in front of the text that follows it. What
is unreadable has no text of its own and is written as `null`.

- `Json.write`, `Json.compact`: no white space.
- `Json.writePretty`, `Json.pretty`: two blanks a level, one item or field a line; an empty array or
  object stays on its line.
-/

namespace DeclCatalog.Json

/-- The lower-case hexadecimal digit of a number below sixteen. -/
def hexDigit (n : Nat) : Char :=
  Nat.digitChar n

/-- A character inside a string. Quotes, backslashes and controls are escaped, and nothing else. -/
def escapeChar (c : Char) : List Char :=
  if c == '\x22' then ['\\', '\x22']
  else if c == '\\' then ['\\', '\\']
  else if c == '\x08' then ['\\', 'b']
  else if c == '\x0c' then ['\\', 'f']
  else if c == '\n' then ['\\', 'n']
  else if c == '\r' then ['\\', 'r']
  else if c == '\t' then ['\\', 't']
  else if c.toNat < 0x20 then
    ['\\', 'u', '0', '0', hexDigit (c.toNat / 16), hexDigit (c.toNat % 16)]
  else [c]

/-- Writes the characters of a string and its closing quote. -/
def writeChars : List Char → List Char → List Char
  | [], rest => '\x22' :: rest
  | c :: cs, rest => escapeChar c ++ writeChars cs rest

/-- Writes a string between quotes. -/
def writeString (s : String) (rest : List Char) : List Char :=
  '\x22' :: writeChars s.toList rest

/-- Writes an integer in decimal. -/
def writeInt : Int → List Char → List Char
  | .ofNat n, rest => Nat.toDigits 10 n ++ rest
  | .negSucc n, rest => '-' :: Nat.toDigits 10 (n + 1) ++ rest

/-- The three words of the format. -/
def writeWord (word : String) (rest : List Char) : List Char :=
  word.toList ++ rest

mutual

/-- Writes a value without white space. -/
def write : Json → List Char → List Char
  | .null, rest => writeWord "null" rest
  | .bool true, rest => writeWord "true" rest
  | .bool false, rest => writeWord "false" rest
  | .int n, rest => writeInt n rest
  | .decimal text, rest => writeWord text rest
  | .str s, rest => writeString s rest
  | .unreadable, rest => writeWord "null" rest
  | .arr [], rest => '[' :: ']' :: rest
  | .arr (item :: items), rest => '[' :: write item (writeItems items (']' :: rest))
  | .obj [], rest => '\x7b' :: '\x7d' :: rest
  | .obj ((key, value) :: fields), rest =>
    '\x7b' :: writeString key (':' :: write value (writeFields fields ('\x7d' :: rest)))

/-- Writes the items after the first one. -/
def writeItems : List Json → List Char → List Char
  | [], rest => rest
  | item :: items, rest => ',' :: write item (writeItems items rest)

/-- Writes the fields after the first one. -/
def writeFields : List (String × Json) → List Char → List Char
  | [], rest => rest
  | (key, value) :: fields, rest =>
    ',' :: writeString key (':' :: write value (writeFields fields rest))

end

/-- The text of a value without white space. -/
def compact (v : Json) : String :=
  String.ofList (write v [])

/-- A new line at a level of indentation. -/
def newLine (level : Nat) (rest : List Char) : List Char :=
  '\n' :: (List.replicate (2 * level) ' ' ++ rest)

mutual

/-- Writes a value whose surroundings are indented by `level` steps. -/
def writePretty (level : Nat) : Json → List Char → List Char
  | .null, rest => writeWord "null" rest
  | .bool true, rest => writeWord "true" rest
  | .bool false, rest => writeWord "false" rest
  | .int n, rest => writeInt n rest
  | .decimal text, rest => writeWord text rest
  | .str s, rest => writeString s rest
  | .unreadable, rest => writeWord "null" rest
  | .arr [], rest => '[' :: ']' :: rest
  | .arr (item :: items), rest =>
    '[' :: newLine (level + 1) (writePretty (level + 1) item
      (writePrettyItems (level + 1) items (newLine level (']' :: rest))))
  | .obj [], rest => '\x7b' :: '\x7d' :: rest
  | .obj ((key, value) :: fields), rest =>
    '\x7b' :: newLine (level + 1) (writeString key (':' :: ' ' :: writePretty (level + 1) value
      (writePrettyFields (level + 1) fields (newLine level ('\x7d' :: rest)))))

/-- Writes the items after the first one, each on its line. -/
def writePrettyItems (level : Nat) : List Json → List Char → List Char
  | [], rest => rest
  | item :: items, rest =>
    ',' :: newLine level (writePretty level item (writePrettyItems level items rest))

/-- Writes the fields after the first one, each on its line. -/
def writePrettyFields (level : Nat) : List (String × Json) → List Char → List Char
  | [], rest => rest
  | (key, value) :: fields, rest =>
    ',' :: newLine level (writeString key (':' :: ' ' :: writePretty level value
      (writePrettyFields level fields rest)))

end

/-- The indented text of a value. -/
def pretty (v : Json) : String :=
  String.ofList (writePretty 0 v [])

end DeclCatalog.Json
