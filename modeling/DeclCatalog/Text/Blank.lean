/-!
# White space

Blank characters are those with the Unicode property `White_Space`; the set is larger than what
`Char.isWhitespace` knows, which is the ASCII part without the vertical tab and the form feed.

- `isBlank`: the property, as a table of ranges.
- `trim`: a text without its leading and trailing blanks.
-/

namespace DeclCatalog.Text

/-- The ranges of code points, ends included, that have the property `White_Space`. -/
def blankRanges : List (Nat × Nat) :=
  [(0x09, 0x0D), (0x20, 0x20), (0x85, 0x85), (0xA0, 0xA0), (0x1680, 0x1680), (0x2000, 0x200A),
   (0x2028, 0x2029), (0x202F, 0x202F), (0x205F, 0x205F), (0x3000, 0x3000)]

/-- Whether a character is white space. -/
def isBlank (c : Char) : Bool :=
  blankRanges.any fun (lo, hi) => lo ≤ c.toNat && c.toNat ≤ hi

/-- The text without its leading and trailing blanks. -/
def trim (s : String) : String :=
  String.ofList ((s.toList.dropWhile isBlank).reverse.dropWhile isBlank).reverse

end DeclCatalog.Text
