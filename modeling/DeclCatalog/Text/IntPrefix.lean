import DeclCatalog.Text.Blank
import DeclCatalog.Text.Digit
import DeclCatalog.Word

/-!
# Integer prefixes

The integer that a numeric literal begins with: leading blanks, one optional sign, then the longest
run of decimal digits. What follows the digits (a fraction, an exponent, a suffix) is not read.

- `splitSign`: the sign, and what follows it.
- `intPrefix?`: the signed value, when there is a digit and the digits fit a 64-bit integer.
-/

namespace DeclCatalog.Text

/-- Splits an optional sign off: `true` stands for a minus. -/
def splitSign : List Char → Bool × List Char
  | '-' :: rest => (true, rest)
  | '+' :: rest => (false, rest)
  | rest => (false, rest)

/-- The integer a text begins with. The digits alone have to fit a signed word, with either sign. -/
def intPrefix? (raw : String) : Option Int64 :=
  let (negative, rest) := splitSign (raw.toList.dropWhile isBlank)
  let digits := rest.takeWhile Char.isDigit
  let value := decimalValue digits
  if digits.isEmpty || Word.signedBound ≤ value then none
  else some (if negative then Int64.ofInt (-value) else Int64.ofInt value)

end DeclCatalog.Text
