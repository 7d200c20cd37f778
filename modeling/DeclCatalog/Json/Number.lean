import DeclCatalog.Double
import DeclCatalog.Json.Basic
import DeclCatalog.Text.IntPrefix
import DeclCatalog.Word

/-!
# Numbers in JSON text

A number is exact when it is a plain integer of the 64-bit ranges, and stays as written otherwise. A
number beyond the doubles can be passed over but not read.

- `Json.overflows`: whether a number is beyond the doubles.
- `Json.number?`: a number at the beginning of a text.
-/

namespace DeclCatalog.Json

/-! ## Forms -/

/-- A run of at least one digit. -/
def digits? (cs : List Char) : Option (List Char × List Char) :=
  match cs.takeWhile Char.isDigit with
  | [] => none
  | ds => some (ds, cs.dropWhile Char.isDigit)

/-- The integer part of a number: a zero, or digits that do not begin with one. -/
def whole? : List Char → Option (List Char × List Char)
  | '0' :: rest => some (['0'], rest)
  | cs => digits? cs

/-- The fraction of a number with its point, or nothing when there is no point. -/
def fraction? : List Char → Option (List Char × List Char)
  | '.' :: rest => (digits? rest).map fun (ds, rest) => ('.' :: ds, rest)
  | rest => some ([], rest)

/-- The sign of an exponent. -/
def exponentSign : List Char → List Char × List Char
  | '+' :: rest => (['+'], rest)
  | '-' :: rest => (['-'], rest)
  | rest => ([], rest)

/-- The exponent of a number with its mark, or nothing when there is no mark. -/
def exponent? : List Char → Option (List Char × List Char)
  | c :: rest =>
    if c == 'e' || c == 'E' then
      let (sign, rest) := exponentSign rest
      (digits? rest).map fun (ds, rest) => (c :: (sign ++ ds), rest)
    else some ([], c :: rest)
  | [] => some ([], [])

/-! ## Range -/

/-- The value of an exponent that is written with its mark; without one it is zero. -/
def exponentValue : List Char → Int
  | _ :: cs =>
    let (negative, ds) := Text.splitSign cs
    let n := Text.decimalValue ds
    if negative then -(n : Int) else n
  | [] => 0

/-- Appends digits to a number as long as it stays a word, and gives the digits that are left. -/
def appendDigits (n : Nat) : List Char → Nat × List Char
  | [] => (n, [])
  | d :: ds =>
    let next := 10 * n + (d.toNat - '0'.toNat)
    if next < Word.unsignedBound then appendDigits next ds else (n, d :: ds)

/-- The largest power of ten that is a double. -/
def maxPower : Nat :=
  308

/-- Whether a number is beyond the doubles. It is taken as a word of its leading digits times a
power of ten; both are rounded before they are multiplied. A digit of the integer part that the word
does not hold raises the power, and one of the fraction does not count. -/
def overflows (whole fraction exponent : List Char) : Bool :=
  let (n, wholeLeft) := appendDigits 0 whole
  let (n, fractionLeft) := appendDigits n fraction
  let power := exponentValue exponent + wholeLeft.length - fraction.length + fractionLeft.length
  if n == 0 || power < 0 then false
  else if maxPower < power then true
  else Double.bound ≤ Double.round n * Double.round (Nat.pow 10 power.toNat)

/-! ## Reading -/

/-- The value of a number's text, whose fraction has its point and whose exponent has its mark. A
negative zero, a fraction, an exponent and an integer outside the 64-bit ranges stay as written. -/
def ofNumber (negative : Bool) (whole fraction exponent : List Char) : Json :=
  let n := Text.decimalValue whole
  let plain := fraction.isEmpty && exponent.isEmpty
  if plain && !negative && n < Word.unsignedBound then .int n
  else if plain && negative && 0 < n && n ≤ Word.signedBound then .int (-(n : Int))
  else if overflows whole (fraction.drop 1) exponent then .unreadable
  else
    .decimal (String.ofList ((if negative then ['-'] else []) ++ whole ++ fraction ++ exponent))

/-- A number after its sign. -/
def unsigned? (negative : Bool) (cs : List Char) : Option (Json × List Char) := do
  let (whole, rest) ← whole? cs
  let (fraction, rest) ← fraction? rest
  let (exponent, rest) ← exponent? rest
  pure (ofNumber negative whole fraction exponent, rest)

/-- A number. -/
def number? : List Char → Option (Json × List Char)
  | '-' :: rest => unsigned? true rest
  | cs => unsigned? false cs

end DeclCatalog.Json
