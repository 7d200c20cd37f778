import DeclCatalog.Double
import DeclCatalog.Text.IntPrefix
import DeclCatalog.Toml.Basic
import DeclCatalog.Word

/-!
# Numbers of TOML documents

An integer is exact and lies in the signed 64-bit range. A float is kept as it is written; one that
is too large for a double is refused.

- `Toml.digits?`: a run of digits, with single underscores between digits.
- `Toml.number?`: an integer, a float, an infinity or a NaN.
-/

namespace DeclCatalog.Toml

/-- The characters of a text before a rest of it. -/
def upTo (cs rest : List Char) : String :=
  String.ofList (cs.take (cs.length - rest.length))

/-! ## Digits -/

/-- The digits that go on after a first one; an underscore may stand before each. -/
def moreDigits (base : Nat) : List Char → List Char × List Char
  | '_' :: c :: rest =>
    if Text.isDigitIn base c then
      let (digits, rest) := moreDigits base rest
      (c :: digits, rest)
    else ([], '_' :: c :: rest)
  | c :: rest =>
    if Text.isDigitIn base c then
      let (digits, rest) := moreDigits base rest
      (c :: digits, rest)
    else ([], c :: rest)
  | [] => ([], [])

/-- A run of at least one digit, without its underscores. -/
def digits? (base : Nat) : List Char → Option (List Char × List Char)
  | c :: rest =>
    if Text.isDigitIn base c then
      let (digits, rest) := moreDigits base rest
      some (c :: digits, rest)
    else none
  | [] => none

/-- The digits of a decimal integer: a zero, or digits that do not begin with one. -/
def whole? : List Char → Option (List Char × List Char)
  | '0' :: rest => some (['0'], rest)
  | cs => digits? 10 cs

/-! ## Integers -/

/-- An integer of the signed 64-bit range. -/
def ofInteger? (n : Int) : Option Toml :=
  if Word.Signed n then some (.integer n) else none

/-- An integer in another base, after its mark. -/
def based? (base : Nat) (cs : List Char) : Option (Toml × List Char) := do
  let (digits, rest) ← digits? base cs
  let v ← ofInteger? (Text.positionalValue base digits)
  pure (v, rest)

/-! ## Floats -/

/-- Whether `digits` as an integer, times ten to the power of `exponent`, is too large for a
double. The number of digits decides far from the bound. -/
def overflows (digits : List Char) (exponent : Int) : Bool :=
  let significant := digits.dropWhile (· == '0')
  let size := (significant.length : Int) + exponent
  let n := Text.decimalValue significant
  if significant.isEmpty || size < 300 then false
  else if 400 < size then true
  else if 0 ≤ exponent then Double.bound ≤ n * Nat.pow 10 exponent.toNat
  else Double.bound * Nat.pow 10 (-exponent).toNat ≤ n

/-- The digits of a fraction; there are none without a point. -/
def fraction? : List Char → Option (List Char × List Char)
  | '.' :: rest => digits? 10 rest
  | rest => some ([], rest)

/-- The value of an exponent; it is zero without a mark. -/
def exponent? : List Char → Option (Int × List Char)
  | c :: rest =>
    if c == 'e' || c == 'E' then do
      let (negative, rest) := Text.splitSign rest
      let (digits, rest) ← digits? 10 rest
      let n := Text.decimalValue digits
      pure (if negative then -(n : Int) else n, rest)
    else some (0, c :: rest)
  | [] => some (0, [])

/-- Whether a fraction or an exponent begins here. -/
def startsFloat : List Char → Bool
  | c :: _ => c == '.' || c == 'e' || c == 'E'
  | [] => false

/-- The number after a sign; `all` is the text with the sign. -/
def decimal? (all : List Char) (negative : Bool) (cs : List Char) : Option (Toml × List Char) := do
  let (whole, rest) ← whole? cs
  if startsFloat rest then
    let (fraction, rest) ← fraction? rest
    let (exponent, rest) ← exponent? rest
    -- below the range the value is an infinity, which is allowed
    if !negative && overflows (whole ++ fraction) (exponent - fraction.length) then none
    else pure (.float (upTo all rest), rest)
  else
    let n := Text.decimalValue whole
    let v ← ofInteger? (if negative then -(n : Int) else n)
    pure (v, rest)

/-- An infinity or a NaN after a sign, or a decimal number. -/
def signed? (all : List Char) (negative : Bool) : List Char → Option (Toml × List Char)
  | 'i' :: 'n' :: 'f' :: rest => some (.float (upTo all rest), rest)
  | 'n' :: 'a' :: 'n' :: rest => some (.float (upTo all rest), rest)
  | cs => decimal? all negative cs

/-- A number. The marks of other bases take no sign. -/
def number? : List Char → Option (Toml × List Char)
  | '0' :: 'x' :: rest => based? 16 rest
  | '0' :: 'o' :: rest => based? 8 rest
  | '0' :: 'b' :: rest => based? 2 rest
  | cs =>
    let (negative, rest) := Text.splitSign cs
    signed? cs negative rest

end DeclCatalog.Toml
