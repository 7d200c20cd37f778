/-!
# Doubles

Binary floating point numbers with 53 significant bits, over natural numbers. Only the top of their
range matters here: which numbers are too large for it.

- `Double.bound`: the least number that rounds to no double.
- `Double.round`: the nearest number with 53 significant bits.
-/

namespace DeclCatalog.Double

/-- The number of significant bits. -/
def precision : Nat :=
  53

/-- The least number that rounds to no double: half a unit in the last place above the largest. -/
def bound : Nat :=
  Nat.pow 2 1024 - Nat.pow 2 970

/-- A quotient rounded to the nearest number; a half goes to the even neighbour. -/
def divRound (n d : Nat) : Nat :=
  let q := n / d
  let r := n % d
  if d < 2 * r || (d == 2 * r && q % 2 == 1) then q + 1 else q

/-- The nearest number with no more bits than a double has, for any size; a half goes to the even
neighbour. -/
def round (n : Nat) : Nat :=
  let unit := Nat.pow 2 (n.log2 + 1 - precision)
  divRound n unit * unit

end DeclCatalog.Double
