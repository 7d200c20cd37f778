/-!
# Words of 64 bits

The ranges of the two kinds of 64-bit integers, by the least number above each.

- `Word.unsignedBound`: the number of words.
- `Word.signedBound`: the number of signed words that are not negative.
-/

namespace DeclCatalog.Word

/-- The least number that is too large for an unsigned word. -/
abbrev unsignedBound : Nat :=
  0x10000000000000000

/-- The least number that is too large for a signed word. -/
abbrev signedBound : Nat :=
  0x8000000000000000

/-- Whether an integer is a signed word. -/
abbrev Signed (n : Int) : Prop :=
  -(signedBound : Int) ≤ n ∧ n < signedBound

end DeclCatalog.Word
