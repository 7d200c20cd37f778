import DeclCatalog.Toml.Number

/-!
# Dates and times of TOML documents

A moment is a date of the calendar, a time of the day, or a date with a time and perhaps an offset.
It is checked and kept as it is written.

- `Toml.daysIn`: the number of days of a month.
- `Toml.date?`, `Toml.time?`, `Toml.offset?`: the text after each part.
- `Toml.moment?`: a moment.
-/

namespace DeclCatalog.Toml

/-- A number of `count` decimal digits from `low` to `high`. -/
def fixed? (count low high : Nat) (cs : List Char) : Option (Nat × List Char) :=
  let digits := cs.take count
  let n := Text.decimalValue digits
  if digits.length = count ∧ digits.all Char.isDigit ∧ low ≤ n ∧ n ≤ high then
    some (n, cs.drop count)
  else none

/-- The text after a character. -/
def char? (c : Char) : List Char → Option (List Char)
  | d :: rest => if c == d then some rest else none
  | [] => none

/-- Whether a year has a leap day. -/
def isLeap (year : Nat) : Bool :=
  year % 4 == 0 && (year % 100 != 0 || year % 400 == 0)

/-- The number of days of a month. -/
def daysIn (year month : Nat) : Nat :=
  if month = 2 then if isLeap year then 29 else 28
  else if month ∈ [4, 6, 9, 11] then 30
  else 31

/-- The text after a date. -/
def date? (cs : List Char) : Option (List Char) := do
  let (year, cs) ← fixed? 4 0 9999 cs
  let cs ← char? '-' cs
  let (month, cs) ← fixed? 2 1 12 cs
  let cs ← char? '-' cs
  let (_, cs) ← fixed? 2 1 (daysIn year month) cs
  pure cs

/-- The text after the fraction of a second that it may begin with. -/
def secondFraction (cs : List Char) : List Char :=
  match cs with
  | '.' :: c :: rest => if c.isDigit then rest.dropWhile Char.isDigit else cs
  | _ => cs

/-- The text after a time; a minute may have a leap second. -/
def time? (cs : List Char) : Option (List Char) := do
  let (_, cs) ← fixed? 2 0 23 cs
  let cs ← char? ':' cs
  let (_, cs) ← fixed? 2 0 59 cs
  let cs ← char? ':' cs
  let (_, cs) ← fixed? 2 0 60 cs
  pure (secondFraction cs)

/-- The text after an offset from universal time. -/
def offset? : List Char → Option (List Char)
  | c :: cs =>
    if c == 'Z' || c == 'z' then some cs
    else if c == '+' || c == '-' then do
      let (_, cs) ← fixed? 2 0 23 cs
      let cs ← char? ':' cs
      let (_, cs) ← fixed? 2 0 59 cs
      pure cs
    else none
  | [] => none

/-- The text after the time and the offset that may follow a date. -/
def afterDate (cs : List Char) : List Char :=
  match cs with
  | c :: rest =>
    if c == 'T' || c == 't' || c == ' ' then
      match time? rest with
      | some rest => (offset? rest).getD rest
      | none => cs
    else cs
  | [] => []

/-- A date, a time, or a date with a time. -/
def moment? (cs : List Char) : Option (Toml × List Char) :=
  (((date? cs).map afterDate) <|> (time? cs)).map fun rest => (.moment (upTo cs rest), rest)

end DeclCatalog.Toml
