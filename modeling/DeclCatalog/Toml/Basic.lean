/-!
# TOML values

- `Toml`: a value. A table is a list of entries in the order in which they were made, and carries
  the form in which it was made, because the form decides what may still be added to it.
- `Toml.Key`: a dotted key, as the keys of the tables on the way and the key in the last of them.
- `Toml.put?`: adds a value under a dotted key.
- `Toml.under?`: works on the table that a header's path leads to.
- `Toml.openTable?`, `Toml.appendTable?`: add a table for a header in single or double brackets.

No operation gives a key twice: what would define a key or a table a second time is refused.
-/

namespace DeclCatalog

/-- How a table was made. -/
inductive TableForm where
  /-- Written in braces; it is complete. -/
  | inline
  /-- Made on the way of a dotted key. -/
  | dotted
  /-- Made on the way of a longer header. -/
  | implied
  /-- Named by a header of its own. -/
  | header
  deriving DecidableEq

/-- Whether a dotted key may lead through a table of this form; `ends` says that the key ends in
it. -/
def TableForm.admits (ends : Bool) : TableForm → Bool
  | .dotted => true
  | .implied => !ends
  | .inline | .header => false

/-- A TOML value. -/
inductive Toml where
  | string (value : String)
  | integer (value : Int)
  /-- A number with a fraction or an exponent, as it is written. -/
  | float (text : String)
  | boolean (value : Bool)
  /-- A date, a time or both, as it is written. -/
  | moment (text : String)
  | array (items : List Toml)
  | table (form : TableForm) (entries : List (String × Toml))
  /-- The tables of headers in double brackets. -/
  | tables (items : List (List (String × Toml)))

namespace Toml

/-- The entries of a table. -/
abbrev Entries := List (String × Toml)

/-- A dotted key. -/
structure Key where
  /-- The keys of the tables on the way. -/
  path : List String
  /-- The key in the last of these tables. -/
  last : String
  deriving DecidableEq

/-- Replaces the value of a key by what `f` makes of it; a new key comes last. -/
def update? (key : String) (f : Option Toml → Option Toml) : Entries → Option Entries
  | [] => (f none).map fun v => [(key, v)]
  | (k, v) :: rest =>
    if k = key then (f (some v)).map fun w => (k, w) :: rest
    else (update? key f rest).map fun rest => (k, v) :: rest

/-- Replaces the last item of a list. -/
def updateLast? {α : Type} (f : α → Option α) : List α → Option (List α)
  | [] => none
  | [a] => (f a).map fun b => [b]
  | a :: rest => (updateLast? f rest).map fun rest => a :: rest

/-- Adds an entry under a key that is not yet taken. -/
def putNew? (key : String) (v : Toml) (entries : Entries) : Option Entries :=
  update? key (fun
    | none => some v
    | some _ => none) entries

/-- Adds a value under a dotted key: the tables on the way are made as needed. None of them may be
complete or named by a header of its own, and the last of them has to be one that dotted keys have
made. Of the tables of a header in double brackets the last one counts. -/
def putAt? (key : String) (v : Toml) : List String → Entries → Option Entries
  | [], entries => putNew? key v entries
  | step :: path, entries =>
    update? step (fun
      | none => (putAt? key v path []).map (Toml.table .dotted)
      | some (.table form inner) =>
        if form.admits path.isEmpty then (putAt? key v path inner).map (Toml.table form) else none
      | some (.tables items) =>
        if path.isEmpty then none
        else (updateLast? (putAt? key v path) items).map Toml.tables
      | some _ => none) entries

/-- Adds a value under a dotted key. -/
def put? (entries : Entries) (key : Key) (v : Toml) : Option Entries :=
  putAt? key.last v key.path entries

/-- Adds pairs of a dotted key and a value in order. -/
def putAll? (entries : Entries) : List (Key × Toml) → Option Entries
  | [] => some entries
  | (key, v) :: rest => do
    let entries ← put? entries key v
    putAll? entries rest

/-- Works on the table that a path of keys leads to; tables on the way are made as needed, and of
the tables of a header in double brackets the last one counts. -/
def under? (f : Entries → Option Entries) : List String → Entries → Option Entries
  | [], entries => f entries
  | step :: path, entries =>
    update? step (fun
      | none => (under? f path []).map (Toml.table .implied)
      | some (.table form inner) =>
        if form = .inline then none else (under? f path inner).map (Toml.table form)
      | some (.tables items) => (updateLast? (under? f path) items).map Toml.tables
      | some _ => none) entries

/-- What the table of a header starts with: the entries of a table that only longer headers have
made so far. -/
def startOf? : Option Toml → Option Entries
  | none => some []
  | some (.table .implied entries) => some entries
  | some _ => none

/-- Adds the table of a header in single brackets, with the pairs below the header. It comes last
among the entries of its parent. -/
def openTable? (key : Key) (pairs : List (Key × Toml)) (root : Entries) : Option Entries :=
  under? (fun parent => do
    let start ← startOf? (parent.lookup key.last)
    let entries ← putAll? start pairs
    -- a table that was only implied so far moves to the end
    pure (parent.filter (fun entry => entry.1 != key.last) ++
      [(key.last, .table .header entries)])) key.path root

/-- Adds a table for a header in double brackets, with the pairs below the header. -/
def appendTable? (key : Key) (pairs : List (Key × Toml)) (root : Entries) : Option Entries :=
  under? (fun parent => do
    let entries ← putAll? [] pairs
    update? key.last (fun
      | none => some (.tables [entries])
      | some (.tables items) => some (.tables (items ++ [entries]))
      | some _ => none) parent) key.path root

/-- Whether a value is a table or an array with nothing in it. -/
def isVoid : Toml → Bool
  | .table _ entries => entries.isEmpty
  | .array items => items.isEmpty
  | .tables items => items.isEmpty
  | _ => false

end Toml

end DeclCatalog
