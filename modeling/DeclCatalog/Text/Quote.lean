/-!
# Quoted text

A source literal is written between two equal delimiters. `stripQuotes` takes one such pair away;
a text that is not delimited stays as it is.
-/

namespace DeclCatalog.Text

/-- The three delimiters of a string or template literal. -/
def isQuote (c : Char) : Bool :=
  c == '\x27' || c == '\x22' || c == '\x60'

/-- The characters between two equal quotes, or all of them. -/
def stripQuoteChars : List Char → List Char
  | [] => []
  | c :: rest =>
    match rest.getLast? with
    | some d => if isQuote c && c == d then rest.dropLast else c :: rest
    | none => [c]

/-- Takes away one pair of equal quotes around a text. Quotes further inside are content. -/
def stripQuotes (raw : String) : String :=
  String.ofList (stripQuoteChars raw.toList)

/-- A text between two equal quotes loses exactly these. -/
theorem stripQuoteChars_quoted {q : Char} (hq : isQuote q = true) (body : List Char) :
    stripQuoteChars (q :: (body ++ [q])) = body := by
  simp [stripQuoteChars, hq]

end DeclCatalog.Text
