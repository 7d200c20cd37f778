import DeclCatalog.Proofs.DecoratorFields
import Mathlib.Data.List.Forall2

/-!
# Lists of texts

Four keys of a decorator take a list of texts. Each element of such a list is taken as text, and the
quotes around a literal are not part of it. Whether there are quotes around an element is told from
the first and the last character alone, so the quotes of two literals at either end of an expression
are taken for a pair.

- `Text.IsQuoted`, `Text.stripQuotes_eq_self_iff`: **a text is left as it is if and only if it does
  not begin and end with the same quote**.
- `ListKey`, `Role.hasList`, `Record.list?`: the keys, the roles that have them, and the lists of a
  record.
- `list?_collectDecorated`: the list of a key is that of the last value with the key.
- `IsEntryOf`, `isEntryOf_stripQuotes_iff`: what the entry of an element should be, and when it is.
- `string_list_strips_literals`: **a literal loses its quotes, and another element stays as it is**
  unless it begins and ends with the same quote.
- `string_list_may_strip_others`: an element that does so loses them.
-/

namespace DeclCatalog

/-! ## Quotes around a text -/

namespace Text

/-- Whether a text begins and ends with the same quote. -/
def IsQuoted (s : String) : Prop :=
  ∃ q body, isQuote q = true ∧ s.toList = q :: (body ++ [q])

theorem stripQuoteChars_eq_self {cs : List Char}
    (h : ¬ ∃ q body, isQuote q = true ∧ cs = q :: (body ++ [q])) : stripQuoteChars cs = cs := by
  cases cs with
  | nil => rfl
  | cons c rest =>
    rw [stripQuoteChars]
    cases hlast : rest.getLast? with
    | none => rw [List.getLast?_eq_none_iff.1 hlast]
    | some d =>
      refine if_neg fun hquotes => h ?_
      obtain ⟨hquote, hsame⟩ := Bool.and_eq_true_iff.1 hquotes
      obtain rfl : c = d := beq_iff_eq.1 hsame
      obtain ⟨body, rfl⟩ := List.getLast?_eq_some_iff.1 hlast
      exact ⟨c, body, hquote, rfl⟩

/-- A text that is quoted is what stands between its quotes. -/
theorem toList_stripQuotes {s : String} {q : Char} {body : List Char} (hq : isQuote q = true)
    (h : s.toList = q :: (body ++ [q])) : (stripQuotes s).toList = body := by
  rw [stripQuotes, h, stripQuoteChars_quoted hq, String.toList_ofList]

/-- A text is left as it is if and only if it is not quoted. -/
theorem stripQuotes_eq_self_iff {s : String} : stripQuotes s = s ↔ ¬ IsQuoted s := by
  constructor
  · rintro hself ⟨q, body, hq, hquoted⟩
    have hbody := toList_stripQuotes hq hquoted
    rw [hself, hquoted] at hbody
    -- what is quoted is longer than what stands between the quotes
    have hlength := congrArg List.length hbody
    simp only [List.length_cons, List.length_append, List.length_nil] at hlength
    omega
  · intro hnot
    rw [stripQuotes, stripQuoteChars_eq_self hnot, String.ofList_toList]

end Text

/-! ## The keys of lists -/

/-- A key of a decorator that takes a list of texts. -/
inductive ListKey where
  | inputs
  | outputs
  | styles
  | styleUrls

/-- The key as it is written. -/
def ListKey.name : ListKey → String
  | .inputs => "inputs"
  | .outputs => "outputs"
  | .styles => "styles"
  | .styleUrls => "styleUrls"

/-- Whether the decorator of a role has a key. -/
def Role.hasList : Role → ListKey → Bool
  | .component, _ => true
  | .directive, .inputs => true
  | .directive, .outputs => true
  | _, _ => false

/-- The list that a record has for a key. -/
def Record.list? : Record → ListKey → Option (List String)
  | .component r, .inputs => r.info.directive.inputs
  | .component r, .outputs => r.info.directive.outputs
  | .component r, .styles => r.info.styles
  | .component r, .styleUrls => r.info.styleUrls
  | .directive r, .inputs => r.info.inputs
  | .directive r, .outputs => r.info.outputs
  | _, _ => none

section

variable {src : Source} {config : Config} {site : Site} {role : Role} {key : ListKey}

theorem list?_recordBy {limit : Nat} {value? : String → Option Node} {n : Node} {base : ClassRecord}
    (hkey : role.hasList key = true) :
    (recordBy src limit value? n base role).list? key =
      (value? key.name).bind (textsAt? src) := by
  cases role with
  | component => cases key <;> rfl
  | directive =>
    cases key with
    | inputs => rfl
    | outputs => rfl
    | styles => cases hkey
    | styleUrls => cases hkey
  | injectable => cases hkey
  | module => cases hkey
  | pipe => cases hkey

/-- The list of a key is what the last value with the key gives. -/
theorem list?_collectDecorated (hkey : role.hasList key = true) :
    (collectDecorated src config site role).value.list? key =
      (lastOf? (configPairs src config.aliases site role).value key.name).bind (textsAt? src) := by
  rw [collectDecorated_eq, Logged.value_bind, Logged.value_bind, value_recordWith,
    list?_recordBy hkey]

end

/-! ## The entry of an element -/

/-- Whether a node is a string or a template. -/
def IsStringLiteral (e : Node) : Prop :=
  e.kind = "string" ∨ e.kind = "template_string"

/-- What the entry of an element of a list should be: what stands between the quotes of a literal,
and the text of any other element. -/
structure IsEntryOf (src : Source) (e : Node) (entry : String) : Prop where
  literal : IsStringLiteral e → ∀ q body, Text.isQuote q = true →
    (src.text e).toList = q :: (body ++ [q]) → entry.toList = body
  other : ¬ IsStringLiteral e → entry = src.text e

theorem isEntryOf_stripQuotes_iff {src : Source} {e : Node} :
    IsEntryOf src e (Text.stripQuotes (src.text e)) ↔
      IsStringLiteral e ∨ ¬ Text.IsQuoted (src.text e) := by
  constructor
  · intro h
    by_cases hliteral : IsStringLiteral e
    · exact .inl hliteral
    · exact .inr (Text.stripQuotes_eq_self_iff.1 (h.other hliteral))
  · intro h
    refine ⟨fun _ q body hq htext => Text.toList_stripQuotes hq htext, fun hother => ?_⟩
    obtain hliteral | hplain := h
    · exact absurd hliteral hother
    · exact Text.stripQuotes_eq_self_iff.2 hplain

/-- **Of a list of texts, a literal loses its quotes, and another element stays as it is unless it
begins and ends with the same quote.** Where the last value of a key is an array, the list of the
key has one entry for each of its elements, in order. -/
theorem string_list_strips_literals (src : Source) (config : Config) (site : Site) (role : Role)
    (key : ListKey) (array : Node) (hkey : role.hasList key = true)
    (hlast : lastOf? (configPairs src config.aliases site role).value key.name = some array)
    (harray : array.kind = "array") :
    ∃ entries, (collectDecorated src config site role).value.list? key = some entries ∧
      List.Forall₂ (fun e entry => IsEntryOf src e entry ↔
        IsStringLiteral e ∨ ¬ Text.IsQuoted (src.text e)) array.namedChildren entries ∧
      ((∀ e ∈ array.namedChildren, IsStringLiteral e ∨ ¬ Text.IsQuoted (src.text e)) →
        List.Forall₂ (IsEntryOf src) array.namedChildren entries) := by
  refine ⟨array.namedChildren.map fun e => Text.stripQuotes (src.text e), ?_, ?_, ?_⟩
  · rw [list?_collectDecorated hkey, hlast, Option.bind_some, textsAt?, if_pos harray]
  · rw [List.forall₂_map_right_iff, List.forall₂_same]
    exact fun e _ => isEntryOf_stripQuotes_iff
  · intro hplain
    rw [List.forall₂_map_right_iff, List.forall₂_same]
    exact fun e he => isEntryOf_stripQuotes_iff.2 (hplain e he)

/-- The source ``@Directive({ outputs: ['a', `b`, c] }) class X {}``. -/
def outputsSource : Source :=
  Source.ofText "outputs.ts"
    "@Directive(\x7b outputs: ['a', \x60b\x60, c] \x7d) class X \x7b\x7d"

/-- A literal of one letter with a quote, at an offset. -/
def literalAt (kind quote : String) (i : Nat) : Node :=
  .named kind none i (i + 3) [
    .token quote i (i + 1), .named "string_fragment" none (i + 1) (i + 2) [],
    .token quote (i + 2) (i + 3)]

/-- A class with one decorator, which is called with an object that has one pair. -/
def onePairSite (nameStop : Nat) (keyStop : Nat) (array : Node) : Site where
  parent := none
  node := .named "class_declaration" none 0 (array.head.stop + 14) [
    .named "decorator" none 0 (array.head.stop + 3) [
      .token "@" 0 1,
      .named "call_expression" none 1 (array.head.stop + 3) [
        .named "identifier" (some "function") 1 nameStop [],
        .named "arguments" (some "arguments") nameStop (array.head.stop + 3) [
          .token "(" nameStop (nameStop + 1),
          .named "object" none (nameStop + 1) (array.head.stop + 2) [
            .token "\x7b" (nameStop + 1) (nameStop + 2),
            .named "pair" none (nameStop + 3) array.head.stop [
              .named "property_identifier" (some "key") (nameStop + 3) keyStop [],
              .token ":" keyStop (keyStop + 1), array],
            .token "\x7d" (array.head.stop + 1) (array.head.stop + 2)],
          .token ")" (array.head.stop + 2) (array.head.stop + 3)]]],
    .token "class" (array.head.stop + 4) (array.head.stop + 9),
    .named "type_identifier" (some "name") (array.head.stop + 10) (array.head.stop + 11) [],
    .named "class_body" (some "body") (array.head.stop + 12) (array.head.stop + 14) [
      .token "\x7b" (array.head.stop + 12) (array.head.stop + 13),
      .token "\x7d" (array.head.stop + 13) (array.head.stop + 14)]]

/-- The array ``['a', `b`, c]``. -/
def outputsArray : Node :=
  .named "array" (some "value") 22 35 [
    .token "[" 22 23, literalAt "string" "\x27" 23, .token "," 26 27,
    literalAt "template_string" "\x60" 28, .token "," 31 32, .named "identifier" none 33 34 [],
    .token "]" 34 35]

/-- Both kinds of literals lose their quotes, and the name has none. -/
theorem string_list_strips_literals_outputs :
    (∀ e ∈ outputsArray.namedChildren,
      IsStringLiteral e ∨ ¬ Text.IsQuoted (outputsSource.text e)) ∧
    (collectDecorated outputsSource Config.standard (onePairSite 10 20 outputsArray)
      .directive).value.list? .outputs = some ["a", "b", "c"] ∧
    List.Forall₂ (IsEntryOf outputsSource) outputsArray.namedChildren ["a", "b", "c"] := by
  have hplain : ∀ e ∈ outputsArray.namedChildren,
      IsStringLiteral e ∨ ¬ Text.IsQuoted (outputsSource.text e) := by
    refine List.forall_mem_cons.2 ⟨.inl (.inl rfl), List.forall_mem_cons.2 ⟨.inl (.inr rfl), ?_⟩⟩
    refine List.forall_mem_singleton.2 (.inr ?_)
    rintro ⟨q, body, -, htext⟩
    have hlength := congrArg List.length htext
    rw [List.length_cons, List.length_append] at hlength
    have hone : (outputsSource.text (.named "identifier" none 33 34 [])).toList.length = 1 := by rfl
    rw [hone, List.length_singleton] at hlength
    omega
  have hlist : (collectDecorated outputsSource Config.standard (onePairSite 10 20 outputsArray)
      .directive).value.list? .outputs = some ["a", "b", "c"] := by rfl
  obtain ⟨entries, hentries, -, hall⟩ :=
    string_list_strips_literals outputsSource Config.standard (onePairSite 10 20 outputsArray)
      .directive .outputs outputsArray rfl rfl rfl
  obtain rfl : entries = ["a", "b", "c"] := Option.some.inj (hentries.symm.trans hlist)
  exact ⟨hplain, hlist, hall hplain⟩

/-- The source `@Component({ inputs: ['a' + 'b'] }) class X {}`. -/
def sumSource : Source :=
  Source.ofText "sum.ts" "@Component(\x7b inputs: ['a' + 'b'] \x7d) class X \x7b\x7d"

/-- The array `['a' + 'b']`. -/
def sumArray : Node :=
  .named "array" (some "value") 21 32 [
    .token "[" 21 22,
    .named "binary_expression" none 22 31 [
      literalAt "string" "\x27" 22, .token "+" 26 27, literalAt "string" "\x27" 28],
    .token "]" 31 32]

/-- A sum of two literals loses the first quote of the one and the last quote of the other. -/
theorem string_list_may_strip_others :
    ¬ ∀ (src : Source) (config : Config) (site : Site) (role : Role) (key : ListKey) (array : Node),
      role.hasList key = true →
      lastOf? (configPairs src config.aliases site role).value key.name = some array →
      array.kind = "array" →
      ∃ entries, (collectDecorated src config site role).value.list? key = some entries ∧
        List.Forall₂ (IsEntryOf src) array.namedChildren entries := by
  intro h
  obtain ⟨entries, hentries, hall⟩ := h sumSource Config.standard (onePairSite 10 19 sumArray)
    .component .inputs sumArray rfl rfl rfl
  have hlist : (collectDecorated sumSource Config.standard (onePairSite 10 19 sumArray)
      .component).value.list? .inputs = some ["a' + 'b"] := by rfl
  obtain rfl : entries = ["a' + 'b"] := Option.some.inj (hentries.symm.trans hlist)
  have hsum := (List.forall₂_cons.1 hall).1
  have hother : ¬ IsStringLiteral (sumArray.namedChildren.head (by decide)) := by
    rintro (hkind | hkind)
    · exact absurd hkind (by decide)
    · exact absurd hkind (by decide)
  exact absurd (hsum.other hother) (by decide)

end DeclCatalog
