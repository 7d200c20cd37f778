import DeclCatalog.Resolve.Value

/-!
# What a form holds

Resolving a node looks at the form of the node and asks nothing else of it. So all that the
resolvers can do with a node is read off the two functions that give the forms, once for each of
them, and what is proved of the resolvers goes by the shapes that are listed here.

- `Kind.IsGiven`: a kind that the grammar gives. It is neither a name nor a sentinel.
- `Literal.Fits`: the kinds that a literal stands with; they are all given.
- `TypeForm.Spec`, `spec_typeForm`: **the shapes that the form of a type has**.
- `ValueForm.Spec`, `spec_valueForm`: **the shapes that the form of a value has**.
- `mem_log_valueForm`: what is said while a form is read off is said of the pairs of an object, or
  of a number.
-/

namespace DeclCatalog

/-! ## Kinds that are given -/

/-- A kind that the grammar gives: neither a name nor a sentinel. -/
structure Kind.IsGiven (kind : Kind) : Prop where
  ne_named : ∀ name, kind ≠ .named name
  isUnknown : kind.isUnknown = false

theorem isGiven_of_keywordKind? {text : String} {kind : Kind}
    (h : keywordKind? text = some kind) : kind.IsGiven := by
  have hall : ∀ given ∈ keywordKind? text, (∀ name, given ≠ .named name) ∧
      given.isUnknown = false := by
    unfold keywordKind?
    split <;> simp [Kind.isUnknown]
  exact ⟨(hall kind h).1, (hall kind h).2⟩

/-- The kinds that a literal stands with. -/
def Literal.Fits : Literal → Kind → Prop
  | .boolean _, kind => kind = .boolean
  | .integer _, kind => kind = .number
  | .text _, kind => kind = .string ∨ kind = .literal ∨ kind = .castAs

theorem Literal.Fits.isGiven {l : Literal} {kind : Kind} (h : l.Fits kind) : kind.IsGiven := by
  cases l with
  | boolean value =>
    obtain rfl := h
    exact ⟨nofun, rfl⟩
  | integer value =>
    obtain rfl := h
    exact ⟨nofun, rfl⟩
  | text raw =>
    obtain rfl | rfl | rfl := h
    · exact ⟨nofun, rfl⟩
    · exact ⟨nofun, rfl⟩
    · exact ⟨nofun, rfl⟩

/-! ## Types -/

/-- The kind that a form gives its term. -/
def TypeForm.kind? : TypeForm → Option Kind
  | .leaf kind => some kind
  | .composite kind _ => some kind
  | .literal _ => none
  | .unrecognized => none

/-- The shapes that the form of a type has. -/
inductive TypeForm.Spec (src : Source) (n : Node) : TypeForm → Prop where
  | keyword {kind : Kind} (hgiven : kind.IsGiven) : Spec src n (.leaf kind)
  | name (hkind : n.kind ∈ ["type_identifier", "nested_type_identifier", "identifier"]) :
      Spec src n (.leaf (Kind.ofText (src.text n)))
  | literal (raw : String) : Spec src n (.literal raw)
  | chain {kind : Kind} (hgiven : kind.IsGiven) : Spec src n (.composite kind n.operands)
  | list {kind : Kind} (hgiven : kind.IsGiven) : Spec src n (.composite kind n.namedChildren)
  | tuple : Spec src n (.composite .tuple (n.namedChildren.map tupleElement))
  | generic {name : Node} (hkind : n.kind = "generic_type") (hname : n.child? "name" = some name) :
      Spec src n (.composite (Kind.ofText (src.text name)) (n.childrenIn "type_arguments"))
  | unrecognized : Spec src n .unrecognized

section

variable (src : Source) (n : Node)

theorem spec_literalForm : (literalForm src n).Spec src n := by
  unfold literalForm
  split
  · exact .keyword ⟨nofun, rfl⟩
  · exact .keyword ⟨nofun, rfl⟩
  · exact .literal _

theorem spec_typeForm : (typeForm src n).Spec src n := by
  unfold typeForm
  split
  · cases hkeyword : keywordKind? (src.text n) with
    | some kind => exact .keyword (isGiven_of_keywordKind? hkeyword)
    | none => exact .unrecognized
  · exact .keyword ⟨nofun, rfl⟩
  · exact .keyword ⟨nofun, rfl⟩
  · exact .keyword ⟨nofun, rfl⟩
  · exact .chain ⟨nofun, rfl⟩
  · exact .chain ⟨nofun, rfl⟩
  · exact .list ⟨nofun, rfl⟩
  · exact spec_literalForm src n
  · exact .list ⟨nofun, rfl⟩
  · exact .keyword ⟨nofun, rfl⟩
  · exact .tuple
  · exact .name (by simp [‹n.kind = "type_identifier"›])
  · exact .name (by simp [‹n.kind = "nested_type_identifier"›])
  · exact .name (by simp [‹n.kind = "identifier"›])
  · cases hname : n.child? "name" with
    | some name => exact .generic ‹n.kind = "generic_type"› hname
    | none => exact .unrecognized
  · exact .unrecognized

end

/-! ## Values -/

/-- The shapes that the form of a value has. -/
inductive ValueForm.Spec (src : Source) (n : Node) : ValueForm → Prop where
  | scalar {kind : Kind} {l : Literal} (hfits : l.Fits kind) :
      Spec src n (.term (TypeTerm.scalar kind l))
  | keyword {kind : Kind} (hgiven : kind.IsGiven) : Spec src n (.term (TypeTerm.leaf kind))
  | name (hkind : n.kind = "identifier") : Spec src n (.term (TypeTerm.identifier (src.text n)))
  | access (operand name : String) : Spec src n (.access operand name)
  | array : Spec src n (.array n.namedChildren)
  | object : Spec src n (.object (objectPairs src n).value)
  | call (hkind : n.kind = "call_expression") :
      Spec src n (.call (n.child? "function") (n.childrenIn "arguments"))
  | construct (hkind : n.kind = "new_expression") :
      Spec src n (.construct (constructTarget src n) (n.childrenIn "type_arguments")
        (n.childrenIn "arguments"))
  | unrecognized : Spec src n .unrecognized

section

variable (src : Source) (n : Node)

theorem spec_numberForm : (numberForm src n).value.Spec src n := by
  unfold numberForm
  dsimp only
  cases Text.intPrefix? (src.text n) with
  | some value => exact .scalar rfl
  | none => exact .keyword ⟨nofun, rfl⟩

theorem spec_valueForm : (valueForm src n).value.Spec src n := by
  unfold valueForm
  split
  · exact .array
  · exact .object
  -- the text of a cast
  · exact .scalar (.inr (.inr rfl))
  · exact .scalar (.inr (.inr rfl))
  · exact .call ‹n.kind = "call_expression"›
  · exact .construct ‹n.kind = "new_expression"›
  · exact .access _ _
  -- `true` and `false`
  · exact .scalar rfl
  · exact .scalar rfl
  · exact spec_numberForm src n
  -- the text of a string or a template
  · exact .scalar (.inl rfl)
  · exact .scalar (.inl rfl)
  · exact .name ‹n.kind = "identifier"›
  · exact .keyword ⟨nofun, rfl⟩
  · exact .keyword ⟨nofun, rfl⟩
  · exact .keyword ⟨nofun, rfl⟩
  · exact .unrecognized

variable {src n}

theorem mem_log_valueForm {d : Diagnostic} (h : d ∈ (valueForm src n).log) :
    d ∈ (objectPairs src n).log ∨ d ∈ (numberForm src n).log := by
  by_cases hobject : n.kind = "object"
  · have hform : (valueForm src n).log = (objectPairs src n).log := by
      simp only [valueForm, hobject, Logged.log_bind, Logged.log_pure, List.append_nil]
    exact .inl (hform ▸ h)
  by_cases hnumber : n.kind = "number"
  · have hform : valueForm src n = numberForm src n := by
      simp only [valueForm, hnumber]
    exact .inr (hform ▸ h)
  · -- any other form is read off without a word
    have hform : (valueForm src n).log = [] := by
      unfold valueForm
      split <;> first | contradiction | rfl
    rw [hform] at h
    cases h

end

end DeclCatalog
