import DeclCatalog.Proofs.Forms
import DeclCatalog.Proofs.TermNormal

/-!
# Resolved terms are well-formed

A term may be built in many ways that no source gives: a literal beside arguments, a key in an
array, a name that spells a built-in tag. The resolvers build none of these, whatever the tree.

- `TypeTerm.IsSound`, `TypeTerm.WellFormed`: what is asked of a type term, and of all that are in
  it.
- `ValueTerm.IsSound`, `ValueTerm.WellFormed`: the same of a value.
- `isSound_typeForm`, `isSound_valueForm`: what the form of a node puts into its term is sound,
  shape by shape.
- `wellFormed_resolveType`, `wellFormed_resolveValue`: **both resolvers give well-formed terms**.
  The rest is induction on the number of levels.
-/

namespace DeclCatalog

/-! ## Type terms -/

theorem Kind.IsGiven.isCanonical {kind : Kind} (h : kind.IsGiven) : kind.IsCanonical :=
  Kind.isCanonical_of_ne_named h.ne_named

namespace TypeTerm

/-- What is asked of a type term apart from its arguments. -/
structure IsSound (t : TypeTerm) : Prop where
  canonical : t.kind.IsCanonical
  exclusive : t.args? = none ∨ t.literal? = none
  fits : ∀ l, t.literal? = some l → l.Fits t.kind

/-- A type term in which every term is sound. -/
def WellFormed (t : TypeTerm) : Prop :=
  ∀ s ∈ t.subterms, s.IsSound

theorem wellFormed_mk {kind : Kind} {args : Option (List TypeTerm)} {literal : Option Literal}
    (hself : (mk kind args literal).IsSound) (hargs : ∀ ts ∈ args, ∀ t ∈ ts, t.WellFormed) :
    (mk kind args literal).WellFormed := by
  intro s hs
  obtain rfl | ⟨ts, hts, t, ht, hs⟩ := mem_subterms_mk.1 hs
  · exact hself
  · exact hargs ts hts t ht s hs

theorem wellFormed_leaf {kind : Kind} (h : kind.IsCanonical) : (leaf kind).WellFormed := by
  refine wellFormed_mk ⟨h, .inl rfl, ?_⟩ ?_
  · rintro l ⟨⟩
  · rintro ts ⟨⟩

theorem wellFormed_composite {kind : Kind} {args : List TypeTerm} (h : kind.IsCanonical)
    (hargs : ∀ t ∈ args, t.WellFormed) : (composite kind args).WellFormed := by
  refine wellFormed_mk ⟨h, .inr rfl, ?_⟩ ?_
  · rintro l ⟨⟩
  · rintro ts ⟨⟩
    exact hargs

theorem wellFormed_scalar {kind : Kind} {l : Literal} (h : l.Fits kind) :
    (scalar kind l).WellFormed := by
  refine wellFormed_mk ⟨h.isGiven.isCanonical, .inl rfl, ?_⟩ ?_
  · rintro l' ⟨⟩
    exact h
  · rintro ts ⟨⟩

theorem wellFormed_unknown : unknown.WellFormed :=
  wellFormed_leaf (Kind.isCanonical_of_ne_named nofun)

theorem wellFormed_identifier (name : String) : (identifier name).WellFormed :=
  wellFormed_leaf (Kind.isCanonical_ofText _)

end TypeTerm

/-! ## Value terms -/

namespace ValueTerm

/-- What is asked of the members of an array or object literal: only those of an object have keys,
and all of these are text. -/
def HasShape : ValueTerm → Prop
  | .group kind members =>
    (kind = .array ∧ ∀ m ∈ members, m.1 = none) ∨
    (kind = .object ∧ ∀ m ∈ members, ∃ name, m.1 = some (TypeTerm.scalar .string (.text name)))
  | _ => True

/-- What is asked of a value apart from the values inside it. -/
structure IsSound (v : ValueTerm) : Prop where
  types : ∀ t ∈ v.ownTypes, t.WellFormed
  shape : v.HasShape

/-- A value in which every value is sound. -/
def WellFormed (v : ValueTerm) : Prop :=
  ∀ w ∈ v.subvalues, w.IsSound

theorem wellFormed_plain {term : TypeTerm} (h : term.WellFormed) : (plain term).WellFormed := by
  intro w hw
  obtain rfl := List.mem_singleton.1 hw
  exact ⟨List.forall_mem_singleton.2 h, trivial⟩

theorem wellFormed_access (operand name : String) : (access operand name).WellFormed := by
  intro w hw
  obtain rfl := List.mem_singleton.1 hw
  refine ⟨?_, trivial⟩
  intro t ht
  cases ht

theorem wellFormed_group {kind : Kind} {members : List Member}
    (hself : (group kind members).IsSound) (h : ∀ m ∈ members, m.2.WellFormed) :
    (group kind members).WellFormed := by
  intro w hw
  rw [subvalues, subvaluesMembers_eq_flatMap] at hw
  obtain rfl | hw := List.mem_cons.1 hw
  · exact hself
  · obtain ⟨m, hm, hw⟩ := List.mem_flatMap.1 hw
    exact h m hm w hw

theorem wellFormed_array {members : List Member}
    (h : ∀ m ∈ members, ∃ v, m = Member.element v ∧ v.WellFormed) :
    (group .array members).WellFormed := by
  refine wellFormed_group ⟨?_, .inl ⟨rfl, ?_⟩⟩ ?_
  · intro t ht
    obtain ⟨m, hm, hkey⟩ := List.mem_filterMap.1 ht
    obtain ⟨v, rfl, -⟩ := h m hm
    cases hkey
  · intro m hm
    obtain ⟨v, rfl, -⟩ := h m hm
    rfl
  · intro m hm
    obtain ⟨v, rfl, hv⟩ := h m hm
    exact hv

theorem wellFormed_object {members : List Member}
    (h : ∀ m ∈ members, ∃ name v, m = Member.property name v ∧ v.WellFormed) :
    (group .object members).WellFormed := by
  refine wellFormed_group ⟨?_, .inr ⟨rfl, ?_⟩⟩ ?_
  · intro t ht
    obtain ⟨m, hm, hkey⟩ := List.mem_filterMap.1 ht
    obtain ⟨name, v, rfl, -⟩ := h m hm
    obtain rfl := Option.some.inj hkey
    exact TypeTerm.wellFormed_scalar (.inl rfl)
  · intro m hm
    obtain ⟨name, v, rfl, -⟩ := h m hm
    exact ⟨name, rfl⟩
  · intro m hm
    obtain ⟨name, v, rfl, hv⟩ := h m hm
    exact hv

theorem wellFormed_call {callee : ValueTerm} {args : List ValueTerm} (hcallee : callee.WellFormed)
    (hargs : ∀ v ∈ args, v.WellFormed) : (call callee args).WellFormed := by
  intro w hw
  rw [subvalues, subvaluesList_eq_flatMap] at hw
  obtain rfl | hw := List.mem_cons.1 hw
  · refine ⟨?_, trivial⟩
    intro t ht
    cases ht
  · obtain hw | hw := List.mem_append.1 hw
    · exact hcallee w hw
    · obtain ⟨v, hv, hw⟩ := List.mem_flatMap.1 hw
      exact hargs v hv w hw

theorem wellFormed_construct {target : TypeTerm} {typeArgs : List TypeTerm} {args : List ValueTerm}
    (htarget : target.WellFormed) (htypeArgs : ∀ t ∈ typeArgs, t.WellFormed)
    (hargs : ∀ v ∈ args, v.WellFormed) : (construct target typeArgs args).WellFormed := by
  intro w hw
  rw [subvalues, subvaluesList_eq_flatMap] at hw
  obtain rfl | hw := List.mem_cons.1 hw
  · exact ⟨List.forall_mem_cons.2 ⟨htarget, htypeArgs⟩, trivial⟩
  · obtain ⟨v, hv, hw⟩ := List.mem_flatMap.1 hw
    exact hargs v hv w hw

theorem wellFormed_unknown (nodeKind : String) : (unknown nodeKind).WellFormed :=
  wellFormed_plain (TypeTerm.wellFormed_leaf (Kind.isCanonical_unknownValue nodeKind))

/-- Every type term in a well-formed value is sound. -/
theorem WellFormed.isSound_of_mem_typeTerms {v : ValueTerm} (h : v.WellFormed) {t : TypeTerm}
    (ht : t ∈ v.typeTerms) : t.IsSound := by
  obtain ⟨w, hw, ht⟩ := List.mem_flatMap.1 ht
  obtain ⟨s, hs, ht⟩ := List.mem_flatMap.1 ht
  exact (h w hw).types s hs t ht

/-- Every kind in a well-formed value is canonical. -/
theorem WellFormed.isCanonical_of_mem_kinds {v : ValueTerm} (h : v.WellFormed) {kind : Kind}
    (hkind : kind ∈ v.kinds) : kind.IsCanonical := by
  obtain hkind | hkind := List.mem_append.1 hkind
  · obtain ⟨t, ht, rfl⟩ := List.mem_map.1 hkind
    exact (h.isSound_of_mem_typeTerms ht).canonical
  · obtain ⟨w, hw, hgroup⟩ := List.mem_filterMap.1 hkind
    have hshape := (h w hw).shape
    cases w with
    | group k members =>
      obtain rfl := Option.some.inj hgroup
      obtain ⟨rfl, -⟩ | ⟨rfl, -⟩ := hshape
      · exact Kind.isCanonical_of_ne_named nofun
      · exact Kind.isCanonical_of_ne_named nofun
    | _ => cases hgroup

end ValueTerm

/-! ## Resolving types

Names enter a term only through `Kind.ofText`, whose result is canonical whatever it reads. -/

/-- A form whose kind, if it has one, is canonical. -/
def TypeForm.IsSound (form : TypeForm) : Prop :=
  ∀ kind, form.kind? = some kind → kind.IsCanonical

theorem isSound_leaf {kind : Kind} (h : kind.IsCanonical) : (TypeForm.leaf kind).IsSound := by
  rintro _ ⟨⟩
  exact h

theorem isSound_composite {kind : Kind} {parts : List Node} (h : kind.IsCanonical) :
    (TypeForm.composite kind parts).IsSound := by
  rintro _ ⟨⟩
  exact h

theorem isSound_typeForm (src : Source) (n : Node) : (typeForm src n).IsSound := by
  have hspec := spec_typeForm src n
  generalize typeForm src n = form at hspec
  cases hspec with
  | keyword hgiven => exact isSound_leaf hgiven.isCanonical
  | name => exact isSound_leaf (Kind.isCanonical_ofText _)
  | chain hgiven => exact isSound_composite hgiven.isCanonical
  | list hgiven => exact isSound_composite hgiven.isCanonical
  | tuple => exact isSound_composite (Kind.isCanonical_of_ne_named nofun)
  | generic => exact isSound_composite (Kind.isCanonical_ofText _)
  | literal raw => exact nofun
  | unrecognized => exact nofun

theorem wellFormed_resolveType (src : Source) (limit levels : Nat) (n : Node) :
    (resolveType src limit levels n).value.WellFormed := by
  -- a part may be no child of the node, but it always has a level less
  induction levels generalizing n with
  | zero => exact TypeTerm.wellFormed_unknown
  | succ levels ih =>
    have hform := isSound_typeForm src (bareType n)
    rw [resolveType]
    cases hcase : typeForm src (bareType n) with
    | leaf kind =>
      rw [hcase] at hform
      exact TypeTerm.wellFormed_leaf (hform kind rfl)
    | literal raw => exact TypeTerm.wellFormed_scalar (.inr (.inl rfl))
    | composite kind parts =>
      rw [hcase] at hform
      exact TypeTerm.wellFormed_composite (hform kind rfl) (Logged.forall_mem_traverse ih parts)
    | unrecognized => exact TypeTerm.wellFormed_unknown

/-! ## Resolving values -/

/-- The term that stands in a form. -/
def ValueForm.term? : ValueForm → Option TypeTerm
  | .term t => some t
  | .construct target _ _ => some target
  | _ => none

/-- A form whose term, if it has one, is well-formed. -/
def ValueForm.IsSound (form : ValueForm) : Prop :=
  ∀ t, form.term? = some t → t.WellFormed

theorem isSound_term {t : TypeTerm} (h : t.WellFormed) : (ValueForm.term t).IsSound := by
  rintro _ ⟨⟩
  exact h

theorem isSound_construct {target : TypeTerm} {typeArgs args : List Node}
    (h : target.WellFormed) : (ValueForm.construct target typeArgs args).IsSound := by
  rintro _ ⟨⟩
  exact h

theorem wellFormed_constructTarget (src : Source) (n : Node) :
    (constructTarget src n).WellFormed := by
  unfold constructTarget
  cases n.child? "constructor" with
  | none => exact TypeTerm.wellFormed_unknown
  | some name =>
    dsimp only
    by_cases hidentifier : (name.kind == "identifier") = true
    · rw [if_pos hidentifier]
      exact TypeTerm.wellFormed_identifier _
    · rw [if_neg hidentifier]
      exact TypeTerm.wellFormed_unknown

theorem isSound_valueForm (src : Source) (n : Node) : (valueForm src n).value.IsSound := by
  have hspec := spec_valueForm src n
  generalize (valueForm src n).value = form at hspec
  cases hspec with
  | scalar hfits => exact isSound_term (TypeTerm.wellFormed_scalar hfits)
  | keyword hgiven => exact isSound_term (TypeTerm.wellFormed_leaf hgiven.isCanonical)
  | name => exact isSound_term (TypeTerm.wellFormed_identifier _)
  | construct => exact isSound_construct (wellFormed_constructTarget src n)
  | _ => exact nofun

theorem wellFormed_resolveValue (src : Source) (limit levels : Nat) (n : Node) :
    (resolveValue src limit levels n).value.WellFormed := by
  induction levels generalizing n with
  | zero => exact ValueTerm.wellFormed_unknown depthLimitKind
  | succ levels ih =>
    have hargs : ∀ ns : List Node,
        ∀ v ∈ (Logged.traverse (resolveValue src limit levels) ns).value, v.WellFormed :=
      Logged.forall_mem_traverse ih
    have hform := isSound_valueForm src n
    rw [resolveValue, Logged.value_bind]
    cases hcase : (valueForm src n).value with
    | term t =>
      rw [hcase] at hform
      exact ValueTerm.wellFormed_plain (hform t rfl)
    | access operand name => exact ValueTerm.wellFormed_access operand name
    | array elements =>
      refine ValueTerm.wellFormed_array (Logged.forall_mem_traverse ?_ elements)
      exact fun element => ⟨_, rfl, ih element⟩
    | object pairs =>
      refine ValueTerm.wellFormed_object (Logged.forall_mem_traverse ?_ pairs)
      exact fun (key, value) => ⟨key, _, rfl, ih value⟩
    | call callee args =>
      refine ValueTerm.wellFormed_call ?_ (hargs args)
      rw [Logged.value_traverse?]
      cases callee with
      | none => exact ValueTerm.wellFormed_unknown n.kind
      | some f => exact ih f
    | construct target typeArgs args =>
      rw [hcase] at hform
      have htypeArgs :=
        Logged.forall_mem_traverse (wellFormed_resolveType src limit levels) typeArgs
      exact ValueTerm.wellFormed_construct (hform target rfl) htypeArgs (hargs args)
    | unrecognized => exact ValueTerm.wellFormed_unknown n.kind

end DeclCatalog
