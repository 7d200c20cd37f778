import DeclCatalog.Proofs.KindCodec
import DeclCatalog.Term.Basic

/-!
# Normal terms

A kind is written as a plain tag, so a name that spells another kind is read as that kind
(`Kind.IsTaken`). A term is normal when no kind in it, at any depth, is such a name.

- `TypeTerm.subterms`, `ValueTerm.subvalues`, `ValueTerm.typeTerms`: everything inside a term.
- `TypeTerm.canon`, `ValueTerm.canon`: a term with every kind made canonical. It is the term itself
  exactly when every kind in it is canonical (`TypeTerm.canon_eq_self_iff`,
  `ValueTerm.canon_eq_self_iff`).
-/

namespace DeclCatalog

/-! ## Changing nothing -/

theorem map_eq_self_iff {α : Type} {f : α → α} {items : List α} :
    items.map f = items ↔ ∀ a ∈ items, f a = a := by
  induction items with
  | nil => simp
  | cons a items ih => rw [List.map_cons, List.cons.injEq, ih, List.forall_mem_cons]

theorem option_map_eq_self_iff {α : Type} {f : α → α} {x : Option α} :
    x.map f = x ↔ ∀ a ∈ x, f a = a := by
  cases x <;> simp

/-! ## Type terms -/

namespace TypeTerm

mutual

/-- Induction on type terms: what holds of a term when it holds of its arguments holds of all. -/
@[elab_as_elim]
theorem argsInduction {P : TypeTerm → Prop}
    (mk : ∀ kind args literal, (∀ ts ∈ args, ∀ t ∈ ts, P t) → P (.mk kind args literal)) :
    ∀ t, P t
  | .mk kind none literal => mk kind none literal fun _ h => nomatch h
  | .mk kind (some args) literal => by
    refine mk kind (some args) literal ?_
    rintro _ ⟨⟩
    exact argsInductionList mk args

theorem argsInductionList {P : TypeTerm → Prop}
    (mk : ∀ kind args literal, (∀ ts ∈ args, ∀ t ∈ ts, P t) → P (.mk kind args literal)) :
    ∀ ts : List TypeTerm, ∀ t ∈ ts, P t
  | [] => fun _ h => nomatch h
  | t :: ts => List.forall_mem_cons.2 ⟨argsInduction mk t, argsInductionList mk ts⟩

end

mutual

/-- The term and every term inside it. -/
def subterms : TypeTerm → List TypeTerm
  | .mk kind none literal => [.mk kind none literal]
  | .mk kind (some args) literal => .mk kind (some args) literal :: subtermsList args

/-- Every term inside a list of terms. -/
def subtermsList : List TypeTerm → List TypeTerm
  | [] => []
  | t :: ts => t.subterms ++ subtermsList ts

end

mutual

/-- The term with every kind in it made canonical. -/
def canon : TypeTerm → TypeTerm
  | .mk kind none literal => .mk kind.canon none literal
  | .mk kind (some args) literal => .mk kind.canon (some (canonList args)) literal

/-- `canon` of every term of a list. -/
def canonList : List TypeTerm → List TypeTerm
  | [] => []
  | t :: ts => t.canon :: canonList ts

end

theorem subtermsList_eq_flatMap (ts : List TypeTerm) :
    subtermsList ts = ts.flatMap subterms := by
  induction ts with
  | nil => rfl
  | cons t ts ih => rw [subtermsList, ih, List.flatMap_cons]

theorem canonList_eq_map (ts : List TypeTerm) : canonList ts = ts.map canon := by
  induction ts with
  | nil => rfl
  | cons t ts ih => rw [canonList, ih, List.map_cons]

theorem canon_mk (kind : Kind) (args : Option (List TypeTerm)) (literal : Option Literal) :
    (mk kind args literal).canon = .mk kind.canon (args.map (List.map canon)) literal := by
  cases args with
  | none => rfl
  | some args => rw [canon, canonList_eq_map, Option.map_some]

theorem mem_subterms_mk {kind : Kind} {args : Option (List TypeTerm)} {literal : Option Literal}
    {s : TypeTerm} :
    s ∈ (mk kind args literal).subterms ↔
      s = .mk kind args literal ∨ ∃ ts ∈ args, ∃ t ∈ ts, s ∈ t.subterms := by
  cases args with
  | none => simp [subterms]
  | some args => simp [subterms, subtermsList_eq_flatMap]

/-- Making a term canonical changes nothing exactly when every kind in it is canonical. -/
theorem canon_eq_self_iff (t : TypeTerm) :
    t.canon = t ↔ ∀ s ∈ t.subterms, s.kind.IsCanonical := by
  induction t using argsInduction with
  | mk kind args literal ih =>
    rw [canon_mk, mk.injEq, option_map_eq_self_iff, Kind.canon_eq_self_iff]
    simp only [map_eq_self_iff, mem_subterms_mk]
    constructor
    · rintro ⟨hkind, hargs, -⟩ s (rfl | ⟨ts, hts, t, ht, hs⟩)
      · exact hkind
      · exact (ih ts hts t ht).1 (hargs ts hts t ht) s hs
    · intro h
      refine ⟨h _ (.inl rfl), fun ts hts t ht => (ih ts hts t ht).2 fun s hs => ?_, trivial⟩
      exact h s (.inr ⟨ts, hts, t, ht, hs⟩)

end TypeTerm

/-! ## Value terms -/

namespace ValueTerm

section Induction

-- the three statements use the cases only through each other
set_option linter.unusedSectionVars false

variable {P : ValueTerm → Prop} (plain : ∀ term, P (.plain term))
  (group : ∀ kind members, (∀ m ∈ members, P (Prod.snd m)) → P (.group kind members))
  (call : ∀ callee args, P callee → (∀ v ∈ args, P v) → P (.call callee args))
  (construct : ∀ target typeArgs args, (∀ v ∈ args, P v) → P (.construct target typeArgs args))
  (access : ∀ operand name, P (.access operand name))

include plain group call construct access

mutual

/-- Induction on values: what holds of a value when it holds of the values in it holds of all. -/
@[elab_as_elim]
theorem partsInduction : ∀ v, P v
  | .plain term => plain term
  | .group kind members => group kind members (partsInductionMembers members)
  | .call callee args => call callee args (partsInduction callee) (partsInductionList args)
  | .construct target typeArgs args => construct target typeArgs args (partsInductionList args)
  | .access operand name => access operand name

theorem partsInductionList : ∀ vs : List ValueTerm, ∀ v ∈ vs, P v
  | [] => fun _ h => nomatch h
  | v :: vs => List.forall_mem_cons.2 ⟨partsInduction v, partsInductionList vs⟩

theorem partsInductionMembers :
    ∀ members : List (Option TypeTerm × ValueTerm), ∀ m ∈ members, P m.2
  | [] => fun _ h => nomatch h
  | (_, v) :: members => List.forall_mem_cons.2 ⟨partsInduction v, partsInductionMembers members⟩

end

end Induction

mutual

/-- The value and every value inside it. -/
def subvalues : ValueTerm → List ValueTerm
  | .plain term => [.plain term]
  | .group kind members => .group kind members :: subvaluesMembers members
  | .call callee args => .call callee args :: (callee.subvalues ++ subvaluesList args)
  | .construct target typeArgs args => .construct target typeArgs args :: subvaluesList args
  | .access operand name => [.access operand name]

/-- Every value inside a list of values. -/
def subvaluesList : List ValueTerm → List ValueTerm
  | [] => []
  | v :: vs => v.subvalues ++ subvaluesList vs

/-- Every value inside a list of members. -/
def subvaluesMembers : List (Option TypeTerm × ValueTerm) → List ValueTerm
  | [] => []
  | (_, v) :: members => v.subvalues ++ subvaluesMembers members

end

/-- The type terms that stand in a value outside the values inside it. -/
def ownTypes : ValueTerm → List TypeTerm
  | .plain term => [term]
  | .group _ members => members.filterMap Prod.fst
  | .call _ _ => []
  | .construct target typeArgs _ => target :: typeArgs
  | .access _ _ => []

/-- The kind of an array or object literal. -/
def groupKind? : ValueTerm → Option Kind
  | .group kind _ => some kind
  | _ => none

/-- Every type term in a value, at any depth. -/
def typeTerms (v : ValueTerm) : List TypeTerm :=
  v.subvalues.flatMap fun w => w.ownTypes.flatMap TypeTerm.subterms

/-- Every kind in a value, at any depth. -/
def kinds (v : ValueTerm) : List Kind :=
  v.typeTerms.map TypeTerm.kind ++ v.subvalues.filterMap groupKind?

mutual

/-- The value with every kind in it made canonical. -/
def canon : ValueTerm → ValueTerm
  | .plain term => .plain term.canon
  | .group kind members => .group kind.canon (canonMembers members)
  | .call callee args => .call callee.canon (canonList args)
  | .construct target typeArgs args =>
    .construct target.canon (typeArgs.map TypeTerm.canon) (canonList args)
  | .access operand name => .access operand name

/-- `canon` of every value of a list. -/
def canonList : List ValueTerm → List ValueTerm
  | [] => []
  | v :: vs => v.canon :: canonList vs

/-- `canon` of every key and value of a list of members. -/
def canonMembers : List (Option TypeTerm × ValueTerm) → List (Option TypeTerm × ValueTerm)
  | [] => []
  | (key, v) :: members => (key.map TypeTerm.canon, v.canon) :: canonMembers members

end

theorem canonList_eq_map (vs : List ValueTerm) : canonList vs = vs.map canon := by
  induction vs with
  | nil => rfl
  | cons v vs ih => rw [canonList, ih, List.map_cons]

/-- A value in which the kinds outside the values inside it are canonical. -/
def HasCanonicalParts (v : ValueTerm) : Prop :=
  (∀ t ∈ v.ownTypes, t.canon = t) ∧ ∀ kind ∈ v.groupKind?, kind.IsCanonical

theorem subvaluesList_eq_flatMap (vs : List ValueTerm) :
    subvaluesList vs = vs.flatMap subvalues := by
  induction vs with
  | nil => rfl
  | cons v vs ih => rw [subvaluesList, ih, List.flatMap_cons]

theorem subvaluesMembers_eq_flatMap (ms : List Member) :
    subvaluesMembers ms = ms.flatMap fun m => m.2.subvalues := by
  induction ms with
  | nil => rfl
  | cons m ms ih => rw [subvaluesMembers, ih, List.flatMap_cons]

theorem canonMembers_eq_map (ms : List Member) :
    canonMembers ms = ms.map fun m => (m.1.map TypeTerm.canon, m.2.canon) := by
  induction ms with
  | nil => rfl
  | cons m ms ih => rw [canonMembers, ih, List.map_cons]

theorem canonMembers_eq_self_iff (ms : List Member) :
    canonMembers ms = ms ↔
      (∀ t ∈ ms.filterMap Prod.fst, t.canon = t) ∧ ∀ m ∈ ms, m.2.canon = m.2 := by
  rw [canonMembers_eq_map, map_eq_self_iff]
  simp only [Prod.ext_iff, option_map_eq_self_iff, forall_and, List.mem_filterMap, Option.mem_def]
  refine and_congr_left' ⟨?_, ?_⟩
  · rintro h t ⟨m, hm, ht⟩
    exact h m hm t ht
  · intro h m hm t ht
    exact h t ⟨m, hm, ht⟩

theorem canon_eq_self_iff_forall_subvalues (v : ValueTerm) :
    v.canon = v ↔ ∀ w ∈ v.subvalues, w.HasCanonicalParts := by
  have hlist : ∀ {vs : List ValueTerm},
      (∀ v ∈ vs, v.canon = v ↔ ∀ w ∈ v.subvalues, w.HasCanonicalParts) →
      (canonList vs = vs ↔ ∀ w ∈ subvaluesList vs, w.HasCanonicalParts) := by
    intro vs ih
    rw [canonList_eq_map, map_eq_self_iff, subvaluesList_eq_flatMap, List.forall_mem_flatMap]
    exact forall₂_congr ih
  induction v using partsInduction with
  | plain t => simp [canon, subvalues, HasCanonicalParts, ownTypes, groupKind?]
  | group k ms ih =>
    rw [canon, subvalues, List.forall_mem_cons, group.injEq, canonMembers_eq_self_iff,
      subvaluesMembers_eq_flatMap, List.forall_mem_flatMap, ← forall₂_congr ih]
    simp [HasCanonicalParts, ownTypes, groupKind?, Kind.canon_eq_self_iff, and_assoc,
      and_left_comm]
  | call f as hf has =>
    rw [canon, subvalues, List.forall_mem_cons, List.forall_mem_append, call.injEq,
      and_congr hf (hlist has)]
    simp [HasCanonicalParts, ownTypes, groupKind?]
  | construct t ts as has =>
    rw [canon, subvalues, List.forall_mem_cons, construct.injEq, hlist has, map_eq_self_iff]
    simp [HasCanonicalParts, ownTypes, groupKind?, and_assoc]
  | access _ _ => simp [canon, subvalues, HasCanonicalParts, ownTypes, groupKind?]

/-- Making a value canonical changes nothing exactly when every kind in it is canonical. -/
theorem canon_eq_self_iff (v : ValueTerm) : v.canon = v ↔ ∀ kind ∈ v.kinds, kind.IsCanonical := by
  rw [canon_eq_self_iff_forall_subvalues, kinds, List.forall_mem_append]
  constructor
  · intro h
    refine ⟨?_, ?_⟩
    · intro kind hkind
      obtain ⟨s, hs, rfl⟩ := List.mem_map.1 hkind
      obtain ⟨w, hw, t, ht, hs⟩ := by simpa [typeTerms] using hs
      exact (TypeTerm.canon_eq_self_iff t).1 ((h w hw).1 t ht) s hs
    · intro kind hkind
      obtain ⟨w, hw, hgroup⟩ := List.mem_filterMap.1 hkind
      exact (h w hw).2 kind hgroup
  · rintro ⟨htypes, hgroups⟩ w hw
    refine ⟨fun t ht => (TypeTerm.canon_eq_self_iff t).2 fun s hs => ?_, fun kind hkind => ?_⟩
    · refine htypes s.kind (List.mem_map_of_mem ?_)
      simpa [typeTerms] using ⟨w, hw, t, ht, hs⟩
    · exact hgroups kind (List.mem_filterMap.2 ⟨w, hw, hkind⟩)

end ValueTerm

end DeclCatalog
