import DeclCatalog.Collect.Class
import DeclCatalog.Collect.Declaration
import DeclCatalog.Proofs.RecordNormal
import DeclCatalog.Proofs.Subtree

/-!
# Where the terms of members come from

A collector reads names and tokens of a declaration itself, but it makes no terms: every term of a
member is what a resolver gave for a node of the declaration, and what the resolver said of that
node the collector says too. The one exception is what a class extends, which the heading of the
class reads.

- `Resolved`, `AllResolved`: terms of a resolver, for nodes of a subtree, with their diagnostics
  among given ones.
- `MemberEntry.terms`, `Members.terms`, `HeritageClause.terms`, `InterfaceEntry.terms`: the terms of
  the parts that a record is put together from.
- `allResolved_membersOf`, `allResolved_interfaces`, `exists_extends_clause`: **where the terms of a
  class come from**.
- `allResolved_collectInterface`: the same of an interface.
-/

namespace DeclCatalog

open Node

variable {src : Source} {limit : Nat}

/-- A term that a resolver gave for a node of a subtree, where all that it said is in a log. -/
inductive Resolved (src : Source) (limit : Nat) (n : Node) (log : List Diagnostic) :
    ValueTerm → Prop where
  | type {m : Node} (hm : m ∈ n.preorder) (hlog : (typeOf src limit m).log ⊆ log) :
      Resolved src limit n log (.plain (typeOf src limit m).value)
  | value {m : Node} (hm : m ∈ n.preorder) (hlog : (valueOf src limit m).log ⊆ log) :
      Resolved src limit n log (valueOf src limit m).value

/-! ## Lists of terms -/

/-- Whether every term of a list is resolved. -/
def AllResolved (src : Source) (limit : Nat) (n : Node) (log : List Diagnostic)
    (terms : List ValueTerm) : Prop :=
  ∀ v ∈ terms, Resolved src limit n log v

section

variable {n m : Node} {log log' : List Diagnostic}

theorem allResolved_nil : AllResolved src limit n log [] := by
  intro v hv
  cases hv

/-- A larger subtree and a longer log will do as well. -/
theorem AllResolved.mono {terms : List ValueTerm} (h : AllResolved src limit m log terms)
    (hm : m ∈ n.preorder) (hlog : log ⊆ log') : AllResolved src limit n log' terms := by
  intro v hv
  cases h v hv with
  | type hc hsub => exact .type (preorder_subset hm hc) (List.Subset.trans hsub hlog)
  | value hc hsub => exact .value (preorder_subset hm hc) (List.Subset.trans hsub hlog)

theorem AllResolved.of_log_subset {terms : List ValueTerm}
    (h : AllResolved src limit n log terms) (hlog : log ⊆ log') :
    AllResolved src limit n log' terms :=
  h.mono n.self_mem_preorder hlog

/-- One part after another: the terms of both, with what is said of both. -/
theorem AllResolved.append {vs ws : List ValueTerm} (hvs : AllResolved src limit n log vs)
    (hws : AllResolved src limit n log' ws) : AllResolved src limit n (log ++ log') (vs ++ ws) :=
  List.forall_mem_append.2 ⟨hvs.of_log_subset (List.subset_append_left log log'),
    hws.of_log_subset (List.subset_append_right log log')⟩

theorem allResolved_flatMap {α : Type} {terms : α → List ValueTerm} {items : List α}
    (h : ∀ a ∈ items, AllResolved src limit n log (terms a)) :
    AllResolved src limit n log (items.flatMap terms) :=
  List.forall_mem_flatMap.2 h

/-- Where each step resolves its terms below its own node, a run over nodes of a subtree does. -/
theorem allResolved_traverse {β : Type} {step : Node → Logged β} {terms : β → List ValueTerm}
    {ns : List Node} (hns : ∀ c ∈ ns, c ∈ n.preorder)
    (h : ∀ c, AllResolved src limit c (step c).log (terms (step c).value)) :
    ∀ b ∈ (Logged.traverse step ns).value,
      AllResolved src limit n (Logged.traverse step ns).log (terms b) := by
  intro b hb
  rw [Logged.value_traverse] at hb
  obtain ⟨c, hc, rfl⟩ := List.mem_map.1 hb
  exact (h c).mono (hns c hc) (Logged.log_subset_traverse step hc)

end

theorem allResolved_type (n : Node) :
    AllResolved src limit n (typeOf src limit n).log [.plain (typeOf src limit n).value] :=
  List.forall_mem_singleton.2 (.type n.self_mem_preorder (List.Subset.refl _))

theorem allResolved_types {n : Node} {ns : List Node} (hns : ∀ c ∈ ns, c ∈ n.preorder) :
    AllResolved src limit n (Logged.traverse (typeOf src limit) ns).log
      ((Logged.traverse (typeOf src limit) ns).value.map .plain) := by
  have hall : ∀ t ∈ (Logged.traverse (typeOf src limit) ns).value,
      AllResolved src limit n (Logged.traverse (typeOf src limit) ns).log [.plain t] :=
    allResolved_traverse hns allResolved_type
  intro v hv
  obtain ⟨t, ht, rfl⟩ := List.mem_map.1 hv
  exact hall t ht _ List.mem_cons_self

theorem allResolved_typeIn (n : Node) (field : String) :
    AllResolved src limit n (typeIn src limit n field).log
      (termsOfType (typeIn src limit n field).value) := by
  rw [typeIn, Logged.value_traverse?, Logged.log_traverse?]
  cases hchild : n.child? field with
  | none => exact allResolved_nil
  | some c => exact (allResolved_type c).mono (mem_preorder_of_child? hchild) (List.Subset.refl _)

theorem allResolved_valueIn (n : Node) (field : String) :
    AllResolved src limit n (valueIn src limit n field).log
      (valueIn src limit n field).value.toList := by
  rw [valueIn, Logged.value_traverse?, Logged.log_traverse?]
  cases hchild : n.child? field with
  | none => exact allResolved_nil
  | some c =>
    exact List.forall_mem_singleton.2
      (.value (mem_preorder_of_child? hchild) (List.Subset.refl _))

/-! ## Members -/

theorem allResolved_parameterOf (p : Node) :
    AllResolved src limit p (parameterOf src limit p).log (parameterOf src limit p).value.terms :=
  (allResolved_typeIn p "type").of_log_subset (List.subset_append_left _ _)

theorem allResolved_parametersOf (n : Node) :
    ∀ p ∈ (parametersOf src limit n).value,
      AllResolved src limit n (parametersOf src limit n).log p.terms := by
  unfold parametersOf
  cases hparams : n.child? "parameters" with
  | none =>
    intro p hp
    cases hp
  | some params =>
    refine allResolved_traverse (fun c hc => ?_) allResolved_parameterOf
    exact preorder_subset (mem_preorder_of_child? hparams)
      (mem_preorder_of_mem_namedChildren (List.mem_filter.1 hc).1)

/-- The parameters and the result of a signature. -/
theorem allResolved_signature (n : Node) :
    AllResolved src limit n
      ((parametersOf src limit n).log ++ (typeIn src limit n "return_type").log)
      ((parametersOf src limit n).value.flatMap Parameter.terms ++
        termsOfType (typeIn src limit n "return_type").value) :=
  (allResolved_flatMap (allResolved_parametersOf n)).append (allResolved_typeIn n "return_type")

theorem allResolved_methodOf (n : Node) (decorators : List String) :
    AllResolved src limit n (methodOf src limit n decorators).log
      (methodOf src limit n decorators).value.terms := by
  have hlog : (methodOf src limit n decorators).log =
      (parametersOf src limit n).log ++ (typeIn src limit n "return_type").log := by
    simp [methodOf]
  rw [hlog]
  exact allResolved_signature n

theorem allResolved_propertyOf (site : Site) :
    AllResolved src limit site.node (propertyOf src limit site).log
      (propertyOf src limit site).value.terms := by
  have hlog : (propertyOf src limit site).log =
      (typeIn src limit site.node "type").log ++ (valueIn src limit site.node "value").log := by
    simp [propertyOf]
  rw [hlog]
  exact (allResolved_typeIn site.node "type").append (allResolved_valueIn site.node "value")

/-- The terms of what one child of a class body gives. -/
def MemberEntry.terms : MemberEntry → List ValueTerm
  | .construction parameters => parameters.flatMap Parameter.terms
  | .property p => p.terms
  | .method m => m.terms
  | .getter a => a.terms
  | .setter a => a.terms

theorem allResolved_definitionEntry (n : Node) (decorators : List String) :
    AllResolved src limit n (definitionEntry src limit n decorators).log
      (definitionEntry src limit n decorators).value.terms := by
  have hparameters := @allResolved_parametersOf src limit n
  unfold definitionEntry
  dsimp only
  split
  · exact (allResolved_typeIn n "return_type").of_log_subset (List.subset_append_left _ _)
  split
  · -- the type of a setter is that of its first parameter
    refine AllResolved.of_log_subset ?_ (List.subset_append_left (parametersOf src limit n).log _)
    show AllResolved src limit n (parametersOf src limit n).log
      (termsOfType ((parametersOf src limit n).value.head?.bind Parameter.type))
    cases hhead : (parametersOf src limit n).value.head? with
    | none => exact allResolved_nil
    | some p => exact hparameters p (List.mem_of_head? hhead)
  split
  · exact (allResolved_flatMap hparameters).of_log_subset (List.subset_append_left _ _)
  · exact (allResolved_methodOf n decorators).of_log_subset (List.subset_append_left _ _)

/-- An entry is resolved with its own part of the log; the part of the others stands after it. -/
theorem allResolved_cons_entry {n body : Node} {log restLog : List Diagnostic}
    {entry : MemberEntry} {entries : List MemberEntry} (hn : n ∈ body.preorder)
    (hentry : AllResolved src limit n log entry.terms)
    (hentries : ∀ e ∈ entries, AllResolved src limit body restLog e.terms) :
    ∀ e ∈ entry :: entries, AllResolved src limit body (log ++ (restLog ++ [])) e.terms := by
  rw [List.append_nil]
  refine List.forall_mem_cons.2 ⟨?_, fun e he => ?_⟩
  · exact hentry.mono hn (List.subset_append_left log restLog)
  · exact (hentries e he).of_log_subset (List.subset_append_right log restLog)

theorem allResolved_entriesFrom (body : Node) (waiting : List String) {ns : List Node}
    (hns : ∀ c ∈ ns, c ∈ body.preorder) :
    ∀ entry ∈ (entriesFrom src limit body waiting ns).value,
      AllResolved src limit body (entriesFrom src limit body waiting ns).log entry.terms := by
  -- the decorators that wait change from child to child, but they hold no terms
  fun_induction entriesFrom src limit body waiting ns with
  | case1 => exact fun _ h => nomatch h
  | case2 waiting n rest _ ih => exact ih (List.forall_mem_cons.1 hns).2
  | case3 waiting n rest _ ih =>
    obtain ⟨hn, hrest⟩ := List.forall_mem_cons.1 hns
    exact allResolved_cons_entry hn (allResolved_definitionEntry n waiting) (ih hrest)
  | case4 waiting n rest _ ih =>
    obtain ⟨hn, hrest⟩ := List.forall_mem_cons.1 hns
    exact allResolved_cons_entry hn (allResolved_methodOf n waiting) (ih hrest)
  | case5 waiting n rest _ ih =>
    obtain ⟨hn, hrest⟩ := List.forall_mem_cons.1 hns
    exact allResolved_cons_entry hn (allResolved_propertyOf _) (ih hrest)
  | case6 waiting n rest _ _ _ _ ih =>
    -- the child is reported, and nothing is made of it
    obtain ⟨-, hrest⟩ := List.forall_mem_cons.1 hns
    exact fun entry hentry => (ih hrest entry hentry).of_log_subset (List.subset_append_right _ _)

/-- Sorting entries into lists adds no terms: a list that is made of the parts of some entries has
only terms of these entries. -/
theorem allResolved_filterMap {ε α : Type} {n : Node} {log : List Diagnostic}
    {entryTerms : ε → List ValueTerm} {entries : List ε} {part? : ε → Option α}
    {terms : α → List ValueTerm}
    (hentries : ∀ entry ∈ entries, AllResolved src limit n log (entryTerms entry))
    (hpart : ∀ entry a, part? entry = some a → entryTerms entry = terms a) :
    AllResolved src limit n log ((entries.filterMap part?).flatMap terms) := by
  refine allResolved_flatMap fun a ha => ?_
  obtain ⟨entry, hentry, hsome⟩ := List.mem_filterMap.1 ha
  rw [← hpart entry a hsome]
  exact hentries entry hentry

/-- The terms of the members of a class. -/
def Members.terms (m : Members) : List ValueTerm :=
  m.constructorParameters.flatMap Parameter.terms ++ m.properties.flatMap Property.terms ++
  m.methods.flatMap Method.terms ++ m.getters.flatMap Accessor.terms ++
  m.setters.flatMap Accessor.terms

theorem allResolved_ofEntries {n : Node} {log : List Diagnostic} {entries : List MemberEntry}
    (h : ∀ entry ∈ entries, AllResolved src limit n log entry.terms) :
    AllResolved src limit n log (Members.ofEntries entries).terms := by
  -- of several constructors only the last is kept, which is still one of the entries
  have hconstruction : AllResolved src limit n log
      ((Members.ofEntries entries).constructorParameters.flatMap Parameter.terms) := by
    unfold Members.ofEntries
    dsimp only
    cases hlast : (entries.filterMap MemberEntry.construction?).getLast? with
    | none => exact allResolved_nil
    | some parameters =>
      obtain ⟨entry, hentry, hsome⟩ := List.mem_filterMap.1 (List.mem_of_getLast? hlast)
      cases entry with
      | construction ps =>
        cases hsome
        exact h _ hentry
      | _ => cases hsome
  -- the other four lists take the entries of one sort
  simp only [Members.terms, AllResolved, List.forall_mem_append]
  refine ⟨⟨⟨⟨hconstruction, ?_⟩, ?_⟩, ?_⟩, ?_⟩
  all_goals
    refine allResolved_filterMap h fun entry a hsome => ?_
    cases entry <;> cases hsome
    rfl

theorem allResolved_membersOf (n : Node) :
    AllResolved src limit n (membersOf src limit n).log (membersOf src limit n).value.terms := by
  unfold membersOf
  cases hbody : n.child? "body" with
  | none => exact allResolved_nil
  | some body =>
    dsimp only
    have hentries := @allResolved_entriesFrom src limit body [] body.namedChildren
      fun c hc => mem_preorder_of_mem_namedChildren hc
    refine (allResolved_ofEntries hentries).mono (mem_preorder_of_child? hbody) ?_
    rw [distribute, Logged.log_map]
    exact List.Subset.refl _

/-! ## The heading of a class -/

/-- What a heading says is what one of its clauses says. -/
theorem exists_clause_of_mem_heritageOf {n : Node} {h : HeritageClause}
    (hmem : h ∈ (heritageOf src limit n).value) :
    ∃ clause ∈ n.preorder, h = (heritageClause src limit clause).value ∧
      (heritageClause src limit clause).log ⊆ (heritageOf src limit n).log := by
  rw [heritageOf, Logged.value_traverse] at hmem
  obtain ⟨clause, hclause, rfl⟩ := List.mem_map.1 hmem
  exact ⟨clause, mem_preorder_of_mem_flatMap_namedChildren hclause, rfl,
    Logged.log_subset_traverse _ hclause⟩

theorem allResolved_interfaces (n : Node) :
    AllResolved src limit n (heritageOf src limit n).log
      (((heritageOf src limit n).value.flatMap HeritageClause.interfaceList).map .plain) := by
  rw [List.map_flatMap]
  refine allResolved_flatMap fun h hmem => ?_
  obtain ⟨clause, hclause, rfl, hlog⟩ := exists_clause_of_mem_heritageOf hmem
  refine AllResolved.mono ?_ hclause hlog
  unfold heritageClause
  split
  · exact allResolved_nil
  · rw [Logged.log_map]
    exact allResolved_types fun c hc => mem_preorder_of_mem_namedChildren hc
  · exact allResolved_nil

/-- What a class extends is the target of an `extends` clause below it. -/
theorem exists_extends_clause {site : Site} {target : TypeTerm}
    (h : (collectClass src limit site).value.superclass = some target) :
    ∃ clause ∈ site.node.preorder, clause.kind = "extends_clause" ∧
      (extendsTarget src limit clause).value = some target ∧
      (extendsTarget src limit clause).log ⊆ (heritageOf src limit site.node).log := by
  have hlast := List.mem_of_getLast? (Option.join_eq_some_iff.1 h)
  obtain ⟨said, hsaid, hsome⟩ := List.mem_filterMap.1 hlast
  obtain ⟨clause, hclause, rfl, hlog⟩ := exists_clause_of_mem_heritageOf hsaid
  refine ⟨clause, hclause, ?_⟩
  by_cases hkind : clause.kind = "extends_clause"
  · have hread : heritageClause src limit clause =
        .superclass <$> extendsTarget src limit clause := by
      rw [heritageClause, hkind]
      rfl
    rw [hread] at hsome hlog
    rw [Logged.log_map] at hlog
    exact ⟨hkind, Option.some.inj hsome, hlog⟩
  · -- a clause of another kind names no superclass
    unfold heritageClause at hsome
    split at hsome
    · exact absurd ‹clause.kind = "extends_clause"› hkind
    · cases hsome
    · cases hsome

theorem log_collectClass (site : Site) :
    (collectClass src limit site).log =
      (heritageOf src limit site.node).log ++ (membersOf src limit site.node).log := by
  simp [collectClass]

/-- The terms of a class are what it extends, what it implements, and those of its members. -/
theorem terms_collectClass (site : Site) :
    (collectClass src limit site).value.terms =
      termsOfType (collectClass src limit site).value.superclass ++
      ((heritageOf src limit site.node).value.flatMap HeritageClause.interfaceList).map .plain ++
      (membersOf src limit site.node).value.terms := by
  simp [collectClass, ClassRecord.terms, Members.terms]

/-! ## Interfaces -/

/-- The terms of what one child of an interface body gives. -/
def InterfaceEntry.terms : InterfaceEntry → List ValueTerm
  | .property p => p.terms
  | .optionalProperty p => p.terms
  | .function f => f.terms

theorem allResolved_interfaceFunction (member signature : Node) :
    AllResolved src limit signature (interfaceFunction src limit member signature).log
      (interfaceFunction src limit member signature).value.terms := by
  have hlog : (interfaceFunction src limit member signature).log =
      (parametersOf src limit signature).log ++
        (typeIn src limit signature "return_type").log := by
    simp [interfaceFunction]
  rw [hlog]
  exact allResolved_signature signature

theorem mem_preorder_of_functionType? {member signature : Node}
    (h : functionType? member = some signature) : signature ∈ member.preorder := by
  obtain ⟨hbind, -⟩ := Option.filter_eq_some_iff.1 h
  obtain ⟨declared, hdeclared, hfirst⟩ := Option.bind_eq_some_iff.1 hbind
  exact preorder_subset (mem_preorder_of_child? hdeclared)
    (mem_preorder_of_mem_namedChildren (List.mem_of_head? hfirst))

theorem allResolved_propertyEntry (member : Node) :
    AllResolved src limit member (propertyEntry src limit member).log
      (propertyEntry src limit member).value.terms := by
  unfold propertyEntry
  cases hsignature : functionType? member with
  | some signature =>
    dsimp only
    rw [Logged.log_map]
    exact (allResolved_interfaceFunction member signature).mono
      (mem_preorder_of_functionType? hsignature) (List.Subset.refl _)
  | none =>
    have htype := @allResolved_typeIn src limit member "type"
    refine AllResolved.of_log_subset ?_ (List.subset_append_left _ _)
    dsimp only [Logged.value_bind, Logged.value_pure]
    split
    · exact htype
    · exact htype

theorem allResolved_entryOfSignature? (member : Node) :
    ∀ entry ∈ (entryOfSignature? src limit member).value,
      AllResolved src limit member (entryOfSignature? src limit member).log entry.terms := by
  unfold entryOfSignature?
  split
  · rintro entry ⟨⟩
    rw [Logged.log_map]
    exact allResolved_propertyEntry member
  · rintro entry ⟨⟩
    rw [Logged.log_map]
    exact allResolved_interfaceFunction member member
  · rintro entry ⟨⟩

theorem allResolved_collectInterface (n : Node) :
    AllResolved src limit n (collectInterface src limit n).log
      (collectInterface src limit n).value.terms := by
  let supertypes := (n.childrenOfKind "extends_type_clause").flatMap Node.namedChildren
  let entries := Logged.traverse (entryOfSignature? src limit) (n.childrenIn "body")
  have hsupertypes : ∀ c ∈ supertypes, c ∈ n.preorder :=
    fun c hc => mem_preorder_of_mem_flatMap_namedChildren hc
  have hentries : ∀ entry ∈ entries.value.filterMap id,
      AllResolved src limit n entries.log entry.terms := by
    intro entry hentry
    obtain ⟨given, hgiven, hsome⟩ := List.mem_filterMap.1 hentry
    rw [Logged.value_traverse] at hgiven
    obtain ⟨member, hmember, rfl⟩ := List.mem_map.1 hgiven
    exact (allResolved_entryOfSignature? member entry hsome).mono
      (mem_preorder_of_mem_childrenIn hmember) (Logged.log_subset_traverse _ hmember)
  have hlog : (collectInterface src limit n).log =
      (Logged.traverse (typeOf src limit) supertypes).log ++ entries.log := by
    simp [collectInterface, supertypes, entries]
  rw [hlog]
  have hall : ∀ entry ∈ entries.value.filterMap id, AllResolved src limit n
      ((Logged.traverse (typeOf src limit) supertypes).log ++ entries.log) entry.terms :=
    fun entry hentry => (hentries entry hentry).of_log_subset (List.subset_append_right _ _)
  refine List.forall_mem_append.2 ⟨List.forall_mem_append.2 ⟨List.forall_mem_append.2 ⟨?_, ?_⟩,
    ?_⟩, ?_⟩
  · exact (allResolved_types hsupertypes).of_log_subset (List.subset_append_left _ _)
  all_goals
    refine allResolved_filterMap hall fun entry a hsome => ?_
    cases entry <;> cases hsome
    rfl

end DeclCatalog
