import DeclCatalog.Proofs.MemberTerms
import DeclCatalog.Proofs.PreorderWalk

/-!
# Where the terms of a record come from

A collector reads names and tokens itself, but no terms. Every term that stands in a record was made
by one of the two resolvers, or by the heading of a class. A property of all terms is therefore
shown once, for the resolvers, and holds of every record.

- `Collected`: the ways in which a term comes about.
- `AllCollected`: a list of such terms, with a lemma for each way in which a field adds terms.
- `AllResolved.collected`: the terms of members are collected; nothing is said here of their nodes.
- `allCollected_visit`: **every term of a record is collected**, whatever declares it.
-/

namespace DeclCatalog

variable {src : Source} {limit : Nat}

/-- A term that a collector may put into a record. -/
inductive Collected (src : Source) (limit : Nat) : ValueTerm → Prop where
  /-- A resolved type. -/
  | type (n : Node) : Collected src limit (.plain (typeOf src limit n).value)
  /-- A resolved value. -/
  | value (n : Node) : Collected src limit (valueOf src limit n).value
  /-- The target of an `extends` clause. -/
  | superclass {clause : Node} {target : TypeTerm}
      (h : (extendsTarget src limit clause).value = some target) :
      Collected src limit (.plain target)
  /-- What stands for the type of an alias without one. -/
  | untyped : Collected src limit (.plain TypeTerm.unknown)

/-! ## Lists of terms -/

/-- Whether every term of a list is collected. -/
def AllCollected (src : Source) (limit : Nat) (terms : List ValueTerm) : Prop :=
  ∀ v ∈ terms, Collected src limit v

theorem allCollected_nil : AllCollected src limit [] := by
  intro v hv
  cases hv

theorem AllCollected.append {vs ws : List ValueTerm} (hvs : AllCollected src limit vs)
    (hws : AllCollected src limit ws) : AllCollected src limit (vs ++ ws) :=
  List.forall_mem_append.2 ⟨hvs, hws⟩

theorem allCollected_flatMap {α : Type} {terms : α → List ValueTerm} {items : List α}
    (h : ∀ a ∈ items, AllCollected src limit (terms a)) :
    AllCollected src limit (items.flatMap terms) :=
  List.forall_mem_flatMap.2 h

theorem allCollected_value? (n : Option Node) :
    AllCollected src limit (Logged.traverse? (valueOf src limit) n).value.toList := by
  rw [Logged.value_traverse?]
  cases n with
  | none => exact allCollected_nil
  | some c => exact List.forall_mem_singleton.2 (.value c)

/-- What a resolver gave for some node is collected. -/
theorem AllResolved.collected {n : Node} {log : List Diagnostic} {terms : List ValueTerm}
    (h : AllResolved src limit n log terms) : AllCollected src limit terms := by
  intro v hv
  cases h v hv with
  | type _ _ => exact .type _
  | value _ _ => exact .value _

/-! ## Classes -/

theorem allCollected_superclass (site : Site) :
    AllCollected src limit (termsOfType (collectClass src limit site).value.superclass) := by
  cases htarget : (collectClass src limit site).value.superclass with
  | none => exact allCollected_nil
  | some target =>
    obtain ⟨clause, -, -, hvalue, -⟩ := exists_extends_clause htarget
    exact List.forall_mem_singleton.2 (.superclass hvalue)

theorem allCollected_collectClass (site : Site) :
    AllCollected src limit (collectClass src limit site).value.terms := by
  have hinterfaces := (@allResolved_interfaces src limit site.node).collected
  have hmembers := (@allResolved_membersOf src limit site.node).collected
  rw [terms_collectClass]
  exact ((allCollected_superclass site).append hinterfaces).append hmembers

/-! ## Decorated classes

The fields of a decorator that take any value hold what the value resolver gives; the others hold no
terms. -/

theorem allCollected_termOf (pairs : List (String × Node)) (key : String) :
    AllCollected src limit (termOf src limit pairs key).value.toList :=
  allCollected_value? (lastValue? pairs key)

theorem allCollected_directiveInfo (pairs : List (String × Node)) (n : Node) :
    AllCollected src limit (directiveInfo src limit pairs n).value.terms :=
  ((allCollected_termOf pairs "host").append (allCollected_termOf pairs "providers")).append
    (allCollected_termOf pairs "queries")

theorem allCollected_componentInfo (pairs : List (String × Node)) (n : Node) :
    AllCollected src limit (componentInfo src limit pairs n).value.terms :=
  (((allCollected_directiveInfo pairs n).append
    (allCollected_termOf pairs "viewProviders")).append
    (allCollected_termOf pairs "imports")).append (allCollected_termOf pairs "animations")

theorem allCollected_injectableInfo (pairs : List (String × Node)) :
    AllCollected src limit (injectableInfo src limit pairs).value.terms :=
  allCollected_termOf pairs "providedIn"

theorem allCollected_moduleInfo (pairs : List (String × Node)) :
    AllCollected src limit (moduleInfo src limit pairs).value.terms :=
  ((((((allCollected_termOf pairs "bootstrap").append
    (allCollected_termOf pairs "declarations")).append
    (allCollected_termOf pairs "entryComponents")).append
    (allCollected_termOf pairs "exports")).append
    (allCollected_termOf pairs "imports")).append
    (allCollected_termOf pairs "providers")).append (allCollected_termOf pairs "schemas")

theorem allCollected_collectDecorated (config : Config) (site : Site) (role : Role) :
    AllCollected src config.limits.maxDepth
      (collectDecorated src config site role).value.terms := by
  have hbase := @allCollected_collectClass src config.limits.maxDepth site
  unfold collectDecorated
  rw [Logged.value_bind, Logged.value_bind]
  generalize (configPairs src config.aliases site role).value = pairs
  cases role with
  | component => exact hbase.append (allCollected_componentInfo pairs site.node)
  | directive => exact hbase.append (allCollected_directiveInfo pairs site.node)
  | injectable => exact hbase.append (allCollected_injectableInfo pairs)
  | module => exact hbase.append (allCollected_moduleInfo pairs)
  | pipe => exact hbase.append allCollected_nil

/-! ## Enums, interfaces and type aliases -/

theorem allCollected_enumMember? {n : Node} {m : EnumMember}
    (h : (enumMember? src limit n).value = some m) : AllCollected src limit m.terms := by
  unfold enumMember? at h
  split at h
  · split at h
    · cases h
    · rw [← Option.some.inj h]
      exact (allResolved_valueIn n "value").collected
  · rw [← Option.some.inj h]
    exact allCollected_nil
  · rw [← Option.some.inj h]
    exact allCollected_nil
  · rw [← Option.some.inj h]
    exact allCollected_nil
  · cases h

theorem allCollected_collectEnum (n : Node) :
    AllCollected src limit (collectEnum src limit n).value.terms := by
  show AllCollected src limit (((Logged.traverse (enumMember? src limit)
    (n.childrenIn "body")).value.filterMap id).flatMap EnumMember.terms)
  refine allCollected_flatMap (Logged.forall_mem_filterMap_traverse ?_ _)
  intro c m hm
  exact allCollected_enumMember? hm

theorem allCollected_collectInterface (n : Node) :
    AllCollected src limit (collectInterface src limit n).value.terms :=
  (allResolved_collectInterface n).collected

theorem allCollected_collectAlias (n : Node) :
    AllCollected src limit (collectAlias src limit n).value.terms := by
  show AllCollected src limit [.plain ((typeIn src limit n "value").value.getD TypeTerm.unknown)]
  have htype := (@allResolved_typeIn src limit n "value").collected
  cases hvalue : (typeIn src limit n "value").value with
  | none => exact List.forall_mem_singleton.2 .untyped
  | some t =>
    rw [hvalue] at htype
    exact htype

/-! ## Records -/

theorem allCollected_classLike (config : Config) (site : Site) :
    AllCollected src config.limits.maxDepth (classLike src config site).value.terms := by
  unfold classLike
  split
  · exact allCollected_collectDecorated config site _
  · exact allCollected_collectClass site

/-- Every term of a record was resolved under the limit of the configuration. -/
theorem allCollected_visit {config : Config} {site : Site} {r : Record}
    (hr : (visit src config site).value = some r) :
    AllCollected src config.limits.maxDepth r.terms := by
  obtain ⟨-, rfl⟩ | ⟨-, rfl⟩ | ⟨-, rfl⟩ | ⟨-, rfl⟩ | ⟨-, rfl⟩ := visit_cases hr
  · exact allCollected_nil
  · exact allCollected_classLike config site
  · exact allCollected_collectInterface site.node
  · exact allCollected_collectEnum site.node
  · exact allCollected_collectAlias site.node

end DeclCatalog
