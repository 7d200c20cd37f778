import DeclCatalog.Collect.Class
import DeclCatalog.Proofs.SentinelReports

/-!
# The rules that readers report by

Two rules are left to the collectors: that a member of a class is passed over, and that a field of a
decorator is left unset. So the diagnostics of these rules can be counted at the collectors,
whatever is resolved on the way.

- `Logged.RaisesOnly`: a computation whose diagnostics are all of given rules, with a lemma for each
  way in which computations are put together.
- `resolverRules`, `raisesOnly_resolveType`, `raisesOnly_resolveValue`: **the resolvers report by
  five rules only**, whatever the tree is.
- `raisesOnly_definitionEntry`, `raisesOnly_methodOf`, `raisesOnly_propertyOf`: so does what reads a
  member of a class.
- `memberRules`, `raisesOnly_collectClass`: reading a class adds one rule to these.
-/

namespace DeclCatalog

/-! ## Computations that report by given rules -/

/-- Whether a computation raises diagnostics of given rules only. -/
def Logged.RaisesOnly {α : Type} (m : Logged α) (rules : List Rule) : Prop :=
  ∀ d ∈ m.log, d.rule ∈ rules

namespace Logged

variable {α β : Type} {rules : List Rule}

theorem raisesOnly_pure {a : α} : (pure a : Logged α).RaisesOnly rules := by
  intro d hd
  cases hd

theorem RaisesOnly.bind {m : Logged α} {f : α → Logged β} (hm : m.RaisesOnly rules)
    (hf : (f m.value).RaisesOnly rules) : (m >>= f).RaisesOnly rules :=
  List.forall_mem_append.2 ⟨hm, hf⟩

theorem RaisesOnly.map {m : Logged α} (g : α → β) (h : m.RaisesOnly rules) :
    (g <$> m).RaisesOnly rules := by
  unfold RaisesOnly
  rw [log_map]
  exact h

theorem RaisesOnly.mono {m : Logged α} (h : m.RaisesOnly rules) {rules' : List Rule}
    (hrules : rules ⊆ rules') : m.RaisesOnly rules' :=
  fun d hd => hrules (h d hd)

theorem raisesOnly_report {src : Source} {rule : Rule} {n : Node} {message : String}
    (h : rule ∈ rules) : (src.report rule n message).RaisesOnly rules :=
  List.forall_mem_singleton.2 h

theorem raisesOnly_traverse {step : α → Logged β} (h : ∀ a, (step a).RaisesOnly rules)
    (as : List α) : (traverse step as).RaisesOnly rules := by
  unfold RaisesOnly
  rw [log_traverse]
  exact List.forall_mem_flatMap.2 fun a _ => h a

theorem raisesOnly_traverse? {step : α → Logged β} (h : ∀ a, (step a).RaisesOnly rules)
    (a : Option α) : (traverse? step a).RaisesOnly rules := by
  cases a with
  | none => exact raisesOnly_pure
  | some a => exact (h a).bind raisesOnly_pure

/-- Where a computation reports by other rules only, nothing is found of a rule. -/
theorem RaisesOnly.filter_eq_nil {m : Logged α} (h : m.RaisesOnly rules) {rule : Rule}
    (hrule : rule ∉ rules) : (m.log.filter fun d => d.rule = rule) = [] := by
  rw [List.filter_eq_nil_iff]
  intro d hd hsame
  apply hrule
  rw [← of_decide_eq_true hsame]
  exact h d hd

end Logged

open Logged

/-! ## The resolvers -/

/-- The rules that the resolvers report by. -/
def resolverRules : List Rule :=
  [.unknownExpression, .unknownType, .skippedObjectMember, .depthLimit, .unparsableNumber]

section

variable {src : Source} {limit : Nat}

theorem raisesOnly_resolveType (levels : Nat) (n : Node) :
    (resolveType src limit levels n).RaisesOnly resolverRules := by
  induction levels generalizing n with
  | zero => exact (raisesOnly_report (by decide)).bind raisesOnly_pure
  | succ levels ih =>
    rw [resolveType]
    cases typeForm src (bareType n) with
    | leaf kind => exact raisesOnly_pure
    | literal raw => exact raisesOnly_pure
    | composite kind parts => exact (raisesOnly_traverse ih parts).bind raisesOnly_pure
    | unrecognized => exact (raisesOnly_report (by decide)).bind raisesOnly_pure

theorem raisesOnly_valueForm (n : Node) : (valueForm src n).RaisesOnly resolverRules := by
  have hquiet : quietRules ⊆ resolverRules := by decide
  intro d hd
  exact hquiet (rule_mem_quietRules hd)

theorem raisesOnly_resolveValue (levels : Nat) (n : Node) :
    (resolveValue src limit levels n).RaisesOnly resolverRules := by
  induction levels generalizing n with
  | zero => exact (raisesOnly_report (by decide)).bind raisesOnly_pure
  | succ levels ih =>
    rw [resolveValue]
    refine (raisesOnly_valueForm n).bind ?_
    cases (valueForm src n).value with
    | term term => exact raisesOnly_pure
    | access operand name => exact raisesOnly_pure
    | array elements =>
      exact (raisesOnly_traverse (fun m => (ih m).map _) elements).bind raisesOnly_pure
    | object pairs =>
      exact (raisesOnly_traverse (fun pair => (ih pair.2).map _) pairs).bind raisesOnly_pure
    | call callee args =>
      exact (raisesOnly_traverse? ih callee).bind
        ((raisesOnly_traverse ih args).bind raisesOnly_pure)
    | construct target typeArgs args =>
      exact (raisesOnly_traverse (raisesOnly_resolveType levels) typeArgs).bind
        ((raisesOnly_traverse ih args).bind raisesOnly_pure)
    | unrecognized => exact (raisesOnly_report (by decide)).bind raisesOnly_pure

theorem raisesOnly_typeIn (n : Node) (field : String) :
    (typeIn src limit n field).RaisesOnly resolverRules :=
  raisesOnly_traverse? (raisesOnly_resolveType (limit + 1)) _

theorem raisesOnly_valueIn (n : Node) (field : String) :
    (valueIn src limit n field).RaisesOnly resolverRules :=
  raisesOnly_traverse? (raisesOnly_resolveValue (limit + 1)) _

/-! ## Members -/

theorem raisesOnly_parameterOf (p : Node) :
    (parameterOf src limit p).RaisesOnly resolverRules :=
  (raisesOnly_typeIn p "type").bind raisesOnly_pure

theorem raisesOnly_parametersOf (n : Node) :
    (parametersOf src limit n).RaisesOnly resolverRules := by
  unfold parametersOf
  split
  · exact raisesOnly_traverse raisesOnly_parameterOf _
  · exact raisesOnly_pure

theorem raisesOnly_methodOf (n : Node) (decorators : List String) :
    (methodOf src limit n decorators).RaisesOnly resolverRules :=
  (raisesOnly_parametersOf n).bind ((raisesOnly_typeIn n "return_type").bind raisesOnly_pure)

theorem raisesOnly_definitionEntry (n : Node) (decorators : List String) :
    (definitionEntry src limit n decorators).RaisesOnly resolverRules := by
  unfold definitionEntry
  dsimp only
  split
  · exact (raisesOnly_typeIn n "return_type").bind raisesOnly_pure
  split
  · exact (raisesOnly_parametersOf n).bind raisesOnly_pure
  split
  · exact (raisesOnly_parametersOf n).bind raisesOnly_pure
  · exact (raisesOnly_methodOf n decorators).bind raisesOnly_pure

theorem raisesOnly_propertyOf (site : Site) :
    (propertyOf src limit site).RaisesOnly resolverRules :=
  (raisesOnly_typeIn site.node "type").bind
    ((raisesOnly_valueIn site.node "value").bind raisesOnly_pure)

/-! ## Classes -/

/-- The rules that a class is reported by. -/
def memberRules : List Rule :=
  .skippedMember :: resolverRules

theorem raisesOnly_entriesFrom (body : Node) (waiting : List String) (children : List Node) :
    (entriesFrom src limit body waiting children).RaisesOnly memberRules := by
  have hrules : resolverRules ⊆ memberRules := List.subset_cons_self _ _
  induction children generalizing waiting with
  | nil => exact raisesOnly_pure
  | cons n rest ih =>
    rw [entriesFrom]
    split
    · exact ih _
    · exact ((raisesOnly_definitionEntry n waiting).mono hrules).bind ((ih []).bind raisesOnly_pure)
    · exact ((raisesOnly_methodOf n waiting).mono hrules).bind ((ih []).bind raisesOnly_pure)
    · exact ((raisesOnly_propertyOf _).mono hrules).bind ((ih []).bind raisesOnly_pure)
    · exact (raisesOnly_report List.mem_cons_self).bind (ih [])

theorem raisesOnly_membersOf (n : Node) : (membersOf src limit n).RaisesOnly memberRules := by
  unfold membersOf
  split
  · exact (raisesOnly_entriesFrom _ _ _).map _
  · exact raisesOnly_pure

theorem raisesOnly_extendsTarget (clause : Node) :
    (extendsTarget src limit clause).RaisesOnly resolverRules := by
  unfold extendsTarget
  split
  · exact raisesOnly_pure
  · exact (raisesOnly_traverse (raisesOnly_resolveType (limit + 1)) _).bind raisesOnly_pure

theorem raisesOnly_heritageClause (clause : Node) :
    (heritageClause src limit clause).RaisesOnly resolverRules := by
  unfold heritageClause
  split
  · exact (raisesOnly_extendsTarget clause).map _
  · exact (raisesOnly_traverse (raisesOnly_resolveType (limit + 1)) _).map _
  · exact raisesOnly_pure

theorem raisesOnly_collectClass (site : Site) :
    (collectClass src limit site).RaisesOnly memberRules := by
  have hheritage : (heritageOf src limit site.node).RaisesOnly resolverRules :=
    raisesOnly_traverse raisesOnly_heritageClause _
  exact (hheritage.mono (List.subset_cons_self _ _)).bind
    ((raisesOnly_membersOf site.node).bind raisesOnly_pure)

end

end DeclCatalog
