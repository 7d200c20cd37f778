import DeclCatalog.Proofs.MemberTerms
import DeclCatalog.Proofs.SentinelReports

/-!
# Sentinels in the record of a class

A class whose record holds a sentinel should have been reported. What the resolvers do not
understand is reported, but four things turn into a sentinel without a word: a name that spells one,
a call without a callee, a construction of anything but a plain name, and a superclass that is
neither a name nor a member of something.

- `TypeTerm.IsClear`, `ValueTerm.IsClear`: a term without sentinels.
- `PlainlyNamed`: a tree in which none of the four occurs.
- `isClear_resolveType`, `isClear_resolveValue`, `isClear_extendsTarget`: in such a tree, what is
  read without a report is clear.
- `class_sentinel_is_reported`: **the record of a plainly named class holds a sentinel only if one
  was reported**.
- `class_sentinel_may_be_silent`: of other classes this does not hold.
-/

namespace DeclCatalog

open Node

/-! ## Terms without sentinels -/

/-- A type without sentinels. -/
def TypeTerm.IsClear (t : TypeTerm) : Prop :=
  ∀ s ∈ t.subterms, s.kind.isUnknown = false

theorem TypeTerm.isClear_mk {kind : Kind} {args : Option (List TypeTerm)}
    {literal : Option Literal} (hkind : kind.isUnknown = false)
    (hargs : ∀ ts ∈ args, ∀ t ∈ ts, t.IsClear) : (mk kind args literal).IsClear := by
  intro s hs
  rcases mem_subterms_mk.1 hs with rfl | ⟨ts, hts, t, ht, hs⟩
  · exact hkind
  · exact hargs ts hts t ht s hs

theorem TypeTerm.isClear_of_args?_eq_none {t : TypeTerm} (hargs : t.args? = none)
    (hkind : t.kind.isUnknown = false) : t.IsClear := by
  obtain ⟨kind, args, literal⟩ := t
  obtain rfl : args = none := hargs
  refine isClear_mk hkind ?_
  rintro ts ⟨⟩

theorem TypeTerm.isClear_leaf {kind : Kind} (h : kind.isUnknown = false) : (leaf kind).IsClear :=
  isClear_of_args?_eq_none rfl h

theorem TypeTerm.isClear_composite {kind : Kind} {args : List TypeTerm}
    (hkind : kind.isUnknown = false) (hargs : ∀ t ∈ args, t.IsClear) :
    (composite kind args).IsClear := by
  refine isClear_mk hkind ?_
  rintro ts ⟨⟩
  exact hargs

namespace ValueTerm

/-- A value in which the kinds outside the values inside it are no sentinels. -/
def HasClearParts (v : ValueTerm) : Prop :=
  (∀ t ∈ v.ownTypes, t.IsClear) ∧ ∀ kind ∈ v.groupKind?, kind.isUnknown = false

theorem hasClearParts_of_groupKind?_eq_none {v : ValueTerm} (hkind : v.groupKind? = none)
    (htypes : ∀ t ∈ v.ownTypes, t.IsClear) : v.HasClearParts := by
  refine ⟨htypes, ?_⟩
  rw [hkind]
  rintro kind ⟨⟩

/-- A value without sentinels, at any depth and in any place. -/
def IsClear (v : ValueTerm) : Prop :=
  ∀ w ∈ v.subvalues, w.HasClearParts

theorem IsClear.isUnknown_eq_false {v : ValueTerm} (h : v.IsClear) {kind : Kind}
    (hkind : kind ∈ v.kinds) : kind.isUnknown = false := by
  rcases List.mem_append.1 hkind with hkind | hkind
  · obtain ⟨s, hs, rfl⟩ := List.mem_map.1 hkind
    obtain ⟨w, hw, hs⟩ := List.mem_flatMap.1 hs
    obtain ⟨t, ht, hs⟩ := List.mem_flatMap.1 hs
    exact (h w hw).1 t ht s hs
  · obtain ⟨w, hw, hgroup⟩ := List.mem_filterMap.1 hkind
    exact (h w hw).2 kind hgroup

theorem isClear_plain {t : TypeTerm} (h : t.IsClear) : (plain t).IsClear := by
  intro w hw
  obtain rfl := List.mem_singleton.1 hw
  exact hasClearParts_of_groupKind?_eq_none rfl (List.forall_mem_singleton.2 h)

theorem isClear_access (operand name : String) : (access operand name).IsClear := by
  intro w hw
  obtain rfl := List.mem_singleton.1 hw
  exact hasClearParts_of_groupKind?_eq_none rfl (List.forall_mem_nil _)

theorem isClear_group {kind : Kind} {members : List Member} (hkind : kind.isUnknown = false)
    (hkeys : ∀ m ∈ members, ∀ key ∈ m.1, key.IsClear) (hvalues : ∀ m ∈ members, m.2.IsClear) :
    (group kind members).IsClear := by
  intro w hw
  rw [subvalues, subvaluesMembers_eq_flatMap] at hw
  rcases List.mem_cons.1 hw with rfl | hw
  · refine ⟨fun key hkey => ?_, ?_⟩
    · obtain ⟨m, hm, hsome⟩ := List.mem_filterMap.1 hkey
      exact hkeys m hm key hsome
    · rintro _ ⟨⟩
      exact hkind
  · obtain ⟨m, hm, hw⟩ := List.mem_flatMap.1 hw
    exact hvalues m hm w hw

theorem isClear_call {callee : ValueTerm} {args : List ValueTerm} (hcallee : callee.IsClear)
    (hargs : ∀ v ∈ args, v.IsClear) : (call callee args).IsClear := by
  intro w hw
  rw [subvalues, subvaluesList_eq_flatMap] at hw
  rcases List.mem_cons.1 hw with rfl | hw
  · exact hasClearParts_of_groupKind?_eq_none rfl (List.forall_mem_nil _)
  · rcases List.mem_append.1 hw with hw | hw
    · exact hcallee w hw
    · obtain ⟨v, hv, hw⟩ := List.mem_flatMap.1 hw
      exact hargs v hv w hw

theorem isClear_construct {target : TypeTerm} {typeArgs : List TypeTerm} {args : List ValueTerm}
    (htarget : target.IsClear) (htypeArgs : ∀ t ∈ typeArgs, t.IsClear)
    (hargs : ∀ v ∈ args, v.IsClear) : (construct target typeArgs args).IsClear := by
  intro w hw
  rw [subvalues, subvaluesList_eq_flatMap] at hw
  rcases List.mem_cons.1 hw with rfl | hw
  · exact hasClearParts_of_groupKind?_eq_none rfl (List.forall_mem_cons.2 ⟨htarget, htypeArgs⟩)
  · obtain ⟨v, hv, hw⟩ := List.mem_flatMap.1 hw
    exact hargs v hv w hw

end ValueTerm

/-! ## Plainly named trees -/

/-- A tree in which no name spells a sentinel, and what is called, constructed or extended is named.
-/
structure PlainlyNamed (src : Source) (n : Node) : Prop where
  names : ∀ name ∈ n.names, ¬ Kind.SpellsSentinel (src.text name) ∧
    ¬ Kind.SpellsSentinel (Text.trim (src.text name))
  calls : n.CallsHaveCallee
  constructions : ∀ m ∈ n.preorder, m.kind = "new_expression" →
    ∃ c ∈ m.child? "constructor", c.kind = "identifier"
  superclasses : ∀ m ∈ n.preorder, m.kind = "extends_clause" → ∀ value ∈ m.child? "value",
    value.kind = "identifier" ∨
      value.kind = "member_expression" ∧ ¬ Kind.SpellsSentinel (src.text value)

section

variable {src : Source} {limit : Nat} {n m : Node}

theorem PlainlyNamed.of_mem_preorder (h : PlainlyNamed src n) (hm : m ∈ n.preorder) :
    PlainlyNamed src m where
  names := by
    intro name hname
    obtain ⟨c, hc, hname⟩ := List.mem_flatMap.1 hname
    exact h.names name (mem_names_of_mem_ownNames (preorder_subset hm hc) hname)
  calls := h.calls.of_mem_preorder hm
  constructions := fun c hc => h.constructions c (preorder_subset hm hc)
  superclasses := fun c hc => h.superclasses c (preorder_subset hm hc)

theorem PlainlyNamed.namesClear (h : PlainlyNamed src n) : NamesClear src n :=
  fun name hname => (h.names name hname).2

/-- A name is read as no sentinel, with or without its blanks. -/
theorem PlainlyNamed.isUnknown_ofText (h : PlainlyNamed src n) {name : Node}
    (hname : name ∈ n.names) :
    (Kind.ofText (src.text name)).isUnknown = false ∧
      (Kind.ofText (Text.trim (src.text name))).isUnknown = false := by
  obtain ⟨htext, htrim⟩ := h.names name hname
  refine ⟨Bool.eq_false_iff.2 fun hunknown => htext ?_,
    Bool.eq_false_iff.2 fun hunknown => htrim ?_⟩
  · exact Kind.spellsSentinel_of_isUnknown_ofText hunknown
  · exact Kind.spellsSentinel_of_isUnknown_ofText hunknown

theorem mem_names_of_identifier (hm : m ∈ n.preorder) (hkind : m.kind = "identifier") :
    m ∈ n.names := by
  refine mem_names_of_mem_ownNames hm ?_
  rw [ownNames, hkind]
  exact List.mem_singleton_self m

/-! ## What is read without a report is clear -/

/-- A log in which no sentinel is reported. -/
def IsSilent (log : List Diagnostic) : Prop :=
  ∀ d ∈ log, d.rule.isLoud = false

theorem IsSilent.of_subset {log log' : List Diagnostic} (h : IsSilent log') (hsub : log ⊆ log') :
    IsSilent log :=
  fun d hd => h d (hsub hd)

theorem not_isSilent_of_mem {log : List Diagnostic} {d : Diagnostic} (hd : d ∈ log)
    (hloud : d.rule.isLoud = true) : ¬ IsSilent log := by
  intro h
  rw [h d hd] at hloud
  cases hloud

theorem isClear_resolveType {levels : Nat} (h : PlainlyNamed src n)
    (hsilent : IsSilent (resolveType src limit levels n).log) :
    (resolveType src limit levels n).value.IsClear := by
  induction levels generalizing n with
  | zero => exact absurd hsilent (not_isSilent_of_mem List.mem_cons_self rfl)
  | succ levels ih =>
    have hbare := h.of_mem_preorder (bareType_mem_preorder n)
    -- only a name can give the form the kind of a sentinel, and here no name spells one
    have hkind : ∀ kind, (typeForm src (bareType n)).kind? = some kind →
        kind.isUnknown = false := by
      intro kind hform
      rw [Bool.eq_false_iff]
      intro hunknown
      obtain ⟨name, hname, rfl⟩ := exists_ownName_of_typeForm hform hunknown
      have hmem := mem_names_of_mem_ownNames (self_mem_preorder (bareType n)) hname
      rw [(hbare.isUnknown_ofText hmem).1] at hunknown
      cases hunknown
    have hparts : ∀ m ∈ (typeForm src (bareType n)).parts,
        (resolveType src limit levels m).value.IsClear := by
      intro m hm
      exact ih (hbare.of_mem_preorder (mem_preorder_of_mem_parts hm))
        (hsilent.of_subset (log_resolveType_subset_of_mem_parts hm))
    rw [resolveType] at hsilent ⊢
    cases hform : typeForm src (bareType n) with
    | leaf kind =>
      rw [hform] at hkind
      exact TypeTerm.isClear_leaf (hkind kind rfl)
    | literal raw => exact TypeTerm.isClear_of_args?_eq_none rfl rfl
    | composite kind parts =>
      rw [hform] at hkind hparts
      refine TypeTerm.isClear_composite (hkind kind rfl) ?_
      rw [Logged.value_traverse]
      exact List.forall_mem_map.2 hparts
    | unrecognized =>
      rw [hform] at hsilent
      exact absurd hsilent (not_isSilent_of_mem List.mem_cons_self rfl)

theorem isClear_constructTarget (h : PlainlyNamed src n) (hkind : n.kind = "new_expression") :
    (constructTarget src n).IsClear := by
  obtain ⟨c, hc, hidentifier⟩ := h.constructions n n.self_mem_preorder hkind
  have hname := mem_names_of_identifier (mem_preorder_of_child? hc) hidentifier
  have htarget : constructTarget src n = TypeTerm.identifier (src.text c) := by
    rw [constructTarget, Option.mem_def.1 hc]
    simp [hidentifier]
  rw [htarget]
  exact TypeTerm.isClear_leaf (h.isUnknown_ofText hname).2

theorem isClear_resolveValue {levels : Nat} (h : PlainlyNamed src n)
    (hsilent : IsSilent (resolveValue src limit levels n).log) :
    (resolveValue src limit levels n).value.IsClear := by
  induction levels generalizing n with
  | zero => exact absurd hsilent (not_isSilent_of_mem List.mem_cons_self rfl)
  | succ levels ih =>
    -- the nodes that the form hands on are below this one, and what was said of them is silent too
    have hvalues : ∀ m ∈ (valueForm src n).value.values,
        (resolveValue src limit levels m).value.IsClear := by
      intro m hm
      exact ih (h.of_mem_preorder (mem_preorder_of_mem_values hm))
        (hsilent.of_subset (log_resolveValue_subset_of_mem_values hm))
    have htypes : ∀ m ∈ (valueForm src n).value.types,
        (resolveType src limit levels m).value.IsClear := by
      intro m hm
      exact isClear_resolveType (h.of_mem_preorder (mem_preorder_of_mem_types hm))
        (hsilent.of_subset (log_resolveType_subset_of_mem_types hm))
    rw [resolveValue, Logged.log_bind] at hsilent
    rw [resolveValue, Logged.value_bind]
    cases hform : (valueForm src n).value with
    | term t =>
      have hleaf := (plain_of_valueForm hform).1
      have hkind := h.namesClear.isUnknown_eq_false_of_term hform
      exact ValueTerm.isClear_plain (TypeTerm.isClear_of_args?_eq_none hleaf hkind)
    | access operand name => exact ValueTerm.isClear_access operand name
    | array elements =>
      rw [hform] at hvalues
      refine ValueTerm.isClear_group rfl ?_ ?_
      · rw [Logged.value_traverse]
        refine List.forall_mem_map.2 ?_
        rintro m - _ ⟨⟩
      · rw [Logged.value_traverse]
        exact List.forall_mem_map.2 hvalues
    | object pairs =>
      rw [hform] at hvalues
      refine ValueTerm.isClear_group rfl ?_ ?_
      · rw [Logged.value_traverse]
        refine List.forall_mem_map.2 ?_
        rintro ⟨key, m⟩ - _ ⟨⟩
        exact TypeTerm.isClear_of_args?_eq_none rfl rfl
      · rw [Logged.value_traverse]
        refine List.forall_mem_map.2 ?_
        rintro ⟨key, m⟩ hm
        exact hvalues m (List.mem_map_of_mem hm)
    | call callee args =>
      rw [hform] at hvalues
      obtain ⟨f, rfl⟩ := h.calls.exists_callee hform
      obtain ⟨hcallee, hargs⟩ := List.forall_mem_cons.1 hvalues
      refine ValueTerm.isClear_call hcallee ?_
      rw [Logged.value_traverse]
      exact List.forall_mem_map.2 hargs
    | construct target typeArgs args =>
      rw [hform] at hvalues htypes
      obtain ⟨hkind, rfl⟩ := eq_constructTarget_of_valueForm_eq_construct hform
      refine ValueTerm.isClear_construct (isClear_constructTarget h hkind) ?_ ?_
      · rw [Logged.value_traverse]
        exact List.forall_mem_map.2 htypes
      · rw [Logged.value_traverse]
        exact List.forall_mem_map.2 hvalues
    | unrecognized =>
      rw [hform] at hsilent
      exact absurd hsilent
        (not_isSilent_of_mem (List.mem_append_right _ List.mem_cons_self) rfl)

/-- What a class extends is clear: the name is none that spells a sentinel, and its arguments are
types. -/
theorem isClear_extendsTarget {target : TypeTerm} (h : PlainlyNamed src n)
    (hkind : n.kind = "extends_clause") (htarget : (extendsTarget src limit n).value = some target)
    (hsilent : IsSilent (extendsTarget src limit n).log) : target.IsClear := by
  unfold extendsTarget at htarget hsilent
  cases hchild : n.child? "value" with
  | none =>
    rw [hchild] at htarget
    cases htarget
  | some value =>
    have hvalue := mem_preorder_of_child? hchild
    have hsuper : (superclassKind src value).isUnknown = false := by
      rcases h.superclasses n n.self_mem_preorder hkind value hchild with hname | ⟨hmember, hclear⟩
      · have hread : superclassKind src value = Kind.ofText (src.text value) := by
          rw [superclassKind, hname]
          rfl
        rw [hread]
        exact (h.isUnknown_ofText (mem_names_of_identifier hvalue hname)).1
      · have hread : superclassKind src value = Kind.ofText (src.text value) := by
          rw [superclassKind, hmember]
          rfl
        rw [hread, Bool.eq_false_iff]
        exact fun hunknown => hclear (Kind.spellsSentinel_of_isUnknown_ofText hunknown)
    have hargs : ∀ t ∈ (Logged.traverse (typeOf src limit) (n.childrenIn "type_arguments")).value,
        t.IsClear := by
      rw [Logged.value_traverse]
      refine List.forall_mem_map.2 fun m hm => ?_
      refine isClear_resolveType (h.of_mem_preorder (mem_preorder_of_mem_childrenIn hm)) ?_
      rw [hchild] at hsilent
      refine hsilent.of_subset (List.subset_append_of_subset_left _ ?_)
      exact Logged.log_subset_traverse (typeOf src limit) hm
    rw [hchild] at htarget
    obtain rfl := Option.some.inj htarget
    split
    · exact TypeTerm.isClear_leaf hsuper
    · exact TypeTerm.isClear_composite hsuper hargs

/-- What a resolver gave for a node of a plainly named tree is clear where all it said is silent. -/
theorem Resolved.isClear {log : List Diagnostic} {v : ValueTerm} (h : Resolved src limit n log v)
    (hplain : PlainlyNamed src n) (hsilent : IsSilent log) : v.IsClear := by
  cases h with
  | type hm hlog =>
    exact ValueTerm.isClear_plain
      (isClear_resolveType (hplain.of_mem_preorder hm) (hsilent.of_subset hlog))
  | value hm hlog =>
    exact isClear_resolveValue (hplain.of_mem_preorder hm) (hsilent.of_subset hlog)

end

/-! ## The record of a class -/

/-- Whether a sentinel stands anywhere in the record of a class. -/
def ClassRecord.HasSentinel (c : ClassRecord) : Prop :=
  ∃ v ∈ c.terms, ∃ kind ∈ v.kinds, kind.isUnknown = true

instance (c : ClassRecord) : Decidable c.HasSentinel :=
  inferInstanceAs (Decidable (∃ v ∈ c.terms, ∃ kind ∈ v.kinds, kind.isUnknown = true))

/-- The record of a plainly named class that is read without a report is clear. -/
theorem isClear_collectClass {src : Source} {limit : Nat} {site : Site}
    (h : PlainlyNamed src site.node) (hsilent : IsSilent (collectClass src limit site).log) :
    ∀ v ∈ (collectClass src limit site).value.terms, v.IsClear := by
  rw [log_collectClass] at hsilent
  have hheading := hsilent.of_subset (List.subset_append_left _ _)
  have hbody := hsilent.of_subset (List.subset_append_right _ _)
  intro v hv
  rw [terms_collectClass, List.mem_append, List.mem_append] at hv
  rcases hv with (hv | hv) | hv
  · obtain ⟨target, htarget, rfl⟩ := List.mem_map.1 hv
    obtain ⟨clause, hclause, hkind, hvalue, hlog⟩ :=
      exists_extends_clause (Option.mem_toList.1 htarget)
    exact ValueTerm.isClear_plain (isClear_extendsTarget (h.of_mem_preorder hclause) hkind hvalue
      (hheading.of_subset hlog))
  · exact (allResolved_interfaces site.node v hv).isClear h hheading
  · exact (allResolved_membersOf site.node v hv).isClear h hbody

/-- **A plainly named class does not degrade silently.** When its record holds a sentinel, wherever
that stands, a diagnostic of one of the three rules for sentinels was raised. -/
theorem class_sentinel_is_reported (src : Source) (limit : Nat) (site : Site)
    (h : PlainlyNamed src site.node) (hsentinel : (collectClass src limit site).value.HasSentinel) :
    ∃ d ∈ (collectClass src limit site).log,
      d.rule ∈ [Rule.unknownExpression, .unknownType, .depthLimit] := by
  by_cases hsilent : IsSilent (collectClass src limit site).log
  · -- a silent log leaves the record clear, so there is no sentinel to begin with
    obtain ⟨v, hv, kind, hkind, hunknown⟩ := hsentinel
    rw [(isClear_collectClass h hsilent v hv).isUnknown_eq_false hkind] at hunknown
    cases hunknown
  · simp only [IsSilent, Classical.not_forall, Bool.not_eq_false] at hsilent
    obtain ⟨d, hd, hloud⟩ := hsilent
    exact ⟨d, hd, of_decide_eq_true hloud⟩

/-- The source `class A { p = a ?? b; }`. -/
def operatorSource : Source :=
  Source.ofText "operator.ts" "class A \x7b p = a ?? b; \x7d"

/-- The tree of `class A { p = a ?? b; }`. -/
def operatorClass : Node :=
  .named "class_declaration" none 0 23 [
    .token "class" 0 5, .named "type_identifier" (some "name") 6 7 [],
    .named "class_body" (some "body") 8 23 [
      .token "\x7b" 8 9,
      .named "public_field_definition" none 10 20 [
        .named "property_identifier" (some "name") 10 11 [], .token "=" 12 13,
        .named "binary_expression" (some "value") 14 20 [
          .named "identifier" none 14 15 [], .token "??" 16 18, .named "identifier" none 19 20 []]],
      .token ";" 20 21, .token "\x7d" 22 23]]

/-- The operator is not understood, which is said. -/
theorem class_sentinel_is_reported_operator :
    PlainlyNamed operatorSource operatorClass ∧
    (collectClass operatorSource 256 (.root operatorClass)).value.HasSentinel ∧
    ∃ d ∈ (collectClass operatorSource 256 (.root operatorClass)).log,
      d.rule ∈ [Rule.unknownExpression, .unknownType, .depthLimit] := by
  have hplain : PlainlyNamed operatorSource operatorClass :=
    ⟨by decide, by decide, by decide, by decide⟩
  have hsentinel : (collectClass operatorSource 256 (.root operatorClass)).value.HasSentinel := by
    decide
  exact ⟨hplain, hsentinel,
    class_sentinel_is_reported operatorSource 256 (.root operatorClass) hplain hsentinel⟩

/-- The source `class A extends mixin(B) {}`. -/
def mixinSource : Source :=
  Source.ofText "mixin.ts" "class A extends mixin(B) \x7b\x7d"

/-- The tree of `class A extends mixin(B) {}`. -/
def mixinClass : Node :=
  .named "class_declaration" none 0 27 [
    .token "class" 0 5, .named "type_identifier" (some "name") 6 7 [],
    .named "class_heritage" none 8 24 [
      .named "extends_clause" none 8 24 [
        .token "extends" 8 15,
        .named "call_expression" (some "value") 16 24 [
          .named "identifier" (some "function") 16 21 [],
          .named "arguments" (some "arguments") 21 24 [
            .token "(" 21 22, .named "identifier" none 22 23 [], .token ")" 23 24]]]],
    .named "class_body" (some "body") 25 27 [.token "\x7b" 25 26, .token "\x7d" 26 27]]

/-- A class that extends the result of a call has the sentinel for its superclass, and nothing is
said of it. -/
theorem class_sentinel_may_be_silent :
    ¬ ∀ (src : Source) (limit : Nat) (site : Site),
      (collectClass src limit site).value.HasSentinel →
      ∃ d ∈ (collectClass src limit site).log,
        d.rule ∈ [Rule.unknownExpression, .unknownType, .depthLimit] := by
  intro h
  have hsentinel : (collectClass mixinSource 256 (.root mixinClass)).value.HasSentinel := by decide
  have hlog : (collectClass mixinSource 256 (.root mixinClass)).log = [] := by rfl
  obtain ⟨d, hd, -⟩ := h mixinSource 256 (.root mixinClass) hsentinel
  rw [hlog] at hd
  cases hd

end DeclCatalog
