import DeclCatalog.Proofs.MemberTerms
import DeclCatalog.Proofs.PreorderWalk
import DeclCatalog.Proofs.RoleRouting

/-!
# Where diagnostics are raised

A reader that is given a node reports what it finds at nodes of the subtree of that node. Only the
decorators of a class may stand elsewhere: those before `export` hang below the export statement. So
whatever is said while a declaration is visited is said at a node that the declaration reaches.

- `Rule.isOfFile`: the two rules about a file as a whole, which no reader reports by.
- `RaisedAt`, `Logged.Stays`: a diagnostic of a reader at one of given nodes, and a computation that
  raises no others, with a lemma for each way in which computations are put together.
- `stays_resolveType`, `stays_resolveValue`: **the resolvers stay in the subtree of their node**.
- `stays_collectClass`, `stays_collectInterface`, `stays_collectEnum`, `stays_collectAlias`: so do
  the collectors.
- `Site.reach`, `stays_visit`: **a visit stays at the nodes that its declaration reaches**.
-/

namespace DeclCatalog

/-! ## Computations that stay at given nodes -/

/-- Whether a rule is about a file as a whole. -/
def Rule.isOfFile : Rule → Bool
  | .fileTimeout => true
  | .parseError => true
  | _ => false

/-- A diagnostic that a reader raises at one of given nodes. -/
inductive RaisedAt (src : Source) (nodes : List Node) : Diagnostic → Prop where
  | intro {rule : Rule} {n : Node} (message : String) (hrule : rule.isOfFile = false)
      (hn : n ∈ nodes) : RaisedAt src nodes (Diagnostic.ofRule rule (src.location n) message)

/-- Whether a computation raises diagnostics at given nodes only. -/
def Logged.Stays {α : Type} (m : Logged α) (src : Source) (nodes : List Node) : Prop :=
  ∀ d ∈ m.log, RaisedAt src nodes d

namespace Logged

variable {α β : Type} {src : Source} {nodes nodes' : List Node}

theorem stays_pure {a : α} : (pure a : Logged α).Stays src nodes := by
  intro d hd
  cases hd

theorem stays_bind_iff {m : Logged α} {f : α → Logged β} :
    (m >>= f).Stays src nodes ↔ m.Stays src nodes ∧ (f m.value).Stays src nodes :=
  List.forall_mem_append

theorem Stays.bind {m : Logged α} {f : α → Logged β} (hm : m.Stays src nodes)
    (hf : (f m.value).Stays src nodes) : (m >>= f).Stays src nodes :=
  stays_bind_iff.2 ⟨hm, hf⟩

theorem Stays.map {m : Logged α} (g : α → β) (h : m.Stays src nodes) :
    (g <$> m).Stays src nodes := by
  unfold Stays
  rw [log_map]
  exact h

theorem Stays.mono {m : Logged α} (h : m.Stays src nodes) (hnodes : nodes ⊆ nodes') :
    m.Stays src nodes' := by
  intro d hd
  obtain ⟨message, hrule, hn⟩ := h d hd
  exact .intro message hrule (hnodes hn)

theorem stays_report {rule : Rule} {n : Node} {message : String} (hrule : rule.isOfFile = false)
    (hn : n ∈ nodes) : (src.report rule n message).Stays src nodes :=
  List.forall_mem_singleton.2 (.intro message hrule hn)

theorem stays_traverse {step : α → Logged β} {as : List α}
    (h : ∀ a ∈ as, (step a).Stays src nodes) : (traverse step as).Stays src nodes := by
  unfold Stays
  rw [log_traverse]
  exact List.forall_mem_flatMap.2 h

theorem stays_traverse? {step : α → Logged β} {a : Option α}
    (h : ∀ x ∈ a, (step x).Stays src nodes) : (traverse? step a).Stays src nodes := by
  cases a with
  | none => exact stays_pure
  | some x => exact (h x rfl).bind stays_pure

/-- What stays below the nodes of a list stays below a node that has them all in its subtree. -/
theorem stays_traverse_below {step : Node → Logged β} {ns : List Node} {n : Node}
    (hns : ∀ c ∈ ns, c ∈ n.preorder) (h : ∀ c, (step c).Stays src c.preorder) :
    (traverse step ns).Stays src n.preorder :=
  stays_traverse fun c hc => (h c).mono (Node.preorder_subset (hns c hc))

end Logged

open Node Logged

variable {src : Source} {limit : Nat}

/-! ## The resolvers -/

theorem stays_resolveType (levels : Nat) (n : Node) :
    (resolveType src limit levels n).Stays src n.preorder := by
  induction levels generalizing n with
  | zero => exact (stays_report rfl n.self_mem_preorder).bind stays_pure
  | succ levels ih =>
    have hbare := bareType_mem_preorder n
    rw [resolveType]
    cases hform : typeForm src (bareType n) with
    | leaf kind => exact stays_pure
    | literal raw => exact stays_pure
    | composite kind parts =>
      have hparts : ∀ m ∈ parts, m ∈ (bareType n).preorder := by
        intro m hm
        refine @mem_preorder_of_mem_parts src (bareType n) m ?_
        rw [hform]
        exact hm
      exact ((stays_traverse_below hparts ih).mono (preorder_subset hbare)).bind stays_pure
    | unrecognized => exact (stays_report rfl hbare).bind stays_pure

theorem stays_typeOf (n : Node) : (typeOf src limit n).Stays src n.preorder :=
  stays_resolveType (limit + 1) n

theorem stays_pairsOf {members : List Node} {nodes : List Node}
    (hmembers : ∀ member ∈ members, member ∈ nodes) : (pairsOf src members).Stays src nodes := by
  fun_induction pairsOf src members with
  | case1 => exact stays_pure
  | case2 member rest hpair key value hvalue hkey ih =>
    exact (ih (List.forall_mem_cons.1 hmembers).2).bind stays_pure
  | case3 member rest hpair hincomplete ih => exact ih (List.forall_mem_cons.1 hmembers).2
  | case4 member rest hother ih =>
    obtain ⟨hmember, hrest⟩ := List.forall_mem_cons.1 hmembers
    exact (stays_report rfl hmember).bind (ih hrest)

theorem stays_objectPairs (n : Node) : (objectPairs src n).Stays src n.preorder :=
  stays_pairsOf fun _ hmember => mem_preorder_of_mem_namedChildren hmember

theorem stays_numberForm (n : Node) : (numberForm src n).Stays src n.preorder := by
  unfold numberForm
  dsimp only
  cases Text.intPrefix? (src.text n) with
  | some value => exact stays_pure
  | none => exact (stays_report rfl n.self_mem_preorder).bind stays_pure

theorem stays_valueForm (n : Node) : (valueForm src n).Stays src n.preorder := by
  intro d hd
  obtain hd | hd := mem_log_valueForm hd
  · exact stays_objectPairs n d hd
  · exact stays_numberForm n d hd

theorem stays_resolveValue (levels : Nat) (n : Node) :
    (resolveValue src limit levels n).Stays src n.preorder := by
  induction levels generalizing n with
  | zero => exact (stays_report rfl n.self_mem_preorder).bind stays_pure
  | succ levels ih =>
    rw [resolveValue]
    refine (stays_valueForm n).bind ?_
    -- the nodes that the form hands on are below the node
    have hvalues : ∀ m ∈ (valueForm src n).value.values, m ∈ n.preorder :=
      fun m hm => mem_preorder_of_mem_values hm
    have htypes : ∀ m ∈ (valueForm src n).value.types, m ∈ n.preorder :=
      fun m hm => mem_preorder_of_mem_types hm
    generalize (valueForm src n).value = form at hvalues htypes
    cases form with
    | term term => exact stays_pure
    | access operand name => exact stays_pure
    | array elements =>
      exact (stays_traverse_below hvalues fun m => (ih m).map _).bind stays_pure
    | object pairs =>
      refine Stays.bind (stays_traverse fun pair hpair => ?_) stays_pure
      have hvalue := hvalues pair.2 (List.mem_map_of_mem hpair)
      exact ((ih pair.2).map _).mono (preorder_subset hvalue)
    | call callee args =>
      obtain ⟨hcallee, hargs⟩ := List.forall_mem_append.1 hvalues
      refine Stays.bind (stays_traverse? fun m hm => ?_)
        ((stays_traverse_below hargs ih).bind stays_pure)
      exact (ih m).mono (preorder_subset (hcallee m (Option.mem_toList.2 hm)))
    | construct target typeArgs args =>
      exact (stays_traverse_below htypes (stays_resolveType levels)).bind
        ((stays_traverse_below hvalues ih).bind stays_pure)
    | unrecognized => exact (stays_report rfl n.self_mem_preorder).bind stays_pure

theorem stays_valueOf (n : Node) : (valueOf src limit n).Stays src n.preorder :=
  stays_resolveValue (limit + 1) n

theorem stays_typeIn (n : Node) (field : String) :
    (typeIn src limit n field).Stays src n.preorder :=
  stays_traverse? fun c hc => (stays_typeOf c).mono (preorder_subset (mem_preorder_of_child? hc))

theorem stays_valueIn (n : Node) (field : String) :
    (valueIn src limit n field).Stays src n.preorder :=
  stays_traverse? fun c hc => (stays_valueOf c).mono (preorder_subset (mem_preorder_of_child? hc))

/-! ## Members -/

theorem stays_parametersOf (n : Node) : (parametersOf src limit n).Stays src n.preorder := by
  unfold parametersOf
  cases hparams : n.child? "parameters" with
  | none => exact stays_pure
  | some params =>
    refine Stays.mono ?_ (preorder_subset (mem_preorder_of_child? hparams))
    refine stays_traverse_below (fun c hc => ?_) fun c => (stays_typeIn c "type").bind stays_pure
    exact mem_preorder_of_mem_namedChildren (List.mem_filter.1 hc).1

theorem stays_methodOf (n : Node) (decorators : List String) :
    (methodOf src limit n decorators).Stays src n.preorder :=
  (stays_parametersOf n).bind ((stays_typeIn n "return_type").bind stays_pure)

theorem stays_definitionEntry (n : Node) (decorators : List String) :
    (definitionEntry src limit n decorators).Stays src n.preorder := by
  unfold definitionEntry
  dsimp only
  split
  · exact (stays_typeIn n "return_type").bind stays_pure
  split
  · exact (stays_parametersOf n).bind stays_pure
  split
  · exact (stays_parametersOf n).bind stays_pure
  · exact (stays_methodOf n decorators).bind stays_pure

theorem stays_propertyOf (site : Site) :
    (propertyOf src limit site).Stays src site.node.preorder :=
  (stays_typeIn site.node "type").bind ((stays_valueIn site.node "value").bind stays_pure)

theorem stays_entriesFrom (body : Node) (waiting : List String) {ns : List Node}
    (hns : ∀ c ∈ ns, c ∈ body.preorder) :
    (entriesFrom src limit body waiting ns).Stays src body.preorder := by
  fun_induction entriesFrom src limit body waiting ns with
  | case1 => exact stays_pure
  | case2 waiting n rest _ ih => exact ih (List.forall_mem_cons.1 hns).2
  | case3 waiting n rest _ ih =>
    obtain ⟨hn, hrest⟩ := List.forall_mem_cons.1 hns
    exact ((stays_definitionEntry n waiting).mono (preorder_subset hn)).bind
      ((ih hrest).bind stays_pure)
  | case4 waiting n rest _ ih =>
    obtain ⟨hn, hrest⟩ := List.forall_mem_cons.1 hns
    exact ((stays_methodOf n waiting).mono (preorder_subset hn)).bind ((ih hrest).bind stays_pure)
  | case5 waiting n rest _ ih =>
    obtain ⟨hn, hrest⟩ := List.forall_mem_cons.1 hns
    exact ((stays_propertyOf { parent := some body, node := n }).mono (preorder_subset hn)).bind
      ((ih hrest).bind stays_pure)
  | case6 waiting n rest _ _ _ _ ih =>
    obtain ⟨hn, hrest⟩ := List.forall_mem_cons.1 hns
    exact (stays_report rfl hn).bind (ih hrest)

theorem stays_membersOf (n : Node) : (membersOf src limit n).Stays src n.preorder := by
  unfold membersOf
  cases hbody : n.child? "body" with
  | none => exact stays_pure
  | some body =>
    have hentries := @stays_entriesFrom src limit body [] body.namedChildren
      fun _ hc => mem_preorder_of_mem_namedChildren hc
    exact (hentries.map Members.ofEntries).mono (preorder_subset (mem_preorder_of_child? hbody))

/-! ## Classes, enums, interfaces and type aliases -/

theorem stays_heritageClause (clause : Node) :
    (heritageClause src limit clause).Stays src clause.preorder := by
  unfold heritageClause
  split
  · refine Stays.map _ ?_
    unfold extendsTarget
    split
    · exact stays_pure
    · exact (stays_traverse_below (fun _ hc => mem_preorder_of_mem_childrenIn hc)
        stays_typeOf).bind stays_pure
  · exact (stays_traverse_below (fun _ hc => mem_preorder_of_mem_namedChildren hc)
      stays_typeOf).map _
  · exact stays_pure

theorem stays_collectClass (site : Site) :
    (collectClass src limit site).Stays src site.node.preorder := by
  have hheritage : (heritageOf src limit site.node).Stays src site.node.preorder :=
    stays_traverse_below (fun _ hc => mem_preorder_of_mem_flatMap_namedChildren hc)
      stays_heritageClause
  exact hheritage.bind ((stays_membersOf site.node).bind stays_pure)

theorem stays_enumMember? (n : Node) : (enumMember? src limit n).Stays src n.preorder := by
  unfold enumMember?
  split
  · cases n.firstNamedChild? with
    | none => exact stays_pure
    | some name => exact (stays_valueIn n "value").bind stays_pure
  · exact stays_pure
  · exact stays_pure
  · exact stays_pure
  · exact stays_pure

theorem stays_collectEnum (n : Node) : (collectEnum src limit n).Stays src n.preorder :=
  (stays_traverse_below (fun _ hc => mem_preorder_of_mem_childrenIn hc) stays_enumMember?).bind
    stays_pure

theorem stays_interfaceFunction (member signature : Node) :
    (interfaceFunction src limit member signature).Stays src signature.preorder :=
  (stays_parametersOf signature).bind ((stays_typeIn signature "return_type").bind stays_pure)

theorem stays_entryOfSignature? (member : Node) :
    (entryOfSignature? src limit member).Stays src member.preorder := by
  have hproperty : (propertyEntry src limit member).Stays src member.preorder := by
    unfold propertyEntry
    cases hsignature : functionType? member with
    | none => exact (stays_typeIn member "type").bind stays_pure
    | some signature =>
      exact ((stays_interfaceFunction member signature).map _).mono
        (preorder_subset (mem_preorder_of_functionType? hsignature))
  unfold entryOfSignature?
  split
  · exact hproperty.map _
  · exact (stays_interfaceFunction member member).map _
  · exact (stays_report rfl member.self_mem_preorder).bind stays_pure

theorem stays_collectInterface (n : Node) : (collectInterface src limit n).Stays src n.preorder :=
  (stays_traverse_below (fun _ hc => mem_preorder_of_mem_flatMap_namedChildren hc)
    stays_typeOf).bind
    ((stays_traverse_below (fun _ hc => mem_preorder_of_mem_childrenIn hc)
      stays_entryOfSignature?).bind stays_pure)

theorem stays_collectAlias (n : Node) : (collectAlias src limit n).Stays src n.preorder :=
  (stays_typeIn n "value").bind stays_pure

/-! ## Decorated classes

The fields of a decorator are read from the values of some pairs, so they stay below a node that has
these values in its subtree. -/

section

variable {pairs : List (String × Node)} {n : Node}

theorem stays_fieldOf {α : Type} (hpairs : ∀ pair ∈ pairs, pair.2 ∈ n.preorder) (key : String)
    (shape : ValueShape α) : (fieldOf src pairs key shape).Stays src n.preorder := by
  unfold fieldOf
  cases hvalue : lastValue? pairs key with
  | none => exact stays_pure
  | some value =>
    dsimp only
    cases shape.read? value with
    | some field => exact stays_pure
    | none => exact (stays_report rfl (hpairs _ (mem_of_lookup_reverse hvalue))).bind stays_pure

theorem stays_termOf (hpairs : ∀ pair ∈ pairs, pair.2 ∈ n.preorder) (key : String) :
    (termOf src limit pairs key).Stays src n.preorder := by
  refine stays_traverse? fun value hvalue => (stays_valueOf value).mono ?_
  exact preorder_subset (hpairs _ (mem_of_lookup_reverse hvalue))

theorem stays_directiveInfo (hpairs : ∀ pair ∈ pairs, pair.2 ∈ n.preorder) (c : Node) :
    (directiveInfo src limit pairs c).Stays src n.preorder := by
  simp only [directiveInfo, stays_bind_iff, stays_fieldOf hpairs, stays_termOf hpairs, stays_pure,
    and_self]

theorem stays_componentInfo (hpairs : ∀ pair ∈ pairs, pair.2 ∈ n.preorder) (c : Node) :
    (componentInfo src limit pairs c).Stays src n.preorder := by
  simp only [componentInfo, stays_bind_iff, stays_directiveInfo hpairs, stays_fieldOf hpairs,
    stays_termOf hpairs, stays_pure, and_self]

theorem stays_moduleInfo (hpairs : ∀ pair ∈ pairs, pair.2 ∈ n.preorder) :
    (moduleInfo src limit pairs).Stays src n.preorder := by
  simp only [moduleInfo, stays_bind_iff, stays_fieldOf hpairs, stays_termOf hpairs, stays_pure,
    and_self]

theorem stays_pipeInfo (hpairs : ∀ pair ∈ pairs, pair.2 ∈ n.preorder) :
    (pipeInfo src pairs).Stays src n.preorder := by
  simp only [pipeInfo, stays_bind_iff, stays_fieldOf hpairs, stays_pure, and_self]

end

theorem mem_preorder_of_configObject? {decorator object : Node}
    (h : configObject? decorator = some object) : object ∈ decorator.preorder := by
  obtain ⟨hargument, -⟩ := Option.filter_eq_some_iff.1 h
  unfold firstArgument? at hargument
  obtain ⟨call, hcall, hargument⟩ := Option.bind_eq_some_iff.1 hargument
  split at hargument
  · obtain ⟨arguments, harguments, hfirst⟩ := Option.bind_eq_some_iff.1 hargument
    have hcall := mem_preorder_of_mem_namedChildren (List.mem_of_head? hcall)
    have hfirst := mem_preorder_of_mem_namedChildren (List.mem_of_head? hfirst)
    exact preorder_subset hcall (preorder_subset (mem_preorder_of_child? harguments) hfirst)
  · cases hargument

/-- The nodes that are read for a declaration: its subtree, and those of its decorators. -/
def Site.reach (site : Site) : List Node :=
  site.node.preorder ++ Node.preorderAll (decoratorNodes site)

theorem Site.preorder_node_subset_reach (site : Site) : site.node.preorder ⊆ site.reach :=
  List.subset_append_left _ _

/-- The pairs that a decorator is called with have their values below a node that is reached. -/
theorem stays_configPairs (aliases : Aliases) (site : Site) (role : Role) :
    ∃ n : Node, n.preorder ⊆ site.reach ∧
      (∀ pair ∈ (configPairs src aliases site role).value, pair.2 ∈ n.preorder) ∧
      (configPairs src aliases site role).Stays src n.preorder := by
  unfold configPairs
  cases hobject : (decoratorOfRole? src aliases site role).bind configObject? with
  | none =>
    -- without an object there are no pairs, so any node will do
    refine ⟨site.node, site.preorder_node_subset_reach, fun pair hpair => ?_, stays_pure⟩
    cases hpair
  | some object =>
    obtain ⟨decorator, hdecorator, hobject⟩ := Option.bind_eq_some_iff.1 hobject
    obtain ⟨hmem, -⟩ := gives_of_decoratorOfRole? hdecorator
    refine ⟨object, ?_, fun pair hpair => ?_, stays_objectPairs object⟩
    · refine List.subset_append_of_subset_right _ ?_
      refine preorder_subset_preorderAll (mem_preorderAll_iff.2 ⟨decorator, hmem, ?_⟩)
      exact mem_preorder_of_configObject? hobject
    · obtain ⟨member, hmember, hvalue⟩ := exists_mem_preorder_of_mem_pairsOf hpair
      exact preorder_subset (mem_preorder_of_mem_namedChildren hmember) hvalue

theorem stays_collectDecorated (config : Config) (site : Site) (role : Role) :
    (collectDecorated src config site role).Stays src site.reach := by
  unfold collectDecorated
  refine ((stays_collectClass site).mono site.preorder_node_subset_reach).bind ?_
  obtain ⟨n, hreach, hvalues, hpairs⟩ :=
    @stays_configPairs src config.aliases site role
  refine (hpairs.mono hreach).bind (Stays.mono ?_ hreach)
  cases role with
  | component => exact (stays_componentInfo hvalues site.node).bind stays_pure
  | directive => exact (stays_directiveInfo hvalues site.node).bind stays_pure
  | injectable => exact ((stays_termOf hvalues "providedIn").bind stays_pure).bind stays_pure
  | module => exact (stays_moduleInfo hvalues).bind stays_pure
  | pipe => exact (stays_pipeInfo hvalues).bind stays_pure

/-! ## Visits -/

theorem stays_classLike (config : Config) (site : Site) :
    (classLike src config site).Stays src site.reach := by
  unfold classLike
  split
  · exact stays_collectDecorated config site _
  · exact ((stays_collectClass site).map _).mono site.preorder_node_subset_reach

/-- Whatever is said while a node is visited is said at a node that it reaches. -/
theorem stays_visit (config : Config) (site : Site) :
    (visit src config site).Stays src site.reach := by
  have hsubtree := site.preorder_node_subset_reach
  rw [visit_eq_visitAs]
  cases site.node.declared? with
  | none => exact stays_pure
  | some declared =>
    cases declared with
    | file => exact stays_pure
    | classLike => exact (stays_classLike config site).map some
    | interface => exact ((stays_collectInterface site.node).map _).mono hsubtree
    | enum => exact ((stays_collectEnum site.node).map _).mono hsubtree
    | typeAlias => exact ((stays_collectAlias site.node).map _).mono hsubtree

end DeclCatalog
