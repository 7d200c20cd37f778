import DeclCatalog.Collect.Decorated
import DeclCatalog.Proofs.MemberDistribution
import DeclCatalog.Proofs.WellFormedTerms

/-!
# The constructor of a directive

The record of a directive speaks twice of its constructor: as a class it has the parameters, and as
a directive it has the attributes and the handles among them. The two are read apart. The class
takes the last definition that is called `constructor` and is no accessor, and does not care about
quotes. The directive takes the first definition whose name is written `constructor`. If a class has
at most one definition of that name, a plain one, then both take the same.

- `constructorDefinitions`, `HasPlainConstructor`: the definitions that are called `constructor`,
  and a class where the two searches find the same one.
- `constructorParamNodes_eq`, `constructorParameters_membersOf`: the directive and the class then
  read the same nodes.
- `IsGrammatical`: the shape that the grammar gives to a parameter.
- `typeName?_eq_some_iff`: the syntax of a type names a handle just if the resolved type does.
- `referenceParameter?_eq`, `attributeParameter?_some`: one parameter, read in both ways.
- `constructor_metadata_agrees`: **the attributes and handles of a directive are those among the
  parameters of its class**.
- `constructor_metadata_may_disagree`: they need not be if the name is written in quotes.
-/

namespace DeclCatalog

/-! ## The two searches -/

/-- The definitions in the body of a class that are called `constructor`, with or without quotes. -/
def constructorDefinitions (src : Source) (n : Node) : List Node :=
  (n.childrenIn "body").filter fun m =>
    m.kind == "method_definition" && memberName src m == "constructor"

/-- What stands in the parameter lists of these definitions. -/
def constructorNodes (src : Source) (n : Node) : List Node :=
  (constructorDefinitions src n).flatMap fun m => m.childrenIn "parameters"

/-- At most one definition of a class is called `constructor`, and that one is plain. -/
structure HasPlainConstructor (src : Source) (n : Node) : Prop where
  unique : (constructorDefinitions src n).length ≤ 1
  /-- Its name is written without quotes. -/
  unquoted : ∀ m ∈ constructorDefinitions src n, src.fieldText? m "name" = some "constructor"
  /-- It is no accessor. -/
  noAccessor : ∀ m ∈ constructorDefinitions src n,
    m.hasToken "get" = false ∧ m.hasToken "set" = false

section

variable {src : Source} {limit : Nat} {n body : Node}

theorem constructorDefinitions_of_body (hbody : n.child? "body" = some body) :
    constructorDefinitions src n = body.namedChildren.filter fun m =>
      m.kind == "method_definition" && memberName src m == "constructor" := by
  rw [constructorDefinitions, Node.childrenIn, hbody]

theorem mem_constructorDefinitions_iff (hbody : n.child? "body" = some body) {m : Node} :
    m ∈ constructorDefinitions src n ↔
      m ∈ body.namedChildren ∧ m.kind = "method_definition" ∧ memberName src m = "constructor" := by
  rw [constructorDefinitions_of_body hbody, List.mem_filter, Bool.and_eq_true, beq_iff_eq,
    beq_iff_eq]

theorem HasPlainConstructor.eq_nil_or_singleton (h : HasPlainConstructor src n) :
    constructorDefinitions src n = [] ∨ ∃ m, constructorDefinitions src n = [m] := by
  have hunique := h.unique
  cases hdefinitions : constructorDefinitions src n with
  | nil => exact .inl rfl
  | cons m rest =>
    rw [hdefinitions, List.length_cons] at hunique
    have hrest : rest = [] := List.length_eq_zero_iff.1 (by omega)
    exact .inr ⟨m, by rw [hrest]⟩

theorem memberName_of_fieldText? {m : Node} (h : src.fieldText? m "name" = some "constructor") :
    memberName src m = "constructor" := by
  rw [memberName, h]
  decide

/-- The directive takes the definition called `constructor`, since its name has no quotes. -/
theorem find?_constructor_eq (h : HasPlainConstructor src n) (hbody : n.child? "body" = some body) :
    (body.namedChildren.find? fun m =>
      m.kind == "method_definition" && src.fieldText? m "name" == some "constructor") =
      (constructorDefinitions src n).head? := by
  rw [constructorDefinitions_of_body hbody, ← List.head?_filter]
  refine congrArg List.head? (List.filter_congr fun m hm => ?_)
  rw [Bool.eq_iff_iff, Bool.and_eq_true, Bool.and_eq_true, beq_iff_eq, beq_iff_eq, beq_iff_eq]
  constructor
  · rintro ⟨hkind, hname⟩
    exact ⟨hkind, memberName_of_fieldText? hname⟩
  · rintro ⟨hkind, hname⟩
    exact ⟨hkind, h.unquoted m ((mem_constructorDefinitions_iff hbody).2 ⟨hm, hkind, hname⟩)⟩

/-- The class takes the definition called `constructor`, since it is no accessor. -/
theorem map_node_constructors_eq (h : HasPlainConstructor src n)
    (hbody : n.child? "body" = some body) :
    (childrenOfSort src body .constructor).map BodyChild.node = constructorDefinitions src n := by
  rw [map_node_childrenOfSort, constructorDefinitions_of_body hbody]
  refine List.filter_congr fun m hm => ?_
  rw [Bool.eq_iff_iff, Bool.and_eq_true, beq_iff_eq, beq_iff_eq, decide_eq_true_iff,
    memberSort_eq_constructor_iff, isConstructor_eq]
  constructor
  · rintro ⟨hkind, hconstructor⟩
    rw [Bool.and_eq_true] at hconstructor
    exact ⟨hkind, beq_iff_eq.1 hconstructor.2⟩
  · rintro ⟨hkind, hname⟩
    have hmem : m ∈ constructorDefinitions src n :=
      (mem_constructorDefinitions_iff hbody).2 ⟨hm, hkind, hname⟩
    obtain ⟨hget, hset⟩ := h.noAccessor m hmem
    rw [hget, hset, hname]
    exact ⟨hkind, rfl⟩

/-- The nodes from which the directive reads. -/
theorem constructorParamNodes_eq (h : HasPlainConstructor src n) :
    constructorParamNodes src n = constructorNodes src n := by
  unfold constructorParamNodes constructorParams? constructorNodes
  cases hbody : n.child? "body" with
  | none => simp [constructorDefinitions, Node.childrenIn, hbody]
  | some body =>
    simp only [Option.bind_eq_bind, Option.bind_some, find?_constructor_eq h hbody]
    rcases h.eq_nil_or_singleton with hnone | ⟨m, hone⟩
    · rw [hnone]
      rfl
    · rw [hone, List.flatMap_singleton, Node.childrenIn]
      rfl

theorem value_parametersOf (m : Node) :
    (parametersOf src limit m).value = ((m.childrenIn "parameters").filter isParameter).map
      fun p => (parameterOf src limit p).value := by
  unfold parametersOf Node.childrenIn
  cases m.child? "parameters" with
  | none => rfl
  | some params => exact Logged.value_traverse (parameterOf src limit) _

/-- The nodes from which the class reads. -/
theorem constructorParameters_membersOf (h : HasPlainConstructor src n) :
    (membersOf src limit n).value.constructorParameters =
      ((constructorNodes src n).filter isParameter).map
        fun p => (parameterOf src limit p).value := by
  unfold membersOf constructorNodes
  cases hbody : n.child? "body" with
  | none => simp [constructorDefinitions, Node.childrenIn, hbody, Members.empty]
  | some body =>
    have hnodes := map_node_constructors_eq h hbody
    have hlast : (distribute src limit body).value.constructorParameters =
        ((constructorDefinitions src n).getLast?.map
          fun m => (parametersOf src limit m).value).getD [] := by
      rw [constructorParameters_distribute, ← hnodes, List.getLast?_map, Option.map_map]
      rfl
    refine hlast.trans ?_
    rcases h.eq_nil_or_singleton with hnone | ⟨m, hone⟩
    · rw [hnone]
      rfl
    · rw [hone, List.flatMap_singleton, ← value_parametersOf]
      rfl

end

/-! ## One parameter -/

/-- A node in a list of parameters has the shape that the grammar gives to parameters: it binds a
pattern, its type is an annotation, and there a name is a type name, or a qualified one with a dot.
-/
structure IsGrammatical (src : Source) (p : Node) : Prop where
  pattern : (p.child? "pattern").isSome = isParameter p
  annotated : ∀ a, p.child? "type" = some a → a.kind = "type_annotation"
  typeName : ∀ a t, p.child? "type" = some a → a.firstNamedChild? = some t → t.kind ≠ "identifier"
  qualified : ∀ a t, p.child? "type" = some a → a.firstNamedChild? = some t →
    t.kind = "nested_type_identifier" → '.' ∈ (src.text t).toList

/-- The handle that a parameter takes, by its resolved type. -/
def referenceOf? (p : Parameter) : Option ReferenceParameter :=
  match p.type.map TypeTerm.kind with
  | some (.named name) =>
    if referenceTypes.contains name then some { identifier := p.identifier, type := name } else none
  | _ => none

/-- Whether a parameter has an attribute decorator. -/
def Parameter.takesAttribute (p : Parameter) : Bool :=
  p.decorators.contains "Attribute"

section

variable {src : Source} {limit : Nat}

/-- Names of handles are read as names. -/
theorem ofText_eq_named_iff {text handle : String} (h : handle ∈ referenceTypes) :
    Kind.ofText text = .named handle ↔ text = handle := by
  have hnamed : ∀ s ∈ referenceTypes, Kind.ofText s = .named s := by decide
  constructor
  · intro heq
    have htext := congrArg Kind.text heq
    rw [Kind.text_ofText] at htext
    exact htext
  · rintro rfl
    exact hnamed text h

theorem not_mem_referenceTypes_of_dot {text : String} (h : '.' ∈ text.toList) :
    text ∉ referenceTypes := by
  have hall : ∀ s ∈ referenceTypes, '.' ∉ s.toList := by decide
  exact fun hmem => hall text hmem h

/-- The outermost kind of a resolved type is that of its form. -/
theorem kind_typeOf_eq_named_iff (a : Node) (name : String) :
    (typeOf src limit a).value.kind = .named name ↔
      (typeForm src (bareType a)).kind? = some (.named name) := by
  unfold typeOf
  rw [resolveType]
  cases typeForm src (bareType a) with
  | leaf kind => simp [TypeTerm.leaf, TypeTerm.kind, TypeForm.kind?]
  | literal raw => simp [TypeTerm.scalar, TypeTerm.kind, TypeForm.kind?]
  | composite kind parts => simp [TypeTerm.composite, TypeTerm.kind, TypeForm.kind?]
  | unrecognized => simp [TypeTerm.unknown, TypeTerm.leaf, TypeTerm.kind, TypeForm.kind?]

/-- A form that is a name comes from a name. -/
theorem kind_of_typeForm_eq_named {t : Node} {name : String}
    (h : (typeForm src t).kind? = some (.named name)) :
    t.kind ∈ ["type_identifier", "nested_type_identifier", "identifier", "generic_type"] := by
  have hspec := spec_typeForm src t
  generalize typeForm src t = form at h hspec
  cases hspec with
  | name hkind => exact List.mem_append_left ["generic_type"] hkind
  | generic hkind => simp [hkind]
  | keyword hgiven => exact absurd (Option.some.inj h) (hgiven.ne_named name)
  | chain hgiven => exact absurd (Option.some.inj h) (hgiven.ne_named name)
  | list hgiven => exact absurd (Option.some.inj h) (hgiven.ne_named name)
  | tuple => cases h
  | literal raw => cases h
  | unrecognized => cases h

/-- The name of a type, when it is a plain or generic name. -/
def nameOfType? (src : Source) (t : Node) : Option String :=
  match t.kind with
  | "type_identifier" => some (src.text t)
  | "generic_type" => src.fieldText? t "name"
  | _ => none

theorem typeName?_eq (p : Node) :
    typeName? src p =
      (p.child? "type").bind fun a => a.firstNamedChild?.bind (nameOfType? src) :=
  rfl

/-- The syntax of a type names a handle just if its form does. -/
theorem nameOfType?_eq_some_iff {t : Node} (hidentifier : t.kind ≠ "identifier")
    (hqualified : t.kind = "nested_type_identifier" → '.' ∈ (src.text t).toList) {handle : String}
    (hhandle : handle ∈ referenceTypes) :
    nameOfType? src t = some handle ↔ (typeForm src t).kind? = some (.named handle) := by
  by_cases hplain : t.kind = "type_identifier"
  · simp [nameOfType?, typeForm, hplain, TypeForm.kind?, ofText_eq_named_iff hhandle]
  by_cases hgeneric : t.kind = "generic_type"
  · cases hname : t.child? "name" <;>
      simp [nameOfType?, typeForm, hgeneric, Source.fieldText?, hname, TypeForm.kind?,
        ofText_eq_named_iff hhandle]
  by_cases hnested : t.kind = "nested_type_identifier"
  · have hdot := not_mem_referenceTypes_of_dot (hqualified hnested)
    have htext : src.text t ≠ handle := fun heq => hdot (heq ▸ hhandle)
    simp [nameOfType?, typeForm, hnested, TypeForm.kind?, ofText_eq_named_iff hhandle, htext]
  · constructor
    · intro h
      unfold nameOfType? at h
      split at h
      · exact absurd ‹t.kind = "type_identifier"› hplain
      · exact absurd ‹t.kind = "generic_type"› hgeneric
      · cases h
    · intro h
      have hkind := kind_of_typeForm_eq_named h
      simp [hplain, hgeneric, hnested, hidentifier] at hkind

/-- The syntax of a parameter's type names a handle just if the resolved type does. -/
theorem typeName?_eq_some_iff {p : Node} (h : IsGrammatical src p) {handle : String}
    (hhandle : handle ∈ referenceTypes) :
    typeName? src p = some handle ↔
      (parameterOf src limit p).value.type.map TypeTerm.kind = some (.named handle) := by
  have htype : (parameterOf src limit p).value.type =
      (p.child? "type").map fun a => (typeOf src limit a).value :=
    Logged.value_traverse? _ _
  rw [htype, typeName?_eq]
  cases ha : p.child? "type" with
  | none => simp
  | some a =>
    have hannotated := h.annotated a ha
    rw [Option.bind_some, Option.map_some, Option.map_some, Option.some_inj,
      kind_typeOf_eq_named_iff]
    cases ht : a.firstNamedChild? with
    | none =>
      -- an empty annotation stands for itself, which is no type
      simp [bareType, typeForm, hannotated, ht, TypeForm.kind?]
    | some t =>
      have hbare : bareType a = t := by simp [bareType, hannotated, ht]
      rw [hbare, Option.bind_some]
      exact nameOfType?_eq_some_iff (h.typeName a t ha ht) (h.qualified a t ha ht) hhandle

theorem referenceParameter?_eq_some_iff {p : Node} {r : ReferenceParameter} :
    referenceParameter? src p = some r ↔
      src.fieldText? p "pattern" = some r.identifier ∧ r.type ∈ referenceTypes ∧
        typeName? src p = some r.type := by
  unfold referenceParameter?
  simp only [Option.bind_eq_bind, Option.bind_eq_some_iff]
  constructor
  · rintro ⟨identifier, hpattern, type, htype, hr⟩
    by_cases hmem : referenceTypes.contains type = true
    · rw [if_pos hmem] at hr
      obtain rfl := Option.some.inj hr
      exact ⟨hpattern, List.contains_iff_mem.1 hmem, htype⟩
    · rw [if_neg hmem] at hr
      cases hr
  · rintro ⟨hpattern, hmem, htype⟩
    refine ⟨r.identifier, hpattern, r.type, htype, ?_⟩
    rw [if_pos (List.contains_iff_mem.2 hmem)]
    rfl

theorem referenceOf?_eq_some_iff {p : Parameter} {r : ReferenceParameter} :
    referenceOf? p = some r ↔
      p.identifier = r.identifier ∧ r.type ∈ referenceTypes ∧
        p.type.map TypeTerm.kind = some (.named r.type) := by
  unfold referenceOf?
  constructor
  · intro h
    obtain hnone | ⟨kind, hkind⟩ := (p.type.map TypeTerm.kind).eq_none_or_eq_some
    · rw [hnone] at h
      cases h
    rw [hkind] at h ⊢
    cases kind with
    | named name =>
      by_cases hmem : referenceTypes.contains name = true
      · obtain rfl := Option.some.inj ((if_pos hmem).symm.trans h)
        exact ⟨rfl, List.contains_iff_mem.1 hmem, rfl⟩
      · cases (if_neg hmem).symm.trans h
    | _ => cases h
  · rintro ⟨hidentifier, hmem, htype⟩
    rw [htype]
    dsimp only
    rw [if_pos (List.contains_iff_mem.2 hmem), hidentifier]

/-- The handle of a node in a list of parameters is that of the parameter, if it is one. -/
theorem referenceParameter?_eq {p : Node} (h : IsGrammatical src p) :
    referenceParameter? src p =
      if isParameter p then referenceOf? (parameterOf src limit p).value else none := by
  have hpattern := h.pattern
  refine Option.ext fun r => ?_
  rw [referenceParameter?_eq_some_iff]
  cases hp : p.child? "pattern" with
  | none =>
    rw [hp] at hpattern
    rw [Source.fieldText?, hp, ← hpattern]
    simp
  | some pattern =>
    rw [hp] at hpattern
    have hidentifier : (parameterOf src limit p).value.identifier = src.text pattern := by
      show (src.fieldText? p "pattern").getD "" = src.text pattern
      rw [Source.fieldText?, hp]
      rfl
    rw [Source.fieldText?, hp, ← hpattern, if_pos Option.isSome_some, referenceOf?_eq_some_iff,
      hidentifier, Option.map_some, Option.some_inj]
    refine and_congr_right fun _ => and_congr_right fun hmem => ?_
    exact typeName?_eq_some_iff h hmem

/-- A node in a list of parameters that takes an attribute is a parameter with the decorator. -/
theorem attributeParameter?_some {p : Node} (h : IsGrammatical src p) {a : AttributeParameter}
    (ha : attributeParameter? src p = some a) :
    isParameter p = true ∧ (parameterOf src limit p).value.takesAttribute = true ∧
      (parameterOf src limit p).value.identifier = a.identifier := by
  unfold attributeParameter? at ha
  simp only [Option.bind_eq_bind, Option.bind_eq_some_iff] at ha
  obtain ⟨identifier, hpattern, argument, hargument, ha⟩ := ha
  obtain rfl := Option.some.inj ha
  refine ⟨?_, ?_, ?_⟩
  · obtain ⟨pattern, hp, -⟩ := Option.map_eq_some_iff.1 hpattern
    rw [← h.pattern, hp]
    rfl
  · obtain ⟨d, hd, -⟩ := List.mem_filterMap.1 (List.mem_of_getLast? hargument)
    obtain ⟨hd, hname⟩ := List.mem_filter.1 hd
    exact List.contains_iff_mem.2 (List.mem_filterMap.2 ⟨d, hd, beq_iff_eq.1 hname⟩)
  · show (src.fieldText? p "pattern").getD "" = identifier
    rw [hpattern]
    rfl

/-! ## The whole -/

theorem filterMap_referenceParameter? {nodes : List Node} (h : ∀ p ∈ nodes, IsGrammatical src p) :
    nodes.filterMap (referenceParameter? src) =
      ((nodes.filter isParameter).map fun p => (parameterOf src limit p).value).filterMap
        referenceOf? := by
  rw [List.filterMap_map, List.filterMap_filter]
  exact List.filterMap_congr fun p hp => referenceParameter?_eq (h p hp)

theorem map_attributeParameter?_sublist {nodes : List Node}
    (h : ∀ p ∈ nodes, IsGrammatical src p) :
    ((nodes.filterMap (attributeParameter? src)).map AttributeParameter.identifier).Sublist
      ((((nodes.filter isParameter).map fun p => (parameterOf src limit p).value).filter
        Parameter.takesAttribute).map Parameter.identifier) := by
  induction nodes with
  | nil => exact List.nil_sublist _
  | cons p rest ih =>
    have htail := ih fun q hq => h q (List.mem_cons_of_mem p hq)
    cases ha : attributeParameter? src p with
    | none =>
      rw [List.filterMap_cons_none ha]
      refine htail.trans ?_
      have hrest : rest.Sublist (p :: rest) := List.sublist_cons_self p rest
      exact (((hrest.filter _).map _).filter _).map _
    | some a =>
      obtain ⟨hparameter, htakes, hidentifier⟩ :=
        @attributeParameter?_some src limit p (h p List.mem_cons_self) a ha
      rw [List.filterMap_cons_some ha, List.filter_cons_of_pos hparameter, List.map_cons,
        List.map_cons, List.filter_cons_of_pos htakes, List.map_cons, hidentifier]
      exact htail.cons_cons _

end

/-- What a record says of a directive or component as a directive. -/
def Record.directiveInfo? : Record → Option DirectiveInfo
  | .component r => some r.info.directive
  | .directive r => some r.info
  | _ => none

/-- A record says the same of the constructor in both of its parts: the handles are those among the
parameters, in order, and the attributes belong to parameters with the decorator, in their order. -/
def Record.AgreesOnConstructor (r : Record) : Prop :=
  ∃ base info, r.base? = some base ∧ r.directiveInfo? = some info ∧
    info.constructorReferences = base.constructorParameters.filterMap referenceOf? ∧
    (info.constructorAttributes.map AttributeParameter.identifier).Sublist
      ((base.constructorParameters.filter Parameter.takesAttribute).map Parameter.identifier)

section

variable {src : Source} {config : Config} {site : Site} {role : Role}

theorem base?_collectDecorated :
    (collectDecorated src config site role).value.base? =
      some (collectClass src config.limits.maxDepth site).value := by
  cases role <;> rfl

/-- What a directive is given by its constructor, whatever its decorator says. -/
theorem directiveInfo?_collectDecorated (hrole : role = .component ∨ role = .directive) :
    ∃ info, (collectDecorated src config site role).value.directiveInfo? = some info ∧
      info.constructorAttributes =
        (constructorParamNodes src site.node).filterMap (attributeParameter? src) ∧
      info.constructorReferences =
        (constructorParamNodes src site.node).filterMap (referenceParameter? src) := by
  rcases hrole with rfl | rfl
  · exact ⟨_, rfl, rfl, rfl⟩
  · exact ⟨_, rfl, rfl, rfl⟩

end

/-- **The attributes and handles of a directive are those among the parameters of its class**, if
the constructor is plain. -/
theorem constructor_metadata_agrees (src : Source) (config : Config) (site : Site) (role : Role)
    (hrole : role = .component ∨ role = .directive)
    (hgrammar : ∀ p ∈ constructorNodes src site.node, IsGrammatical src p)
    (hplain : HasPlainConstructor src site.node) :
    (collectDecorated src config site role).value.AgreesOnConstructor := by
  have hclass : (collectClass src config.limits.maxDepth site).value.constructorParameters =
      ((constructorNodes src site.node).filter isParameter).map
        fun p => (parameterOf src config.limits.maxDepth p).value :=
    constructorParameters_membersOf hplain
  obtain ⟨info, hinfo, hattributes, hreferences⟩ :=
    @directiveInfo?_collectDecorated src config site role hrole
  refine ⟨_, info, base?_collectDecorated, hinfo, ?_, ?_⟩
  · rw [hreferences, constructorParamNodes_eq hplain, hclass]
    exact filterMap_referenceParameter? hgrammar
  · rw [hattributes, constructorParamNodes_eq hplain, hclass]
    exact map_attributeParameter?_sublist hgrammar

/-- A parameter with an annotation that holds no qualified name. -/
theorem isGrammatical_of_annotated {src : Source} {p a t : Node}
    (hpattern : (p.child? "pattern").isSome = isParameter p) (ha : p.child? "type" = some a)
    (hkind : a.kind = "type_annotation") (ht : a.firstNamedChild? = some t)
    (htype : t.kind ∉ ["identifier", "nested_type_identifier"]) : IsGrammatical src p := by
  simp only [List.mem_cons, List.not_mem_nil, or_false, not_or] at htype
  constructor
  · exact hpattern
  · intro a' ha'
    obtain rfl := Option.some.inj (ha.symm.trans ha')
    exact hkind
  · intro a' t' ha' ht'
    obtain rfl := Option.some.inj (ha.symm.trans ha')
    obtain rfl := Option.some.inj (ht.symm.trans ht')
    exact htype.1
  · intro a' t' ha' ht' hnested
    obtain rfl := Option.some.inj (ha.symm.trans ha')
    obtain rfl := Option.some.inj (ht.symm.trans ht')
    exact absurd hnested htype.2

/-- The source of a directive with
`constructor(@Attribute('x') a: string, b: TemplateRef<T>) {}`. -/
def handleSource : Source :=
  Source.ofText "handle.ts"
    ("@Directive() class A \x7b constructor(@Attribute('x') a: string, " ++
      "b: TemplateRef<T>) \x7b\x7d \x7d")

/-- The parameter `@Attribute('x') a: string`. -/
def attributeNode : Node :=
  .named "required_parameter" none 35 60 [
    .named "decorator" none 35 50 [
      .token "@" 35 36,
      .named "call_expression" none 36 50 [
        .named "identifier" (some "function") 36 45 [],
        .named "arguments" (some "arguments") 45 50 [
          .token "(" 45 46,
          .named "string" none 46 49 [
            .token "\x27" 46 47, .named "string_fragment" none 47 48 [], .token "\x27" 48 49],
          .token ")" 49 50]]],
    .named "identifier" (some "pattern") 51 52 [],
    .named "type_annotation" (some "type") 52 60 [
      .token ":" 52 53, .named "predefined_type" none 54 60 [.token "string" 54 60]]]

/-- The parameter `b: TemplateRef<T>`. -/
def templateNode : Node :=
  .named "required_parameter" none 62 79 [
    .named "identifier" (some "pattern") 62 63 [],
    .named "type_annotation" (some "type") 63 79 [
      .token ":" 63 64,
      .named "generic_type" none 65 79 [
        .named "type_identifier" (some "name") 65 76 [],
        .named "type_arguments" (some "type_arguments") 76 79 [
          .token "<" 76 77, .named "type_identifier" none 77 78 [], .token ">" 78 79]]]]

/-- The constructor with these parameters. -/
def handleConstructor : Node :=
  .named "method_definition" none 23 83 [
    .named "property_identifier" (some "name") 23 34 [],
    .named "formal_parameters" (some "parameters") 34 80 [
      .token "(" 34 35, attributeNode, .token "," 60 61, templateNode, .token ")" 79 80],
    .named "statement_block" (some "body") 81 83 [.token "\x7b" 81 82, .token "\x7d" 82 83]]

/-- The class with this constructor. -/
def handleClass : Node :=
  .named "class_declaration" none 0 85 [
    .named "decorator" none 0 12 [
      .token "@" 0 1,
      .named "call_expression" none 1 12 [
        .named "identifier" (some "function") 1 10 [],
        .named "arguments" (some "arguments") 10 12 [.token "(" 10 11, .token ")" 11 12]]],
    .token "class" 13 18, .named "type_identifier" (some "name") 19 20 [],
    .named "class_body" (some "body") 21 85 [
      .token "\x7b" 21 22, handleConstructor, .token "\x7d" 84 85]]

/-- A directive with an attribute and a handle. -/
theorem constructor_metadata_agrees_directive :
    (collectDecorated handleSource Config.standard { parent := none, node := handleClass }
      .directive).value.AgreesOnConstructor ∧
    constructorNodes handleSource handleClass = [attributeNode, templateNode] ∧
    attributeParameter? handleSource attributeNode =
      some { identifier := "a", attributeName := "x" } ∧
    referenceParameter? handleSource templateNode =
      some { identifier := "b", type := "TemplateRef" } := by
  have hdefinitions : constructorDefinitions handleSource handleClass = [handleConstructor] := by
    rfl
  have hnodes : constructorNodes handleSource handleClass = [attributeNode, templateNode] := by
    rw [constructorNodes, hdefinitions]
    rfl
  refine ⟨?_, hnodes, by rfl, by rfl⟩
  refine constructor_metadata_agrees handleSource Config.standard
    { parent := none, node := handleClass } .directive (.inr rfl) ?_ ⟨?_, ?_, ?_⟩
  · show ∀ p ∈ constructorNodes handleSource handleClass, IsGrammatical handleSource p
    rw [hnodes, List.forall_mem_cons, List.forall_mem_singleton]
    exact ⟨isGrammatical_of_annotated rfl rfl rfl rfl (by decide),
      isGrammatical_of_annotated rfl rfl rfl rfl (by decide)⟩
  · show (constructorDefinitions handleSource handleClass).length ≤ 1
    rw [hdefinitions]
    exact Nat.le_refl 1
  · show ∀ m ∈ constructorDefinitions handleSource handleClass, _
    rw [hdefinitions, List.forall_mem_singleton]
    rfl
  · show ∀ m ∈ constructorDefinitions handleSource handleClass, _
    rw [hdefinitions, List.forall_mem_singleton]
    exact ⟨rfl, rfl⟩

/-- The source `@Component({}) class X { 'constructor'(a: ElementRef) {} }`. -/
def quotedSource : Source :=
  Source.ofText "quoted.ts"
    "@Component(\x7b\x7d) class X \x7b 'constructor'(a: ElementRef) \x7b\x7d \x7d"

/-- The parameter `a: ElementRef`. -/
def elementNode : Node :=
  .named "required_parameter" none 39 52 [
    .named "identifier" (some "pattern") 39 40 [],
    .named "type_annotation" (some "type") 40 52 [
      .token ":" 40 41, .named "type_identifier" none 42 52 []]]

/-- The class with this parameter. -/
def quotedClass : Node :=
  .named "class_declaration" none 0 58 [
    .named "decorator" none 0 14 [
      .token "@" 0 1,
      .named "call_expression" none 1 14 [
        .named "identifier" (some "function") 1 10 [],
        .named "arguments" (some "arguments") 10 14 [
          .token "(" 10 11,
          .named "object" none 11 13 [.token "\x7b" 11 12, .token "\x7d" 12 13],
          .token ")" 13 14]]],
    .token "class" 15 20, .named "type_identifier" (some "name") 21 22 [],
    .named "class_body" (some "body") 23 58 [
      .token "\x7b" 23 24,
      .named "method_definition" none 25 56 [
        .named "string" (some "name") 25 38 [
          .token "\x27" 25 26, .named "string_fragment" none 26 37 [], .token "\x27" 37 38],
        .named "formal_parameters" (some "parameters") 38 53 [
          .token "(" 38 39, elementNode, .token ")" 52 53],
        .named "statement_block" (some "body") 54 56 [.token "\x7b" 54 55, .token "\x7d" 55 56]],
      .token "\x7d" 57 58]]

/-- A constructor whose name is in quotes gives the class a parameter, but the component no handle.
-/
theorem constructor_metadata_may_disagree :
    ¬ ∀ (src : Source) (config : Config) (site : Site) (role : Role),
      role = .component ∨ role = .directive →
      (∀ p ∈ constructorNodes src site.node, IsGrammatical src p) →
      (collectDecorated src config site role).value.AgreesOnConstructor := by
  intro h
  let site : Site := { parent := none, node := quotedClass }
  have hgrammar : ∀ p ∈ constructorNodes quotedSource quotedClass,
      IsGrammatical quotedSource p := by
    have hnodes : constructorNodes quotedSource quotedClass = [elementNode] := by rfl
    rw [hnodes, List.forall_mem_singleton]
    exact isGrammatical_of_annotated rfl rfl rfl rfl (by decide)
  obtain ⟨base, info, hbase, hinfo, hreferences, -⟩ :=
    h quotedSource Config.standard site .component (.inl rfl) hgrammar
  obtain rfl := Option.some.inj hbase
  obtain rfl := Option.some.inj hinfo
  exact absurd (congrArg List.length hreferences) (by decide)

end DeclCatalog
