import DeclCatalog.Collect.Declaration
import DeclCatalog.Proofs.ChildrenBySort
import DeclCatalog.Proofs.ReportRules

/-!
# The members of an interface

An interface body is read child by child, and each child goes to one of three lists or is passed
over. Here the lists are compared with what the syntax of the children says: which part a child
plays can be told from its kind, its `?` and the type it is declared with.

- `SignatureSort`, `signatureSort`: the part that a child plays, one for each child.
- `signatureNode`, `functionFrom`, `propertyFrom`: what is recorded of a child.
- `value_entryOfSignature?`, `filter_log_entryOfSignature?`: the step lemmas, what one child gives
  and what is said of it, by the part it plays.
- `filterMap_entries_eq`, `filter_log_collectInterface`: the same for the whole body.
- `interface_keeps_every_member`: **every child of an interface body goes to the list of its part,
  or is reported once**.
- `fiveSignatures`: an interface with a child of each part.
-/

namespace DeclCatalog

open Logged

/-! ## The parts that children play -/

/-- The part that a child of an interface body plays. -/
inductive SignatureSort where
  | property
  | optionalProperty
  | function
  /-- None that is recorded. -/
  | other
  deriving DecidableEq

/-- The part of a child, told from its kind, the type it is declared with and its `?`. -/
def signatureSort (member : Node) : SignatureSort :=
  if member.kind = "method_signature" then .function
  else if member.kind = "property_signature" then
    if (functionType? member).isSome then .function
    else if member.hasToken "?" then .optionalProperty
    else .property
  else .other

/-- Where the parameters and the result of a function are written: in the type of a property, and in
a method itself. -/
def signatureNode (member : Node) : Node :=
  if member.kind = "property_signature" then (functionType? member).getD member else member

section

variable (src : Source) (limit : Nat) (member : Node)

/-- What is recorded of a function. -/
def functionFrom : InterfaceFunction where
  name := memberName src member
  parameters := (parametersOf src limit (signatureNode member)).value
  returnType := (typeIn src limit (signatureNode member) "return_type").value
  optional := member.hasToken "?"

/-- What is recorded of a property that is no function. -/
def propertyFrom : InterfaceProperty where
  name := memberName src member
  type := (typeIn src limit member "type").value
  readonly := member.hasToken "readonly"

/-- What a child of an interface body gives, by the part it plays. -/
def entryOfSort? : SignatureSort → Option InterfaceEntry
  | .property => some (.property (propertyFrom src limit member))
  | .optionalProperty => some (.optionalProperty (propertyFrom src limit member))
  | .function => some (.function (functionFrom src limit member))
  | .other => none

/-- That a child of an interface body is passed over. -/
def signatureReport : Diagnostic :=
  Diagnostic.ofRule .skippedMember (src.location member)
    ("interface member `" ++ member.kind ++ "` is not recorded")

end

/-- A property is a function when what it is declared with begins with a function type. -/
theorem functionType?_eq_some_iff {member type : Node} :
    functionType? member = some type ↔
      ∃ declared, member.child? "type" = some declared ∧
        declared.firstNamedChild? = some type ∧ type.kind = "function_type" := by
  simp only [functionType?, Option.filter_eq_some_iff, Option.bind_eq_some_iff, beq_iff_eq]
  constructor
  · rintro ⟨⟨declared, hdeclared, htype⟩, hkind⟩
    exact ⟨declared, hdeclared, htype, hkind⟩
  · rintro ⟨declared, hdeclared, htype, hkind⟩
    exact ⟨⟨declared, hdeclared, htype⟩, hkind⟩

/-! ## One child -/

section

variable {src : Source} {limit : Nat} {member : Node}

theorem value_interfaceFunction (h : member.kind = "method_signature") :
    (interfaceFunction src limit member member).value = functionFrom src limit member := by
  have hnode : signatureNode member = member := by
    rw [signatureNode, if_neg (by rw [h]; decide)]
  rw [functionFrom, hnode]
  rfl

theorem signatureSort_of_property (h : member.kind = "property_signature") :
    signatureSort member =
      if (functionType? member).isSome then .function
      else if member.hasToken "?" then .optionalProperty
      else .property := by
  rw [signatureSort, if_neg (by rw [h]; decide), if_pos h]

theorem value_propertyEntry (h : member.kind = "property_signature") :
    some (propertyEntry src limit member).value =
      entryOfSort? src limit member (signatureSort member) := by
  rw [signatureSort_of_property h]
  unfold propertyEntry
  cases hfunction : functionType? member with
  | some signature =>
    have hnode : signatureNode member = signature := by
      rw [signatureNode, if_pos h, hfunction, Option.getD_some]
    show some (InterfaceEntry.function (interfaceFunction src limit member signature).value) =
      some (InterfaceEntry.function (functionFrom src limit member))
    rw [functionFrom, hnode]
    rfl
  | none =>
    show some (if member.hasToken "?" then InterfaceEntry.optionalProperty _ else .property _) =
      entryOfSort? src limit member (if member.hasToken "?" then .optionalProperty else .property)
    cases member.hasToken "?" <;> rfl

theorem signatureSort_of_method (h : member.kind = "method_signature") :
    signatureSort member = .function := by
  rw [signatureSort, if_pos h]

theorem signatureSort_of_other (hproperty : member.kind ≠ "property_signature")
    (hmethod : member.kind ≠ "method_signature") : signatureSort member = .other := by
  rw [signatureSort, if_neg hmethod, if_neg hproperty]

theorem entryOfSignature?_of_property (h : member.kind = "property_signature") :
    entryOfSignature? src limit member = some <$> propertyEntry src limit member := by
  simp only [entryOfSignature?, h]

theorem entryOfSignature?_of_method (h : member.kind = "method_signature") :
    entryOfSignature? src limit member =
      (some ∘ InterfaceEntry.function) <$> interfaceFunction src limit member member := by
  simp only [entryOfSignature?, h]

theorem entryOfSignature?_of_other (hproperty : member.kind ≠ "property_signature")
    (hmethod : member.kind ≠ "method_signature") :
    entryOfSignature? src limit member = (do
      src.report .skippedMember member ("interface member `" ++ member.kind ++ "` is not recorded")
      pure none) := by
  unfold entryOfSignature?
  split
  · exact absurd ‹_› hproperty
  · exact absurd ‹_› hmethod
  · rfl

/-- What a child gives is decided by the part it plays. -/
theorem value_entryOfSignature? :
    (entryOfSignature? src limit member).value =
      entryOfSort? src limit member (signatureSort member) := by
  by_cases hproperty : member.kind = "property_signature"
  · rw [entryOfSignature?_of_property hproperty, value_map]
    exact value_propertyEntry hproperty
  by_cases hmethod : member.kind = "method_signature"
  · rw [entryOfSignature?_of_method hmethod, value_map, Function.comp_apply,
      value_interfaceFunction hmethod, signatureSort_of_method hmethod]
    rfl
  · rw [entryOfSignature?_of_other hproperty hmethod, signatureSort_of_other hproperty hmethod]
    rfl

theorem raisesOnly_interfaceFunction (signature : Node) :
    (interfaceFunction src limit member signature).RaisesOnly resolverRules :=
  (raisesOnly_parametersOf signature).bind
    ((raisesOnly_typeIn signature "return_type").bind raisesOnly_pure)

theorem raisesOnly_propertyEntry :
    (propertyEntry src limit member).RaisesOnly resolverRules := by
  unfold propertyEntry
  split
  · exact (raisesOnly_interfaceFunction _).map _
  · exact (raisesOnly_typeIn member "type").bind raisesOnly_pure

/-- That a child is passed over is said of those that play no part, and of no others. -/
theorem filter_log_entryOfSignature? :
    ((entryOfSignature? src limit member).log.filter fun d => d.rule = .skippedMember) =
      if signatureSort member = .other then [signatureReport src member] else [] := by
  have hrule : Rule.skippedMember ∉ resolverRules := by decide
  by_cases hproperty : member.kind = "property_signature"
  · have hsort : signatureSort member ≠ .other := by
      rw [signatureSort_of_property hproperty]
      split_ifs <;> decide
    rw [if_neg hsort, entryOfSignature?_of_property hproperty]
    exact (raisesOnly_propertyEntry.map _).filter_eq_nil hrule
  by_cases hmethod : member.kind = "method_signature"
  · rw [signatureSort_of_method hmethod, if_neg (by decide), entryOfSignature?_of_method hmethod]
    exact ((raisesOnly_interfaceFunction member).map _).filter_eq_nil hrule
  · rw [signatureSort_of_other hproperty hmethod, if_pos rfl,
      entryOfSignature?_of_other hproperty hmethod]
    rfl

end

/-! ## The whole body -/

section

variable {src : Source} {limit : Nat}

theorem bind_property?_entryOfSort? (member : Node) (s : SignatureSort) :
    (entryOfSort? src limit member s).bind InterfaceEntry.property? =
      if s = .property then some (propertyFrom src limit member) else none := by
  cases s <;> rfl

theorem bind_optionalProperty?_entryOfSort? (member : Node) (s : SignatureSort) :
    (entryOfSort? src limit member s).bind InterfaceEntry.optionalProperty? =
      if s = .optionalProperty then some (propertyFrom src limit member) else none := by
  cases s <;> rfl

theorem bind_function?_entryOfSort? (member : Node) (s : SignatureSort) :
    (entryOfSort? src limit member s).bind InterfaceEntry.function? =
      if s = .function then some (functionFrom src limit member) else none := by
  cases s <;> rfl

/-- The entries of one kind are those of the children that play one part. -/
theorem filterMap_entries_eq {β : Type} {part? : InterfaceEntry → Option β} {sort : SignatureSort}
    {given : Node → β}
    (h : ∀ member s, (entryOfSort? src limit member s).bind part? =
      if s = sort then some (given member) else none) (members : List Node) :
    ((Logged.traverse (entryOfSignature? src limit) members).value.filterMap id).filterMap part? =
      (members.filter fun member => signatureSort member = sort).map given := by
  rw [value_traverse, List.filterMap_map]
  simp only [Function.comp_def, id, value_entryOfSignature?]
  exact filterMap_parts_eq h members

/-- That a child is passed over is said of the children that play no part, once and in order. -/
theorem filter_log_collectInterface (n : Node) :
    ((collectInterface src limit n).log.filter fun d => d.rule = .skippedMember) =
      ((n.childrenIn "body").filter fun member => signatureSort member = .other).map
        (signatureReport src) := by
  have hrule : Rule.skippedMember ∉ resolverRules := by decide
  have hsupertypes : (Logged.traverse (typeOf src limit)
      ((n.childrenOfKind "extends_type_clause").flatMap Node.namedChildren)).RaisesOnly
        resolverRules :=
    raisesOnly_traverse (raisesOnly_resolveType (limit + 1)) _
  unfold collectInterface
  simp only [log_bind, log_pure, List.append_nil, List.filter_append]
  rw [hsupertypes.filter_eq_nil hrule, List.nil_append, log_traverse]
  exact filter_flatMap_parts_eq (fun _ => filter_log_entryOfSignature?) (n.childrenIn "body")

end

/-- Every child plays one of the four parts. -/
theorem length_eq_sum_of_sorts (members : List Node) :
    let countOf := fun sort => (members.filter fun member => signatureSort member = sort).length
    countOf .property + countOf .optionalProperty + countOf .function + countOf .other =
      members.length := by
  intro countOf
  simp only [countOf, ← List.countP_eq_length_filter]
  induction members with
  | nil => rfl
  | cons member members ih =>
    simp only [List.countP_cons, List.length_cons]
    cases signatureSort member <;> simp <;> omega

/-- **Every child of an interface body goes to the list of its part, or is reported once.** A
method, or a property whose annotation begins with a function type, is one of the functions. Its `?`
makes it optional, and its parameters and result are read from that function type, or from the
method. Any other property is one of the optional properties if it has a `?`, and one of the
properties if not. That a member is passed over is reported of every other child, once, and of
nothing else. Every list is in source order, so together they have as many entries as the body has
children. -/
theorem interface_keeps_every_member (src : Source) (limit : Nat) (n : Node) :
    let record := (collectInterface src limit n).value
    let reports := (collectInterface src limit n).log.filter fun d => d.rule = .skippedMember
    let members := n.childrenIn "body"
    let ofSort := fun sort => members.filter fun member => signatureSort member = sort
    record.properties = (ofSort .property).map (propertyFrom src limit) ∧
    record.optionalProperties = (ofSort .optionalProperty).map (propertyFrom src limit) ∧
    record.functions = (ofSort .function).map (functionFrom src limit) ∧
    reports = (ofSort .other).map (signatureReport src) ∧
    (∀ member type, functionType? member = some type ↔
      ∃ declared, member.child? "type" = some declared ∧
        declared.firstNamedChild? = some type ∧ type.kind = "function_type") ∧
    record.properties.length + record.optionalProperties.length + record.functions.length +
      reports.length = members.length := by
  intro record reports members ofSort
  have hproperties : record.properties = (ofSort .property).map (propertyFrom src limit) :=
    filterMap_entries_eq bind_property?_entryOfSort? members
  have hoptional :
      record.optionalProperties = (ofSort .optionalProperty).map (propertyFrom src limit) :=
    filterMap_entries_eq bind_optionalProperty?_entryOfSort? members
  have hfunctions : record.functions = (ofSort .function).map (functionFrom src limit) :=
    filterMap_entries_eq bind_function?_entryOfSort? members
  have hreports : reports = (ofSort .other).map (signatureReport src) :=
    filter_log_collectInterface n
  refine ⟨hproperties, hoptional, hfunctions, hreports, fun _ _ => functionType?_eq_some_iff, ?_⟩
  rw [hproperties, hoptional, hfunctions, hreports]
  simp only [List.length_map]
  exact length_eq_sum_of_sorts members

/-- The source of an interface with two properties, a function in each of two spellings, and an
index signature. -/
def fiveSignaturesSource : Source :=
  .ofText "signatures.ts"
    "interface I \x7b readonly x: A; y?: (a) => B; 'm'(b): C; z?: D; [k: string]: E \x7d"

/-- An annotation `: T` with a type name. -/
def namedAnnotation (field : String) (start stop : Nat) : Node :=
  .named "type_annotation" (some field) start stop [
    .token ":" start (start + 1), .named "type_identifier" none (start + 2) stop []]

/-- The property `y?: (a) => B`. -/
def functionSignature : Node :=
  .named "property_signature" none 29 41 [
    .named "property_identifier" (some "name") 29 30 [], .token "?" 30 31,
    .named "type_annotation" (some "type") 31 41 [
      .token ":" 31 32,
      .named "function_type" none 33 41 [
        .oneParameter 33 36, .token "=>" 37 39,
        .named "type_identifier" (some "return_type") 40 41 []]]]

/-- The method `'m'(b): C`. -/
def quotedSignature : Node :=
  .named "method_signature" none 43 52 [
    .named "string" (some "name") 43 46 [
      .token "\x27" 43 44, .named "string_fragment" none 44 45 [], .token "\x27" 45 46],
    .oneParameter 46 49, namedAnnotation "return_type" 49 52]

/-- The interface with these members. -/
def fiveSignatures : Node :=
  .named "interface_declaration" none 0 77 [
    .token "interface" 0 9, .named "type_identifier" (some "name") 10 11 [],
    .named "interface_body" (some "body") 12 77 [
      .token "\x7b" 12 13,
      .named "property_signature" none 14 27 [
        .token "readonly" 14 22, .named "property_identifier" (some "name") 23 24 [],
        namedAnnotation "type" 24 27],
      .token ";" 27 28, functionSignature, .token ";" 41 42, quotedSignature, .token ";" 52 53,
      .named "property_signature" none 54 59 [
        .named "property_identifier" (some "name") 54 55 [], .token "?" 55 56,
        namedAnnotation "type" 56 59],
      .token ";" 59 60, .named "index_signature" none 61 75 [], .token "\x7d" 76 77]]

/-- The functions of this interface. -/
def fiveSignaturesFunctions : List InterfaceFunction :=
  [{ name := "y"
     parameters := [{ identifier := "a", type := none, optional := false, decorators := [] }]
     returnType := some (.identifier "B"), optional := true },
   { name := "m"
     parameters := [{ identifier := "b", type := none, optional := false, decorators := [] }]
     returnType := some (.identifier "C"), optional := false }]

/-- A property with a function type is a function like the method, whose name loses its quotes, and
only the index signature is passed over. -/
theorem interface_keeps_every_member_fiveSignatures :
    let record := (collectInterface fiveSignaturesSource 8 fiveSignatures).value
    let log := (collectInterface fiveSignaturesSource 8 fiveSignatures).log
    record.properties = [{ name := "x", type := some (.identifier "A"), readonly := true }] ∧
    record.optionalProperties =
      [{ name := "z", type := some (.identifier "D"), readonly := false }] ∧
    record.functions = fiveSignaturesFunctions ∧
    log.map (fun d => (d.rule, d.location.offset, d.location.length)) =
      [(.skippedMember, 61, 14)] ∧
    (log.filter fun d => d.rule = .skippedMember).length = 1 := by
  intro record log
  have hproperties : record.properties =
      [{ name := "x", type := some (.identifier "A"), readonly := true }] := by
    decide +kernel
  have hoptional : record.optionalProperties =
      [{ name := "z", type := some (.identifier "D"), readonly := false }] := by
    decide +kernel
  have hfunctions : record.functions = fiveSignaturesFunctions := by
    decide +kernel
  refine ⟨hproperties, hoptional, hfunctions, by decide +kernel, ?_⟩
  obtain ⟨-, -, -, -, -, hlength⟩ :=
    interface_keeps_every_member fiveSignaturesSource 8 fiveSignatures
  have hmembers : (fiveSignatures.childrenIn "body").length = 5 := by
    decide +kernel
  rw [hmembers] at hlength
  change record.properties.length + record.optionalProperties.length + record.functions.length +
    (log.filter fun d => d.rule = .skippedMember).length = 5 at hlength
  rw [hproperties, hoptional, hfunctions] at hlength
  exact Nat.add_left_cancel hlength

end DeclCatalog
