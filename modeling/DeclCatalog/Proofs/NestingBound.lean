import DeclCatalog.Proofs.ExtractedRecords
import DeclCatalog.Proofs.SentinelReports

/-!
# How deep an extracted catalog nests

The nesting limit bounds how deep the written form of a catalog nests, however deep the trees are. A
level of a type is two levels of the written form, an object and the list of its arguments; a level
of a value is at most four.

- `nesting_resolveType_le`, `nesting_resolveValue_le`: the written form of a term that was resolved
  within some levels.
- `ValueTerm.IsShallow`: what these give for a term of a member. What a class extends may nest two
  levels deeper than a type.
- `nesting_toJson_le` of each part, `nesting_toJson?_le` of each declaration,
  `nestingFields_collectClass_le`: from the terms of a part to its written form.
- `nesting_toJson?_visit_le`: the written form of a record.
- `extracted_catalog_nesting_le`: **the bound of a catalog**, and the limits under which the text of
  a catalog is read back whatever it was extracted from.
- `extracted_catalog_may_have_no_text`: under any limit there is no text where a path is none.
-/

namespace DeclCatalog

/-! ## Nesting of written fields -/

namespace Json

variable {α : Type} {write : α → Json} {b : Nat}

@[simp] theorem nestingFields_field (name : String) (value : Json) :
    nestingFields (field name value) = value.nesting :=
  Nat.max_zero value.nesting

@[simp] theorem nestingFields_flag (name : String) (value : Bool) :
    nestingFields (flag name value) = 0 := by
  cases value <;> rfl

theorem nesting_arr_map_le {items : List α} (h : ∀ a ∈ items, (write a).nesting ≤ b) :
    (arr (items.map write)).nesting ≤ b + 1 :=
  Nat.succ_le_succ (nestingItems_le_iff.2 (List.forall_mem_map.2 h))

theorem nestingFields_fieldOf?_le (name : String) {value : Option α}
    (h : ∀ a ∈ value, (write a).nesting ≤ b) :
    nestingFields (fieldOf? name write value) ≤ b := by
  cases value with
  | none => exact Nat.zero_le b
  | some a =>
    show nestingFields (field name (write a)) ≤ b
    rw [nestingFields_field]
    exact h a rfl

theorem nestingFields_fieldOfList_le (name : String) {items : List α}
    (h : ∀ a ∈ items, (write a).nesting ≤ b) :
    nestingFields (fieldOfList name write items) ≤ b + 1 := by
  cases items with
  | nil => exact Nat.zero_le (b + 1)
  | cons a items =>
    show nestingFields (field name (arr ((a :: items).map write))) ≤ b + 1
    rw [nestingFields_field]
    exact nesting_arr_map_le h

theorem nestingFields_ofTexts_le (name : String) (texts : List String) :
    nestingFields (ofTexts name texts) ≤ 1 :=
  nestingFields_fieldOfList_le name fun _ _ => Nat.le_refl 0

theorem nestingFields_ofTexts?_le (name : String) (texts : Option (List String)) :
    nestingFields (ofTexts? name texts) ≤ 1 :=
  nestingFields_fieldOf?_le name fun _ _ => nesting_arr_map_le fun _ _ => Nat.le_refl 0

/-- An object that is written when a path has a text nests one level deeper than its fields. -/
theorem nesting_obj_le {path? : Option String} {fieldsAt : String → List (String × Json)}
    (h : ∀ path, nestingFields (fieldsAt path) ≤ b) :
    ∀ j ∈ path?.map fun path => obj (fieldsAt path), j.nesting ≤ b + 1 := by
  intro j hj
  obtain ⟨path, -, rfl⟩ := Option.map_eq_some_iff.1 hj
  exact Nat.succ_le_succ (h path)

/-- A field that holds a scalar, if it is set. -/
theorem nestingFields_scalar? (name : String) (value : Option α)
    (h : ∀ a, (write a).nesting = 0) : nestingFields (fieldOf? name write value) = 0 :=
  Nat.le_zero.1 (nestingFields_fieldOf?_le name fun a _ => Nat.le_of_eq (h a))

@[simp] theorem nestingFields_str? (name : String) (value : Option String) :
    nestingFields (fieldOf? name str value) = 0 :=
  nestingFields_scalar? name value fun _ => rfl

@[simp] theorem nestingFields_bool? (name : String) (value : Option Bool) :
    nestingFields (fieldOf? name bool value) = 0 :=
  nestingFields_scalar? name value fun _ => rfl

end Json

open Json

/-! ## Terms -/

theorem Literal.nesting_toJson (l : Literal) : l.toJson.nesting = 0 := by
  cases l <;> rfl

namespace TypeTerm

theorem nesting_toJson_of_args?_eq_none {t : TypeTerm} (h : t.args? = none) :
    t.toJson.nesting = 1 := by
  obtain ⟨kind, args, literal⟩ := t
  obtain rfl : args = none := h
  have hliteral := nestingFields_scalar? "literal" literal Literal.nesting_toJson
  rw [toJson, nesting, nestingFields_append, hliteral]
  rfl

theorem nesting_toJson_composite_le {kind : Kind} {args : List TypeTerm} {b : Nat}
    (h : ∀ t ∈ args, t.toJson.nesting ≤ b) :
    (composite kind args).toJson.nesting ≤ b + 2 := by
  have hargs : (arr (args.map toJson)).nesting ≤ b + 1 := nesting_arr_map_le h
  have hkind : kind.toJson.nesting = 0 := rfl
  have hliteral := nestingFields_scalar? "literal" none Literal.nesting_toJson
  rw [composite, toJson, toJsonList_eq_map, nesting, nestingFields_append, nestingFields_append,
    nestingFields_field, nestingFields_field, hkind, hliteral]
  omega

end TypeTerm

namespace ValueTerm

variable {b : Nat}

theorem nesting_toJson_plain (t : TypeTerm) : (plain t).toJson.nesting = t.toJson.nesting + 1 := by
  rw [toJson, nesting, nestingFields_field]

theorem nesting_toJson_group_le {kind : Kind} {members : List Member}
    (hkeys : ∀ m ∈ members, ∀ key ∈ m.1, key.toJson.nesting ≤ b)
    (hvalues : ∀ m ∈ members, m.2.toJson.nesting ≤ b) :
    (group kind members).toJson.nesting ≤ b + 4 := by
  have hkind : kind.toJson.nesting = 0 := rfl
  have hmembers : (arr (members.map fun m => obj (memberFields m))).nesting ≤ b + 2 := by
    refine nesting_arr_map_le fun m hm => ?_
    have hkey := nestingFields_fieldOf?_le "key" (hkeys m hm)
    have hvalue := hvalues m hm
    rw [nesting, memberFields, nestingFields_append, nestingFields_field]
    omega
  rw [toJson_group, nesting, nestingFields_field, nesting, groupFields, nestingFields_append,
    nestingFields_field, nestingFields_field, hkind]
  omega

theorem nesting_toJson_call_le {callee : ValueTerm} {args : List ValueTerm}
    (hcallee : callee.toJson.nesting ≤ b) (hargs : ∀ v ∈ args, v.toJson.nesting ≤ b) :
    (call callee args).toJson.nesting ≤ b + 3 := by
  have hlist := nesting_arr_map_le hargs
  rw [toJson_call, nesting, nestingFields_field, nesting, callFields, nestingFields_append,
    nestingFields_field, nestingFields_field]
  omega

theorem nesting_toJson_construct_le {target : TypeTerm} {typeArgs : List TypeTerm}
    {args : List ValueTerm} (htarget : target.toJson.nesting ≤ b)
    (htypeArgs : ∀ t ∈ typeArgs, t.toJson.nesting ≤ b)
    (hargs : ∀ v ∈ args, v.toJson.nesting ≤ b) :
    (construct target typeArgs args).toJson.nesting ≤ b + 3 := by
  have hlist := nesting_arr_map_le hargs
  have htypes := nestingFields_fieldOfList_le "typeArgs" htypeArgs
  rw [toJson_construct, nesting, nestingFields_field, nesting, constructFields,
    nestingFields_append, nestingFields_append, nestingFields_field, nestingFields_field]
  omega

end ValueTerm

/-! ## Resolved terms -/

section

variable (src : Source) (limit : Nat)

/-- A level of a type is an object and a list. -/
theorem nesting_resolveType_le (levels : Nat) (n : Node) :
    (resolveType src limit levels n).value.toJson.nesting ≤ 2 * levels + 1 := by
  induction levels generalizing n with
  | zero => exact Nat.le_of_eq (TypeTerm.nesting_toJson_of_args?_eq_none rfl)
  | succ levels ih =>
    have hleaf : ∀ t : TypeTerm, t.args? = none → t.toJson.nesting ≤ 2 * (levels + 1) + 1 := by
      intro t ht
      rw [TypeTerm.nesting_toJson_of_args?_eq_none ht]
      omega
    rw [resolveType]
    cases typeForm src (bareType n) with
    | leaf kind => exact hleaf _ rfl
    | literal raw => exact hleaf _ rfl
    | composite kind parts =>
      have hargs : ∀ t ∈ (Logged.traverse (resolveType src limit levels) parts).value,
          t.toJson.nesting ≤ 2 * levels + 1 :=
        Logged.forall_mem_traverse ih parts
      have hle := @TypeTerm.nesting_toJson_composite_le kind _ _ hargs
      exact Nat.le_trans hle (by omega)
    | unrecognized => exact hleaf _ rfl

theorem args?_constructTarget (n : Node) : (constructTarget src n).args? = none := by
  unfold constructTarget
  split
  · split <;> rfl
  · rfl

/-- A level of a value is at most two objects, a list and an object in it. -/
theorem nesting_resolveValue_le (levels : Nat) (n : Node) :
    (resolveValue src limit levels n).value.toJson.nesting ≤ 4 * levels + 2 := by
  have hplain : ∀ t : TypeTerm, t.args? = none → (ValueTerm.plain t).toJson.nesting = 2 := by
    intro t ht
    rw [ValueTerm.nesting_toJson_plain, TypeTerm.nesting_toJson_of_args?_eq_none ht]
  induction levels generalizing n with
  | zero => exact Nat.le_of_eq (hplain _ rfl)
  | succ levels ih =>
    have hargs : ∀ ns : List Node, ∀ v ∈ (Logged.traverse (resolveValue src limit levels) ns).value,
        v.toJson.nesting ≤ 4 * levels + 2 :=
      Logged.forall_mem_traverse ih
    rw [resolveValue, Logged.value_bind]
    -- a group adds four levels to those of its members, a call or a construction only three
    cases hform : (valueForm src n).value with
    | term t =>
      have hle := hplain t (plain_of_valueForm hform).1
      exact Nat.le_trans (Nat.le_of_eq hle) (by omega)
    | access operand name =>
      have hle : (ValueTerm.access operand name).toJson.nesting = 2 := rfl
      exact Nat.le_trans (Nat.le_of_eq hle) (by omega)
    | array elements =>
      refine ValueTerm.nesting_toJson_group_le (b := 4 * levels + 2) ?_ ?_
      · refine Logged.forall_mem_traverse ?_ elements
        rintro m _ ⟨⟩
      · exact Logged.forall_mem_traverse ih elements
    | object pairs =>
      refine ValueTerm.nesting_toJson_group_le (b := 4 * levels + 2) ?_ ?_
      · refine Logged.forall_mem_traverse ?_ pairs
        rintro ⟨key, m⟩ _ ⟨⟩
        rw [TypeTerm.nesting_toJson_of_args?_eq_none rfl]
        omega
      · refine Logged.forall_mem_traverse ?_ pairs
        rintro ⟨key, m⟩
        exact ih m
    | call callee args =>
      have hcallee : ((Logged.traverse? (resolveValue src limit levels) callee).value.getD
          (ValueTerm.unknown n.kind)).toJson.nesting ≤ 4 * levels + 2 := by
        rw [Logged.value_traverse?]
        cases callee with
        | none => exact Nat.le_trans (Nat.le_of_eq (hplain _ rfl)) (by omega)
        | some f => exact ih f
      exact Nat.le_trans (ValueTerm.nesting_toJson_call_le hcallee (hargs args)) (by omega)
    | construct target typeArgs args =>
      obtain ⟨-, rfl⟩ := eq_constructTarget_of_valueForm_eq_construct hform
      have htarget : (constructTarget src n).toJson.nesting ≤ 4 * levels + 2 := by
        rw [TypeTerm.nesting_toJson_of_args?_eq_none (args?_constructTarget src n)]
        omega
      have htypeArgs : ∀ t ∈ (Logged.traverse (resolveType src limit levels) typeArgs).value,
          t.toJson.nesting ≤ 4 * levels + 2 := by
        refine Logged.forall_mem_traverse (fun m => ?_) typeArgs
        exact Nat.le_trans (nesting_resolveType_le src limit levels m) (by omega)
      have hle := ValueTerm.nesting_toJson_construct_le htarget htypeArgs (hargs args)
      exact Nat.le_trans hle (by omega)
    | unrecognized => exact Nat.le_trans (Nat.le_of_eq (hplain _ rfl)) (by omega)

/-- A value that resolves to a plain term resolves to one without arguments. -/
theorem args?_of_resolveValue_eq_plain {levels : Nat} {n : Node} {t : TypeTerm}
    (h : (resolveValue src limit levels n).value = .plain t) : t.args? = none := by
  cases levels with
  | zero =>
    cases h
    rfl
  | succ levels =>
    rw [resolveValue, Logged.value_bind] at h
    cases hform : (valueForm src n).value with
    | term t' =>
      rw [hform] at h
      cases h
      exact (plain_of_valueForm hform).1
    | unrecognized =>
      rw [hform] at h
      cases h
      rfl
    | _ =>
      rw [hform] at h
      cases h

end

/-! ## Terms of members -/

/-- A value whose written form nests no deeper than a value that was resolved under a limit does; a
plain one no deeper than a type. -/
def ValueTerm.IsShallow (limit : Nat) (v : ValueTerm) : Prop :=
  v.toJson.nesting ≤ 4 * limit + 6 ∧ ∀ t, v = .plain t → t.toJson.nesting ≤ 2 * limit + 3

/-- Whether every term of a list is shallow. -/
def AreShallow (limit : Nat) (terms : List ValueTerm) : Prop :=
  ∀ v ∈ terms, v.IsShallow limit

section

variable {src : Source} {limit : Nat}

theorem Resolved.isShallow {n : Node} {log : List Diagnostic} {v : ValueTerm}
    (h : Resolved src limit n log v) : v.IsShallow limit := by
  cases h with
  | @type m _ _ =>
    have htype := nesting_resolveType_le src limit (limit + 1) m
    refine ⟨?_, ?_⟩
    · rw [ValueTerm.nesting_toJson_plain]
      exact Nat.le_trans (Nat.succ_le_succ htype) (by omega)
    · rintro _ ⟨⟩
      exact htype
  | @value m _ _ =>
    refine ⟨nesting_resolveValue_le src limit (limit + 1) m, fun t ht => ?_⟩
    rw [TypeTerm.nesting_toJson_of_args?_eq_none (args?_of_resolveValue_eq_plain src limit ht)]
    omega

theorem AllResolved.areShallow {n : Node} {log : List Diagnostic} {terms : List ValueTerm}
    (h : AllResolved src limit n log terms) : AreShallow limit terms :=
  fun v hv => (h v hv).isShallow

theorem areShallow_append {vs ws : List ValueTerm} :
    AreShallow limit (vs ++ ws) ↔ AreShallow limit vs ∧ AreShallow limit ws :=
  List.forall_mem_append

theorem areShallow_flatMap {α : Type} {terms : α → List ValueTerm} {items : List α} :
    AreShallow limit (items.flatMap terms) ↔ ∀ a ∈ items, AreShallow limit (terms a) :=
  List.forall_mem_flatMap

/-- What a class extends nests at most an object and a list deeper than a type. -/
theorem nesting_extendsTarget_le {clause : Node} {target : TypeTerm}
    (h : (extendsTarget src limit clause).value = some target) :
    target.toJson.nesting ≤ 2 * limit + 5 := by
  unfold extendsTarget at h
  split at h
  · cases h
  · have hargs : ∀ t ∈ (Logged.traverse (typeOf src limit)
        (clause.childrenIn "type_arguments")).value, t.toJson.nesting ≤ 2 * limit + 3 :=
      Logged.forall_mem_traverse (nesting_resolveType_le src limit (limit + 1)) _
    obtain rfl := Option.some.inj h
    split
    · rw [TypeTerm.nesting_toJson_of_args?_eq_none rfl]
      omega
    · exact TypeTerm.nesting_toJson_composite_le hargs

/-- Every term of a record nests no deeper than a value that was resolved. -/
theorem Collected.nesting_toJson_le {v : ValueTerm} (h : Collected src limit v) :
    v.toJson.nesting ≤ 4 * limit + 6 := by
  cases h with
  | type n =>
    rw [ValueTerm.nesting_toJson_plain]
    exact Nat.le_trans (Nat.succ_le_succ (nesting_resolveType_le src limit (limit + 1) n))
      (by omega)
  | value n => exact nesting_resolveValue_le src limit (limit + 1) n
  | superclass htarget =>
    rw [ValueTerm.nesting_toJson_plain]
    exact Nat.le_trans (Nat.succ_le_succ (nesting_extendsTarget_le htarget)) (by omega)
  | untyped =>
    rw [ValueTerm.nesting_toJson_plain, TypeTerm.nesting_toJson_of_args?_eq_none rfl]
    omega

end

/-! ## Written members -/

section

variable {limit : Nat}

theorem nestingFields_type_le (name : String) {type : Option TypeTerm}
    (h : AreShallow limit (termsOfType type)) :
    nestingFields (fieldOf? name TypeTerm.toJson type) ≤ 2 * limit + 3 :=
  nestingFields_fieldOf?_le name fun t ht =>
    (h _ (List.mem_map_of_mem (Option.mem_toList.2 ht))).2 t rfl

theorem nestingFields_value_le {b : Nat} (name : String) {value : Option ValueTerm}
    (h : ∀ v ∈ value.toList, v.toJson.nesting ≤ b) :
    nestingFields (fieldOf? name ValueTerm.toJson value) ≤ b :=
  nestingFields_fieldOf?_le name fun v hv => h v (Option.mem_toList.2 hv)

/-- A list of parts, from what their terms give for each. -/
theorem nestingFields_parts_le {α : Type} {write : α → Json} {terms : α → List ValueTerm} {b : Nat}
    (hpart : ∀ a, AreShallow limit (terms a) → (write a).nesting ≤ b) (name : String)
    {items : List α} (h : AreShallow limit (items.flatMap terms)) :
    nestingFields (fieldOfList name write items) ≤ b + 1 :=
  nestingFields_fieldOfList_le name fun a ha => hpart a (areShallow_flatMap.1 h a ha)

theorem Parameter.nesting_toJson_le (p : Parameter) (h : AreShallow limit p.terms) :
    p.toJson.nesting ≤ 2 * limit + 4 := by
  have htype := nestingFields_type_le "type" h
  have hdecorators := nestingFields_ofTexts_le "decorators" p.decorators
  simp only [toJson, nesting, nestingFields_append, nestingFields_field, nestingFields_flag]
  omega

theorem Property.nesting_toJson_le (p : Property) (h : AreShallow limit p.terms) :
    p.toJson.nesting ≤ 4 * limit + 7 := by
  obtain ⟨htypes, hvalues⟩ := areShallow_append.1 h
  have htype := nestingFields_type_le "type" htypes
  have hinitializer := nestingFields_value_le "initializer" fun v hv => (hvalues v hv).1
  have hdecorators := nestingFields_ofTexts_le "decorators" p.decorators
  simp only [toJson, nesting, nestingFields_append, nestingFields_field, nestingFields_flag]
  omega

theorem Method.nesting_toJson_le (m : Method) (h : AreShallow limit m.terms) :
    m.toJson.nesting ≤ 2 * limit + 6 := by
  obtain ⟨hps, htypes⟩ := areShallow_append.1 h
  have hparameters := nestingFields_parts_le Parameter.nesting_toJson_le "parameters" hps
  have hreturn := nestingFields_type_le "returnType" htypes
  have hdecorators := nestingFields_ofTexts_le "decorators" m.decorators
  simp only [toJson, nesting, nestingFields_append, nestingFields_field, nestingFields_flag]
  omega

theorem Accessor.nesting_toJson_le (a : Accessor) (h : AreShallow limit a.terms) :
    a.toJson.nesting ≤ 2 * limit + 4 := by
  have htype := nestingFields_type_le "type" h
  have hdecorators := nestingFields_ofTexts_le "decorators" a.decorators
  simp only [toJson, nesting, nestingFields_append, nestingFields_field, nestingFields_flag]
  omega

end

/-! ## Written classes -/

section

variable {limit : Nat}

theorem ClassRecord.nestingFields_fieldsAt_le {c : ClassRecord}
    (hsuperclass : ∀ t ∈ c.superclass, t.toJson.nesting ≤ 2 * limit + 5)
    (hinterfaces : AreShallow limit (c.interfaces.map .plain))
    (hconstructor : AreShallow limit (c.constructorParameters.flatMap Parameter.terms))
    (hproperties : AreShallow limit (c.properties.flatMap Property.terms))
    (hmethods : AreShallow limit (c.methods.flatMap Method.terms))
    (hgetters : AreShallow limit (c.getters.flatMap Accessor.terms))
    (hsetters : AreShallow limit (c.setters.flatMap Accessor.terms)) (path : String) :
    nestingFields (c.fieldsAt path) ≤ 4 * limit + 8 := by
  have htypeParameters := nestingFields_ofTexts_le "typeParameters" c.typeParameters
  have hextends := nestingFields_fieldOf?_le "extends" hsuperclass
  have himplements : nestingFields (fieldOfList "implements" TypeTerm.toJson c.interfaces) ≤
      2 * limit + 4 :=
    nestingFields_fieldOfList_le "implements" fun t ht =>
      (hinterfaces _ (List.mem_map_of_mem ht)).2 t rfl
  have hdecorators := nestingFields_ofTexts_le "decorators" c.decorators
  have hparameters := nestingFields_parts_le Parameter.nesting_toJson_le "constructorParameters"
    hconstructor
  have hpropertyList := nestingFields_parts_le Property.nesting_toJson_le "properties" hproperties
  have hmethodList := nestingFields_parts_le Method.nesting_toJson_le "methods" hmethods
  have hgetterList := nestingFields_parts_le Accessor.nesting_toJson_le "getters" hgetters
  have hsetterList := nestingFields_parts_le Accessor.nesting_toJson_le "setters" hsetters
  -- the list of properties meets the bound: only an initializer grows by four levels at a time
  simp only [fieldsAt, nestingFields_append, nestingFields_field, nesting]
  omega

variable {src : Source}

/-- The fields of a class: its properties are the deepest, and two levels less deep than a record.
-/
theorem nestingFields_collectClass_le (site : Site) (path : String) :
    nestingFields ((collectClass src limit site).value.fieldsAt path) ≤ 4 * limit + 8 := by
  have hinterfaces := (@allResolved_interfaces src limit site.node).areShallow
  have hmembers := (@allResolved_membersOf src limit site.node).areShallow
  simp only [Members.terms, areShallow_append] at hmembers
  obtain ⟨⟨⟨⟨hconstructor, hproperties⟩, hmethods⟩, hgetters⟩, hsetters⟩ := hmembers
  refine ClassRecord.nestingFields_fieldsAt_le ?_ hinterfaces hconstructor hproperties hmethods
    hgetters hsetters path
  intro target htarget
  obtain ⟨clause, -, -, hvalue, -⟩ := exists_extends_clause htarget
  exact nesting_extendsTarget_le hvalue

/-- One object out of two parts nests no deeper than the deeper of them. -/
theorem Decorated.nesting_merge_le {base info : List (String × Json)} {b : Nat}
    (hbase : nestingFields base ≤ b) (hinfo : nestingFields info ≤ b) :
    (merge base info).nesting ≤ b + 1 := by
  rw [← nestingFields_sorted] at hbase hinfo
  refine Nat.succ_le_succ (nestingFields_le_iff.2 fun field hfield => ?_)
  -- a field of both parts is kept once, as the first has it
  rcases List.mem_append.1 hfield with hfield | hfield
  · exact nestingFields_le_iff.1 hbase field hfield
  · exact nestingFields_le_iff.1 hinfo field (List.mem_filter.1 hfield).1

theorem Decorated.nesting_toJson?_le {Info : Type} {infoFields : Info → List (String × Json)}
    {d : Decorated Info} {b : Nat} (hbase : ∀ path, nestingFields (d.base.fieldsAt path) ≤ b)
    (hinfo : nestingFields (infoFields d.info) ≤ b) :
    ∀ j ∈ d.toJson? infoFields, j.nesting ≤ b + 1 := by
  intro j hj
  obtain ⟨path, -, rfl⟩ := Option.map_eq_some_iff.1 hj
  exact nesting_merge_le (hbase path) hinfo

theorem DirectiveInfo.nestingFields_fields_le {i : DirectiveInfo} {b : Nat} (hb : 2 ≤ b)
    (h : ∀ v ∈ i.terms, v.toJson.nesting ≤ b) : nestingFields i.fields ≤ b := by
  simp only [terms, List.forall_mem_append] at h
  obtain ⟨⟨hhosts, hproviderValues⟩, hqueryValues⟩ := h
  have hhost := nestingFields_value_le "host" hhosts
  have hproviders := nestingFields_value_le "providers" hproviderValues
  have hqueries := nestingFields_value_le "queries" hqueryValues
  have hinputs := nestingFields_ofTexts?_le "inputs" i.inputs
  have houtputs := nestingFields_ofTexts?_le "outputs" i.outputs
  have hattributes : nestingFields (fieldOfList "constructorAttributes" AttributeParameter.toJson
      i.constructorAttributes) ≤ 2 :=
    nestingFields_fieldOfList_le "constructorAttributes" fun p _ => Nat.le_refl 1
  have hreferences : nestingFields (fieldOfList "constructorReferences" ReferenceParameter.toJson
      i.constructorReferences) ≤ 2 :=
    nestingFields_fieldOfList_le "constructorReferences" fun p _ => Nat.le_refl 1
  simp only [fields, nestingFields_append, nestingFields_str?, nestingFields_bool?]
  omega

theorem ComponentInfo.nestingFields_fields_le {i : ComponentInfo} {b : Nat} (hb : 2 ≤ b)
    (h : ∀ v ∈ i.terms, v.toJson.nesting ≤ b) : nestingFields i.fields ≤ b := by
  simp only [terms, List.forall_mem_append] at h
  obtain ⟨⟨⟨hdirectiveTerms, hviewValues⟩, himportValues⟩, hanimationValues⟩ := h
  have hdirective := DirectiveInfo.nestingFields_fields_le hb hdirectiveTerms
  have hviewProviders := nestingFields_value_le "viewProviders" hviewValues
  have himports := nestingFields_value_le "imports" himportValues
  have hanimations := nestingFields_value_le "animations" hanimationValues
  have hdetection : nestingFields (fieldOf? "changeDetection" ChangeDetection.toJson
      i.changeDetection) = 0 := nestingFields_scalar? _ _ fun _ => rfl
  have hencapsulation : nestingFields (fieldOf? "encapsulation" Encapsulation.toJson
      i.encapsulation) = 0 := nestingFields_scalar? _ _ fun _ => rfl
  have hstyles := nestingFields_ofTexts?_le "styles" i.styles
  have hstyleUrls := nestingFields_ofTexts?_le "styleUrls" i.styleUrls
  simp only [fields, nestingFields_append, nestingFields_str?, nestingFields_bool?]
  omega

theorem ModuleInfo.nestingFields_fields_le {i : ModuleInfo} {b : Nat}
    (h : ∀ v ∈ i.terms, v.toJson.nesting ≤ b) : nestingFields i.fields ≤ b := by
  simp only [terms, List.forall_mem_append] at h
  obtain ⟨⟨⟨⟨⟨⟨hbootstrap, hdeclarations⟩, hentries⟩, hexports⟩, himports⟩, hproviders⟩,
    hschemas⟩ := h
  simp only [fields, nestingFields_append, nestingFields_str?, Nat.max_le]
  exact ⟨⟨⟨⟨⟨⟨⟨Nat.zero_le b, nestingFields_value_le _ hbootstrap⟩,
    nestingFields_value_le _ hdeclarations⟩, nestingFields_value_le _ hentries⟩,
    nestingFields_value_le _ hexports⟩, nestingFields_value_le _ himports⟩,
    nestingFields_value_le _ hproviders⟩, nestingFields_value_le _ hschemas⟩

theorem PipeInfo.nestingFields_fields (i : PipeInfo) : nestingFields i.fields = 0 := by
  simp only [fields, nestingFields_append, nestingFields_str?, nestingFields_bool?, Nat.max_self]

theorem nesting_toJson?_collectDecorated_le (config : Config) (site : Site) (role : Role) :
    ∀ j ∈ (collectDecorated src config site role).value.toJson?,
      j.nesting ≤ 4 * config.limits.maxDepth + 9 := by
  have hbase := @nestingFields_collectClass_le config.limits.maxDepth src site
  unfold collectDecorated
  rw [Logged.value_bind, Logged.value_bind]
  generalize (configPairs src config.aliases site role).value = pairs
  -- the values of a decorator are collected, so they nest less deep than the fields of a class
  have hinfo : ∀ {terms : List ValueTerm}, AllCollected src config.limits.maxDepth terms →
      ∀ v ∈ terms, v.toJson.nesting ≤ 4 * config.limits.maxDepth + 8 :=
    fun hterms v hv => Nat.le_trans (hterms v hv).nesting_toJson_le (by omega)
  cases role with
  | component =>
    exact Decorated.nesting_toJson?_le hbase (ComponentInfo.nestingFields_fields_le (by omega)
      (hinfo (allCollected_componentInfo pairs site.node)))
  | directive =>
    exact Decorated.nesting_toJson?_le hbase (DirectiveInfo.nestingFields_fields_le (by omega)
      (hinfo (allCollected_directiveInfo pairs site.node)))
  | injectable =>
    exact Decorated.nesting_toJson?_le hbase
      (nestingFields_value_le "providedIn" (hinfo (allCollected_injectableInfo pairs)))
  | module =>
    exact Decorated.nesting_toJson?_le hbase
      (ModuleInfo.nestingFields_fields_le (hinfo (allCollected_moduleInfo pairs)))
  | pipe =>
    refine Decorated.nesting_toJson?_le hbase ?_
    rw [PipeInfo.nestingFields_fields]
    omega

end

/-! ## Other written records -/

section

variable {limit b : Nat}

theorem InterfaceProperty.nesting_toJson_le (p : InterfaceProperty)
    (h : AreShallow limit p.terms) : p.toJson.nesting ≤ 2 * limit + 4 := by
  have htype := nestingFields_type_le "type" h
  simp only [toJson, nesting, nestingFields_append, nestingFields_field, nestingFields_flag]
  omega

theorem InterfaceFunction.nesting_toJson_le (f : InterfaceFunction)
    (h : AreShallow limit f.terms) : f.toJson.nesting ≤ 2 * limit + 6 := by
  obtain ⟨hps, htypes⟩ := areShallow_append.1 h
  have hparameters := nestingFields_parts_le Parameter.nesting_toJson_le "parameters" hps
  have hreturn := nestingFields_type_le "returnType" htypes
  simp only [toJson, nesting, nestingFields_append, nestingFields_field, nestingFields_flag]
  omega

theorem InterfaceRecord.nesting_toJson?_le (i : InterfaceRecord) (h : AreShallow limit i.terms) :
    ∀ j ∈ i.toJson?, j.nesting ≤ 2 * limit + 8 := by
  refine nesting_obj_le fun path => ?_
  simp only [terms, areShallow_append] at h
  obtain ⟨⟨⟨hsupertypes, hproperties⟩, hoptionals⟩, hfunctions⟩ := h
  have htypeParameters := nestingFields_ofTexts_le "typeParameters" i.typeParameters
  have hextends : nestingFields (fieldOfList "extends" TypeTerm.toJson i.supertypes) ≤
      2 * limit + 4 :=
    nestingFields_fieldOfList_le "extends" fun t ht =>
      (hsupertypes _ (List.mem_map_of_mem ht)).2 t rfl
  have hpropertyList := nestingFields_parts_le InterfaceProperty.nesting_toJson_le "properties"
    hproperties
  have hoptionalList := nestingFields_parts_le InterfaceProperty.nesting_toJson_le
    "optionalProperties" hoptionals
  have hfunctionList := nestingFields_parts_le InterfaceFunction.nesting_toJson_le "functions"
    hfunctions
  simp only [fieldsAt, nesting, nestingFields_append, nestingFields_field]
  omega

theorem EnumRecord.nesting_toJson?_le (e : EnumRecord)
    (h : ∀ v ∈ e.terms, v.toJson.nesting ≤ b) : ∀ j ∈ e.toJson?, j.nesting ≤ b + 3 := by
  refine nesting_obj_le fun path => ?_
  have hmembers : (arr (e.members.map EnumMember.toJson)).nesting ≤ b + 2 := by
    refine nesting_arr_map_le fun m hm => ?_
    have hvalue := nestingFields_value_le "value" (List.forall_mem_flatMap.1 h m hm)
    simp only [EnumMember.toJson, nesting, nestingFields_append, nestingFields_field]
    omega
  simp only [fieldsAt, nesting, nestingFields_append, nestingFields_field, nestingFields_flag] at *
  omega

theorem AliasRecord.nesting_toJson?_le (a : AliasRecord)
    (h : ∀ v ∈ a.terms, v.toJson.nesting ≤ b) : ∀ j ∈ a.toJson?, j.nesting ≤ b + 1 := by
  refine nesting_obj_le fun path => ?_
  have htype := h (.plain a.type) List.mem_cons_self
  rw [ValueTerm.nesting_toJson_plain] at htype
  have htypeParameters := nestingFields_ofTexts_le "typeParameters" a.typeParameters
  simp only [fieldsAt, nesting, nestingFields_append, nestingFields_field]
  omega

/-- A file holds no terms: its statements are lists of records that hold lists of names. -/
theorem FileRecord.nesting_toJson?_le (f : FileRecord) : ∀ j ∈ f.toJson?, j.nesting ≤ 5 := by
  refine nesting_obj_le fun path => ?_
  have hnames : ∀ (name : String) (names : List Binding),
      nestingFields (fieldOfList name Binding.toJson names) ≤ 2 := by
    intro name names
    refine nestingFields_fieldOfList_le name fun binding _ => ?_
    simp only [Binding.toJson, nesting, nestingFields_append, nestingFields_field,
      nestingFields_str?]
    omega
  have himports : (arr (f.imports.map Import.toJson)).nesting ≤ 4 := by
    refine nesting_arr_map_le fun i _ => ?_
    have h := hnames "names" i.names
    simp only [Import.toJson, nesting, nestingFields_append, nestingFields_field,
      nestingFields_str?, nestingFields_flag]
    omega
  have hexports : (arr (f.exports.map Export.toJson)).nesting ≤ 4 := by
    refine nesting_arr_map_le fun e _ => ?_
    have h := hnames "names" e.names
    simp only [Export.toJson, nesting, nestingFields_append, nestingFields_str?,
      nestingFields_flag]
    omega
  simp only [fieldsAt, nesting, nestingFields_append, nestingFields_field] at *
  omega

end

/-! ## Records and catalogs -/

theorem nesting_toJson?_classLike_le {src : Source} (config : Config) (site : Site) :
    ∀ j ∈ (classLike src config site).value.toJson?,
      j.nesting ≤ 4 * config.limits.maxDepth + 9 := by
  unfold classLike
  split
  · exact nesting_toJson?_collectDecorated_le config site _
  · exact nesting_obj_le (nestingFields_collectClass_le site)

/-- The written form of a record, whatever declares it. -/
theorem nesting_toJson?_visit_le {src : Source} {config : Config} {site : Site} {r : Record}
    (hr : (visit src config site).value = some r) :
    ∀ j ∈ r.toJson?, j.nesting ≤ 4 * config.limits.maxDepth + 9 := by
  have hterms : ∀ v ∈ r.terms, v.toJson.nesting ≤ 4 * config.limits.maxDepth + 6 :=
    fun v hv => (allCollected_visit hr v hv).nesting_toJson_le
  obtain ⟨-, rfl⟩ | ⟨-, rfl⟩ | ⟨-, rfl⟩ | ⟨-, rfl⟩ | ⟨-, rfl⟩ := visit_cases hr
  · exact fun j hj => Nat.le_trans (FileRecord.nesting_toJson?_le _ j hj) (by omega)
  · exact nesting_toJson?_classLike_le config site
  · have hresolved := @allResolved_collectInterface src config.limits.maxDepth site.node
    have hshallow := hresolved.areShallow
    exact fun j hj => Nat.le_trans (InterfaceRecord.nesting_toJson?_le _ hshallow j hj) (by omega)
  · exact EnumRecord.nesting_toJson?_le _ hterms
  · exact fun j hj => Nat.le_trans (AliasRecord.nesting_toJson?_le _ hterms j hj) (by omega)

/-- A catalog is an object of lists of records. -/
theorem Catalog.nesting_toJson?_le {c : Catalog} {b : Nat}
    (h : ∀ r ∈ c.allRecords, ∀ j ∈ r.toJson?, j.nesting ≤ b) :
    ∀ j ∈ c.toJson?, j.nesting ≤ b + 2 := by
  intro j hj
  obtain ⟨items, hitems, rfl⟩ := exists_items_of_toJson? hj
  refine Nat.succ_le_succ (nestingFields_le_iff.2 fun field hfield => ?_)
  obtain ⟨category, hcategory, rfl⟩ := List.mem_map.1 hfield
  refine Nat.succ_le_succ (nestingItems_le_iff.2 fun item hitem => ?_)
  obtain ⟨r, hr, hwritten⟩ := exists_of_mem_mapM (hitems category) hitem
  exact h r (List.mem_flatMap.2 ⟨category, hcategory, hr⟩) item hwritten

theorem nesting_extractUnder_le {e : Extractor} {units : List TimedUnit} {o : Outcome}
    (h : extractUnder e units = .ok o) :
    ∀ j ∈ o.catalog.toJson?, j.nesting ≤ 11 + 4 * e.config.limits.maxDepth := by
  have hrecords : ∀ r ∈ o.catalog.allRecords, ∀ j ∈ r.toJson?,
      j.nesting ≤ 4 * e.config.limits.maxDepth + 9 := by
    intro r hr
    obtain ⟨u, -, hr⟩ := (mem_allRecords_iff h).1 hr
    obtain ⟨site, hvisit⟩ := exists_visit_of_mem_records hr
    exact nesting_toJson?_visit_le hvisit
  intro j hj
  have hle := Catalog.nesting_toJson?_le hrecords j hj
  omega

/-- Under a limit of at most 29 the text of a run is read back as it was. -/
theorem ofText?_of_maxDepth_le {e : Extractor} {units : List TimedUnit} {o : Outcome}
    (h : extractUnder e units = .ok o) (hlimit : e.config.limits.maxDepth ≤ 29) {text : String}
    (htext : o.catalog.toText? = some text) : Catalog.ofText? text = some o.catalog := by
  obtain ⟨j, hj, rfl⟩ := Option.map_eq_some_iff.1 htext
  have hle := nesting_extractUnder_le h j hj
  rw [Catalog.ofText?_eq_some_iff hj]
  refine ⟨?_, (canon_eq_self_of_extractUnder h).symm⟩
  show j.nesting ≤ 127
  omega

/-- **The nesting limit bounds the written catalog.** What a run extracts, over trees or over files
on a disk, nests at most eleven levels and four for every level that the limit allows. It has a text
when the path of every file that gives a record has one, and under a limit of at most 29 that text
is read back as it was, since a reader goes deep enough. -/
theorem extracted_catalog_nesting_le :
    (∀ (e : Extractor) (units : List TimedUnit) (o : Outcome), extractUnder e units = .ok o →
      (∀ j, o.catalog.toJson? = some j → j.nesting ≤ 11 + 4 * e.config.limits.maxDepth) ∧
      (o.catalog.toText?.isSome = true ↔ ∀ u ∈ units, (u.output e.config).records ≠ [] →
        u.unit.source.path.text?.isSome = true) ∧
      (e.config.limits.maxDepth ≤ 29 → ∀ text, o.catalog.toText? = some text →
        Catalog.ofText? text = some o.catalog)) ∧
    ∀ (e : Extractor) (disk : Disk) (parse : String → Node) (paths : List (Path × Deadline))
      (o : Outcome), extractFilesUnder e disk parse paths = .ok o →
      (∀ j, o.catalog.toJson? = some j → j.nesting ≤ 11 + 4 * e.config.limits.maxDepth) ∧
      ((∀ file ∈ paths, file.1.text?.isSome = true) → o.catalog.toText?.isSome = true) ∧
      (e.config.limits.maxDepth ≤ 29 → ∀ text, o.catalog.toText? = some text →
        Catalog.ofText? text = some o.catalog) := by
  refine ⟨fun e units o hrun => ?_, fun e disk parse paths o hfiles => ?_⟩
  · exact ⟨nesting_extractUnder_le hrun, isSome_toText?_iff hrun,
      fun hlimit text => ofText?_of_maxDepth_le hrun hlimit⟩
  · -- unreadable files are counted, but they add nothing to the catalog
    obtain ⟨run, hrun, rfl⟩ := exists_run_of_extractFilesUnder hfiles
    have hnesting := nesting_extractUnder_le hrun
    have hwritten := isSome_toText?_iff hrun
    have hread := @ofText?_of_maxDepth_le e _ run hrun
    refine ⟨hnesting, fun hpaths => hwritten.2 fun u hu _ => ?_, fun hlimit text => hread hlimit⟩
    obtain ⟨file, hfile, hunit⟩ := List.mem_filterMap.1 hu
    rw [path_of_unitAt?_eq_some hunit]
    exact hpaths file hfile

/-- The source `class A { p = [[[]]]; }`, with its tree. -/
def nestedArrays : SourceUnit where
  source := .ofText "arrays.ts" "class A \x7b p = [[[]]]; \x7d"
  tree :=
    .named "program" none 0 23 [
      .named "class_declaration" none 0 23 [
        .token "class" 0 5, .named "type_identifier" (some "name") 6 7 [],
        .named "class_body" (some "body") 8 23 [
          .token "\x7b" 8 9,
          .named "public_field_definition" none 10 20 [
            .named "property_identifier" (some "name") 10 11 [], .token "=" 12 13,
            .named "array" (some "value") 14 20 [
              .token "[" 14 15,
              .named "array" none 15 19 [
                .token "[" 15 16,
                .named "array" none 16 18 [.token "[" 16 17, .token "]" 17 18],
                .token "]" 18 19],
              .token "]" 19 20]],
          .token ";" 20 21, .token "\x7d" 22 23]]]

/-- The smallest limit that a configuration may have. -/
def shallowExtractor : Extractor where
  config := { limits := { maxDepth := 1, fileTimeoutMs := none }, aliases := [] }
  failOnTimeout := false

/-- The run over one file under the limit 1. -/
def shallowRun (unit : SourceUnit) : Except RunError Outcome :=
  extractUnder shallowExtractor [{ unit, expired := .never }]

/-- Under the limit 1 the innermost array is cut off, the bound is met, and the text is read back.
-/
theorem extracted_catalog_nesting_le_nestedArrays :
    ∃ o j text, shallowRun nestedArrays = .ok o ∧ o.catalog.toJson? = some j ∧
      j.nesting = 11 + 4 * 1 ∧ o.catalog.toText? = some text ∧
      Catalog.ofText? text = some o.catalog := by
  have hnesting : (shallowRun nestedArrays).toOption.bind
      (fun o => o.catalog.toJson?.map nesting) = some 15 := by
    decide +kernel
  obtain ⟨o, hrun, hnesting⟩ := Option.bind_eq_some_iff.1 hnesting
  obtain ⟨j, hj, hnesting⟩ := Option.map_eq_some_iff.1 hnesting
  have hrun : shallowRun nestedArrays = .ok o := by
    cases hresult : shallowRun nestedArrays with
    | error cause =>
      rw [hresult] at hrun
      cases hrun
    | ok o' =>
      rw [hresult] at hrun
      exact congrArg Except.ok (Option.some.inj hrun)
  have htext : o.catalog.toText? = some j.pretty := by
    rw [Catalog.toText?, hj, Option.map_some]
  have hread := (extracted_catalog_nesting_le.1 shallowExtractor _ o hrun).2.2 (by decide) _ htext
  exact ⟨o, j, j.pretty, hrun, hj, hnesting, htext, hread⟩

/-- An empty file whose path is no text, with its tree. -/
def latinFile : SourceUnit where
  source := .ofText latinPath ""
  tree := .named "program" none 0 0 []

/-- Where a path is no text the catalog has none, whatever the limit, so nothing is read back. -/
theorem extracted_catalog_may_have_no_text :
    shallowExtractor.config.limits.maxDepth ≤ 29 ∧ ∃ o, shallowRun latinFile = .ok o ∧
      o.catalog.total = 1 ∧ o.catalog.toText? = none ∧
      o.catalog.toText?.bind Catalog.ofText? ≠ some o.catalog := by
  have hresult : (shallowRun latinFile).toOption.map
      (fun o => (o.catalog.total, o.catalog.toText?)) = some (1, none) := by
    decide +kernel
  cases hrun : shallowRun latinFile with
  | error cause =>
    rw [hrun] at hresult
    cases hresult
  | ok o =>
    rw [hrun] at hresult
    simp only [Except.toOption, Option.map_some, Option.some.injEq, Prod.mk.injEq] at hresult
    obtain ⟨htotal, htext⟩ := hresult
    refine ⟨by decide, o, rfl, htotal, htext, ?_⟩
    rw [htext]
    exact (Option.some_ne_none o.catalog).symm

end DeclCatalog
