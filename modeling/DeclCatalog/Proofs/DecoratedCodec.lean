import DeclCatalog.Proofs.RecordCodec

/-!
# Decorated classes are read back

A decorated class is written as one object with the fields of the class and those of what the
decorator says, every object in it in ascending order of its keys. It is read as a whole, and then
each part takes the fields it knows.

- `fieldsRead` of what each of the five decorators says.
- `Decorated.merge_eq`: the class hides nothing of what the decorator says.
- `Decorated.codec`: **the two parts keep out of each other's way**, although they share one object.
- `Record.component_codec` and its like: the five sorts of decorated classes.
-/

namespace DeclCatalog

open Json

/-! ## Order and readability -/

theorem isExactFields_iff {fields : List (String × Json)} :
    isExactFields fields = true ↔ ∀ field ∈ fields, field.2.isExact = true := by
  induction fields with
  | nil => simp [isExactFields]
  | cons field fields ih => rw [isExactFields, Bool.and_eq_true, ih, List.forall_mem_cons]

mutual

/-- Order has no part in whether a value is exact. -/
theorem isExact_arrange (o : KeyOrder) :
    ∀ v : Json, v.isExact = true → (v.arrange o).isExact = true
  | .arr items => isExactItems_arrange o items
  | .obj fields => fun h => by
    have hfields := isExactFields_iff.1 (isExactFields_arrange o fields h)
    exact isExactFields_iff.2 fun field hfield => hfields field ((o.perm _).mem_iff.1 hfield)
  | .null => id
  | .bool _ => id
  | .int _ => id
  | .decimal _ => id
  | .str _ => id
  | .unreadable => id

theorem isExactItems_arrange (o : KeyOrder) :
    ∀ items : List Json, isExactItems items = true → isExactItems (arrangeItems o items) = true
  | [] => id
  | item :: items => fun h => by
    rw [isExactItems, Bool.and_eq_true] at h
    rw [arrangeItems, isExactItems, isExact_arrange o item h.1, isExactItems_arrange o items h.2,
      Bool.and_self]

theorem isExactFields_arrange (o : KeyOrder) :
    ∀ fields : List (String × Json), isExactFields fields = true →
      isExactFields (arrangeFields o fields) = true
  | [] => id
  | (key, value) :: fields => fun h => by
    rw [isExactFields, Bool.and_eq_true] at h
    rw [arrangeFields, isExactFields, isExact_arrange o value h.1,
      isExactFields_arrange o fields h.2, Bool.and_self]

end

mutual

/-- What is exact can be read. -/
theorem isReadable_of_isExact : ∀ v : Json, v.isExact = true → v.isReadable = true
  | .arr items => isReadableItems_of_isExact items
  | .obj fields => isReadableFields_of_isExact fields
  | .null => fun _ => rfl
  | .bool _ => fun _ => rfl
  | .int _ => fun _ => rfl
  | .decimal _ => fun _ => rfl
  | .str _ => fun _ => rfl
  | .unreadable => id

theorem isReadableItems_of_isExact :
    ∀ items : List Json, isExactItems items = true → isReadableItems items = true
  | [] => id
  | item :: items => fun h => by
    rw [isExactItems, Bool.and_eq_true] at h
    rw [isReadableItems, isReadable_of_isExact item h.1, isReadableItems_of_isExact items h.2,
      Bool.and_self]

theorem isReadableFields_of_isExact :
    ∀ fields : List (String × Json), isExactFields fields = true → isReadableFields fields = true
  | [] => id
  | (key, value) :: fields => fun h => by
    rw [isExactFields, Bool.and_eq_true] at h
    rw [isReadableFields, isReadable_of_isExact value h.1, isReadableFields_of_isExact fields h.2,
      Bool.and_self]

end

/-! ## What decorators say -/

theorem ChangeDetection.codec (o : KeyOrder) :
    Codec o ChangeDetection.toJson (fun c => c) ChangeDetection.ofJson? :=
  Codec.choice o fun c => show ChangeDetection.ofName? c.name = some c by cases c <;> rfl

theorem Encapsulation.codec (o : KeyOrder) :
    Codec o Encapsulation.toJson (fun e => e) Encapsulation.ofJson? :=
  Codec.choice o fun e => show Encapsulation.ofName? e.name = some e by cases e <;> rfl

theorem AttributeParameter.codec (o : KeyOrder) :
    Codec o AttributeParameter.toJson (fun p => p) AttributeParameter.ofJson? := by
  have hs := Codec.str o
  refine Codec.record (by decide) (fun p => rfl) fun p => ?_
  exact (hs.required "identifier" _).next ((hs.required "attributeName" _).last _)

theorem ReferenceParameter.codec (o : KeyOrder) :
    Codec o ReferenceParameter.toJson (fun p => p) ReferenceParameter.ofJson? := by
  have hs := Codec.str o
  refine Codec.record (by decide) (fun p => rfl) fun p => ?_
  exact (hs.required "identifier" _).next ((hs.required "type" _).last _)

theorem DirectiveInfo.fieldsRead (o : KeyOrder) (d : DirectiveInfo) :
    FieldsRead o fieldNames d.fields ofFields? d.canon := by
  have hs := Codec.str o
  have hl := (Codec.str o).plainList
  have hv := ValueTerm.codec o
  simp only [fields, ofTexts?, List.append_assoc]
  exact (hs.plainOptional "selector" _).next ((hv.optional "host" _).next
    ((hl.plainOptional "inputs" _).next ((hl.plainOptional "outputs" _).next
    ((hv.optional "providers" _).next ((hv.optional "queries" _).next
    ((hs.plainOptional "exportAs" _).next (((Codec.bool o).plainOptional "standalone" _).next
    (((AttributeParameter.codec o).plainMany "constructorAttributes" _).next
    (((ReferenceParameter.codec o).plainMany "constructorReferences" _).last _)))))))))

theorem DirectiveInfo.fields_canon (d : DirectiveInfo) : d.canon.fields = d.fields := by
  simp only [fields, canon, (ValueTerm.codec KeyOrder.written).fieldOf?_norm]

/-- The fields of a component go on after those of a directive. -/
theorem ComponentInfo.fieldsRead (o : KeyOrder) (c : ComponentInfo) :
    FieldsRead o fieldNames c.fields ofFields? c.canon := by
  have hs := Codec.str o
  have hl := (Codec.str o).plainList
  have hv := ValueTerm.codec o
  simp only [fields, ofTexts?, List.append_assoc]
  refine (DirectiveInfo.fieldsRead o c.directive).bind ?_
  exact ((ChangeDetection.codec o).plainOptional "changeDetection" _).next
    (((Encapsulation.codec o).plainOptional "encapsulation" _).next
    ((hs.plainOptional "moduleId" _).next
    (((Codec.bool o).plainOptional "preserveWhitespaces" _).next
    ((hl.plainOptional "styles" _).next ((hl.plainOptional "styleUrls" _).next
    ((hs.plainOptional "template" _).next ((hs.plainOptional "templateUrl" _).next
    ((hv.optional "viewProviders" _).next ((hv.optional "imports" _).next
    ((hv.optional "animations" _).last _))))))))))

theorem ComponentInfo.fields_canon (c : ComponentInfo) : c.canon.fields = c.fields := by
  simp only [fields, canon, DirectiveInfo.fields_canon,
    (ValueTerm.codec KeyOrder.written).fieldOf?_norm]

theorem InjectableInfo.fieldsRead (o : KeyOrder) (i : InjectableInfo) :
    FieldsRead o fieldNames i.fields ofFields? i.canon :=
  ((ValueTerm.codec o).optional "providedIn" _).last _

theorem InjectableInfo.fields_canon (i : InjectableInfo) : i.canon.fields = i.fields := by
  simp only [fields, canon, (ValueTerm.codec KeyOrder.written).fieldOf?_norm]

theorem ModuleInfo.fieldsRead (o : KeyOrder) (m : ModuleInfo) :
    FieldsRead o fieldNames m.fields ofFields? m.canon := by
  have hv := ValueTerm.codec o
  simp only [fields, List.append_assoc]
  exact ((Codec.str o).plainOptional "id" _).next ((hv.optional "bootstrap" _).next
    ((hv.optional "declarations" _).next ((hv.optional "entryComponents" _).next
    ((hv.optional "exports" _).next ((hv.optional "imports" _).next
    ((hv.optional "providers" _).next ((hv.optional "schemas" _).last _)))))))

theorem ModuleInfo.fields_canon (m : ModuleInfo) : m.canon.fields = m.fields := by
  simp only [fields, canon, (ValueTerm.codec KeyOrder.written).fieldOf?_norm]

theorem PipeInfo.fieldsRead (o : KeyOrder) (p : PipeInfo) :
    FieldsRead o fieldNames p.fields ofFields? p := by
  have hb := Codec.bool o
  simp only [fields, List.append_assoc]
  exact ((Codec.str o).plainOptional "name" _).next ((hb.plainOptional "pure" _).next
    ((hb.plainOptional "standalone" _).last _))

/-! ## Two parts in one object -/

/-- The fields of one part in the order in which a decorated class is written. -/
def sorted (fields : List (String × Json)) : List (String × Json) :=
  sortFields (sortKeysFields fields)

theorem sorted_eq (fields : List (String × Json)) :
    sorted fields = KeyOrder.ascending.order (arrangeFields KeyOrder.ascending fields) := by
  rw [sorted, sortKeysFields_eq_arrange]
  rfl

theorem keys_sorted (fields : List (String × Json)) :
    ((sorted fields).map Prod.fst).Perm (fields.map Prod.fst) := by
  rw [sorted_eq]
  have h := (KeyOrder.ascending.perm (arrangeFields KeyOrder.ascending fields)).map Prod.fst
  rwa [keys_arrangeFields] at h

theorem nestingFields_sorted (fields : List (String × Json)) :
    nestingFields (sorted fields) = nestingFields fields := by
  rw [sorted_eq, nestingFields_perm (KeyOrder.ascending.perm _), nestingFields_arrange]

theorem isExactFields_sorted {fields : List (String × Json)} (h : isExactFields fields = true) :
    isExactFields (sorted fields) = true := by
  rw [sorted_eq]
  exact isExact_arrange KeyOrder.ascending (.obj fields) h

/-- What is seen of the fields of one part. -/
theorem cutFields_sorted (levels : Nat) (fields : List (String × Json)) :
    cutFields levels (sorted fields) = seenFields KeyOrder.ascending levels fields := by
  rw [sorted_eq]
  rfl

namespace Decorated

section Parts

variable {names names' : List String} {fields fields' : List (String × Json)}
  (h : (fields.map Prod.fst).Sublist names) (h' : (fields'.map Prod.fst).Sublist names')
  (hapart : ∀ name ∈ names', name ∉ names)

include h h' hapart

/-- The class hides nothing: no key of the decorator's part is a key of a class. -/
theorem merge_eq : merge fields fields' = .obj (sorted fields ++ sorted fields') := by
  have hkeep : ((sorted fields').filter fun field =>
      !((sorted fields).map Prod.fst).contains field.1) = sorted fields' := by
    refine List.filter_eq_self.2 fun field hfield => ?_
    have hkey : field.1 ∈ names' :=
      h'.subset ((keys_sorted fields').subset (List.mem_map_of_mem hfield))
    have hnot : field.1 ∉ (sorted fields).map Prod.fst := fun hmem =>
      hapart _ hkey (h.subset ((keys_sorted fields).subset hmem))
    simpa using hnot
  rw [merge]
  exact congrArg (fun rest => Json.obj (sorted fields ++ rest)) hkeep

/-- Both parts in one object, as it is seen: no key is there twice, and each part is shown. -/
theorem shows_parts (hnames : names.Nodup) (hnames' : names'.Nodup) (levels : Nat) :
    let all := seenFields KeyOrder.ascending levels fields ++
      seenFields KeyOrder.ascending levels fields'
    (all.map Prod.fst).Nodup ∧ Shows KeyOrder.ascending levels names fields (all.among names) ∧
      Shows KeyOrder.ascending levels names' fields' (all.among names') := by
  intro all
  let o := KeyOrder.ascending
  have hnodup : (fields.map Prod.fst).Nodup := h.nodup hnames
  have hnodup' : (fields'.map Prod.fst).Nodup := h'.nodup hnames'
  have hlookup : ∀ name, all.lookup name =
      ((fields.lookup name).or (fields'.lookup name)).map (seen o levels) := by
    intro name
    rw [List.lookup_append, lookup_seenFields hnodup, lookup_seenFields hnodup', Option.map_or]
  refine ⟨?_, fun name hname => ?_, fun name hname => ?_⟩
  · have hperm := (keys_seenFields o levels fields).append (keys_seenFields o levels fields')
    rw [List.map_append, hperm.nodup_iff, List.nodup_append]
    refine ⟨hnodup, hnodup', ?_⟩
    rintro name hname _ hname' rfl
    exact hapart name (h'.subset hname') (h.subset hname)
  · have hnone : fields'.lookup name = none :=
      lookup_eq_none_of_not_mem h' fun hname' => hapart name hname' hname
    rw [lookup_among _ hname, hlookup, hnone, Option.or_none]
  · have hnone : fields.lookup name = none := lookup_eq_none_of_not_mem h (hapart name hname)
    rw [lookup_among _ hname, hlookup, hnone, Option.none_or]

end Parts

/-- Reading a decorated class: all of it is readable, and each part is read from what it knows. -/
theorem ofJson?_eq_some_iff {Info : Type} {infoNames : List String}
    {infoOfFields? : Fields → Option Info} {j : Json} {c : Decorated Info} :
    ofJson? infoNames infoOfFields? j = some c ↔ j.isReadable = true ∧
      (j.object? ClassRecord.fieldNames).bind ClassRecord.ofFields? = some c.base ∧
      (j.object? infoNames).bind infoOfFields? = some c.info := by
  obtain ⟨base, info⟩ := c
  by_cases hj : j.isReadable = true
  · have hguard : (guard (j.isReadable = true) : Option Unit) = some () := if_pos hj
    rw [ofJson?, hguard]
    simp only [hj, Option.bind_eq_bind, Option.pure_def, Option.bind_some,
      Option.bind_eq_some_iff, Option.some.injEq, mk.injEq]
    constructor
    · rintro ⟨bs, hbs, b, hb, is, his, i, hi, rfl, rfl⟩
      exact ⟨trivial, ⟨bs, hbs, hb⟩, is, his, hi⟩
    · rintro ⟨-, ⟨bs, hbs, hb⟩, is, his, hi⟩
      exact ⟨bs, hbs, base, hb, is, his, info, hi, rfl, rfl⟩
  · have hguard : (guard (j.isReadable = true) : Option Unit) = none := if_neg hj
    have hnone : ofJson? infoNames infoOfFields? j = none := by
      rw [ofJson?, hguard]
      rfl
    simp [hnone, hj]

/-- Two parts in one object are read back when each of them is, under names of its own. -/
theorem readsAs_merge {Info : Type} {infoNames : List String}
    {fields fields' : List (String × Json)}
    {infoOfFields? : Fields → Option Info} {b : Decorated Info}
    (hbase : FieldsRead KeyOrder.ascending ClassRecord.fieldNames fields ClassRecord.ofFields?
      b.base)
    (hinfo : FieldsRead KeyOrder.ascending infoNames fields' infoOfFields? b.info)
    (hnames : infoNames.Nodup) (hapart : ∀ name ∈ infoNames, name ∉ ClassRecord.fieldNames) :
    (merge fields fields').ReadsAs KeyOrder.written (ofJson? infoNames infoOfFields?) b := by
  have hmerge := merge_eq hbase.keys hinfo.keys hapart
  have hexact : (merge fields fields').isExact = true := by
    rw [hmerge, isExact, isExactFields_append, isExactFields_sorted hbase.exact,
      isExactFields_sorted hinfo.exact, Bool.and_self]
  refine ⟨by rw [hmerge]; exact Json.noConfusion, hexact, fun levels c => ?_⟩
  rw [seen_written, ofJson?_eq_some_iff,
    @isReadable_cut_iff levels _ (isReadable_of_isExact _ hexact)]
  cases levels with
  | zero => simp [hmerge, nesting]
  | succ levels =>
    have hclass : ClassRecord.fieldNames.Nodup := by decide
    obtain ⟨hnodup, hshows, hshows'⟩ :=
      shows_parts hbase.keys hinfo.keys hapart hclass hnames levels
    have hcut : (merge fields fields').cut (levels + 1) =
        .obj (seenFields KeyOrder.ascending levels fields ++
          seenFields KeyOrder.ascending levels fields') := by
      rw [hmerge, cut, cutFields_eq_map, List.map_append, ← cutFields_eq_map, ← cutFields_eq_map,
        cutFields_sorted, cutFields_sorted]
    have hnesting : (merge fields fields').nesting ≤ levels + 1 ↔
        nestingFields fields ≤ levels ∧ nestingFields fields' ≤ levels := by
      rw [hmerge, nesting, Nat.add_le_add_iff_right, nestingFields_append, nestingFields_sorted,
        nestingFields_sorted, Nat.max_le]
    rw [hcut, object?, object?, knownFields?_eq_among hnodup, knownFields?_eq_among hnodup,
      Option.bind_some, Option.bind_some, hbase.reads hclass levels _ hshows,
      hinfo.reads hnames levels _ hshows', hnesting]
    obtain ⟨base, info⟩ := b
    obtain ⟨base', info'⟩ := c
    rw [mk.injEq]
    constructor
    · rintro ⟨hle, ⟨-, rfl⟩, -, rfl⟩
      exact ⟨hle, rfl, rfl⟩
    · rintro ⟨hle, rfl, rfl⟩
      exact ⟨hle, ⟨hle.1, rfl⟩, hle.2, rfl⟩

/-- A decorated class is read back when what its decorator says is, under names of its own. -/
theorem codec {Info : Type} {infoNames : List String} {infoFields : Info → List (String × Json)}
    {canonInfo : Info → Info} {infoOfFields? : Fields → Option Info}
    (hinfo : ∀ i, FieldsRead KeyOrder.ascending infoNames (infoFields i) infoOfFields?
      (canonInfo i))
    (hcanon : ∀ i, infoFields (canonInfo i) = infoFields i) (hnames : infoNames.Nodup)
    (hapart : ∀ name ∈ infoNames, name ∉ ClassRecord.fieldNames) :
    PartialCodec KeyOrder.written (toJson? infoFields) (canon canonInfo)
      (ofJson? infoNames infoOfFields?) where
  write_norm d := by
    have hbase : ∀ path, (d.canon canonInfo).base.fieldsAt path = d.base.fieldsAt path :=
      d.base.fieldsAt_canon
    have hinfo : infoFields (d.canon canonInfo).info = infoFields d.info := hcanon d.info
    simp only [toJson?, hbase, hinfo]
    rfl
  readsAs d j hj := by
    obtain ⟨path, hpath, rfl⟩ := Option.map_eq_some_iff.1 hj
    have hbase := ClassRecord.fieldsRead KeyOrder.ascending d.base hpath
    exact readsAs_merge hbase (hinfo d.info) hnames hapart

end Decorated

/-! ## The five sorts of decorated classes -/

namespace Record

theorem component_codec : PartialCodec KeyOrder.written (Decorated.toJson? ComponentInfo.fields)
    (Decorated.canon ComponentInfo.canon) component? :=
  Decorated.codec (ComponentInfo.fieldsRead _) ComponentInfo.fields_canon (by decide) (by decide)

theorem directive_codec : PartialCodec KeyOrder.written (Decorated.toJson? DirectiveInfo.fields)
    (Decorated.canon DirectiveInfo.canon) directive? :=
  Decorated.codec (DirectiveInfo.fieldsRead _) DirectiveInfo.fields_canon (by decide) (by decide)

theorem injectable_codec : PartialCodec KeyOrder.written (Decorated.toJson? InjectableInfo.fields)
    (Decorated.canon InjectableInfo.canon) injectable? :=
  Decorated.codec (InjectableInfo.fieldsRead _) InjectableInfo.fields_canon (by decide) (by decide)

theorem module_codec : PartialCodec KeyOrder.written (Decorated.toJson? ModuleInfo.fields)
    (Decorated.canon ModuleInfo.canon) module? :=
  Decorated.codec (ModuleInfo.fieldsRead _) ModuleInfo.fields_canon (by decide) (by decide)

theorem pipe_codec : PartialCodec KeyOrder.written (Decorated.toJson? PipeInfo.fields)
    (Decorated.canon id) pipe? :=
  Decorated.codec (PipeInfo.fieldsRead _) (fun _ => rfl) (by decide) (by decide)

end Record

end DeclCatalog
