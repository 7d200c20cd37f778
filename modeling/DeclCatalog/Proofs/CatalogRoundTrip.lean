import DeclCatalog.Proofs.DecoratedCodec

/-!
# A catalog is read back from its text

A catalog has a text exactly when all of its records' paths have one. That text denotes its
canonical form, unless it nests deeper than a reader goes.

- `Catalog.isSome_toJson?_iff`, `Catalog.exists_items_of_toJson?`: when a catalog can be written,
  and the ten lists that are written then.
- `Catalog.readsAs`: what the ten lists are read as.
- `Catalog.ofText?_eq_some_iff`: what the text of a catalog denotes.
- `Catalog.ofText?_toText?`: **the whole round trip**. Reading gives the canonical form, which has
  the same text; a deeper catalog is refused; and a catalog comes back as it is exactly when it
  nests no deeper and none of its names is read as another kind.
-/

namespace DeclCatalog

open Json

namespace Record

theorem agrees_canon_iff (r : Record) : r.agrees r.canon = true ↔ r.canon = r := by
  have hpath : r.canon.filepath = r.filepath := by cases r <;> rfl
  simp [agrees, hpath, eq_comm (a := r)]

/-- A record and its canonical form are written alike. -/
theorem toJson?_canon (r : Record) : r.canon.toJson? = r.toJson? := by
  let o := KeyOrder.written
  cases r with
  | «class» r => exact (ClassRecord.codec o).write_norm r
  | component r => exact component_codec.write_norm r
  | directive r => exact directive_codec.write_norm r
  | injectable r => exact injectable_codec.write_norm r
  | module r => exact module_codec.write_norm r
  | pipe r => exact pipe_codec.write_norm r
  | enum r => exact (EnumRecord.codec o).write_norm r
  | interface r => exact (InterfaceRecord.codec o).write_norm r
  | typeAlias r => exact (AliasRecord.codec o).write_norm r
  | sourceFile r => rfl

end Record

/-- A category's records are read back when the records of its sort are. -/
theorem PartialCodec.readsAs_records {α : Type} {o : KeyOrder} {write? : α → Option Json}
    {norm : α → α} {read? : Json → Option α} (h : PartialCodec o write? norm read?)
    (record : α → Record) (hwrite : ∀ a, (record a).toJson? = write? a) {items : List α}
    {js : List Json} (hjs : (items.map record).mapM Record.toJson? = some js) :
    (Json.arr js).ReadsAs o (asList? read?) (items.map norm) := by
  rw [List.mapM_map] at hjs
  exact h.readsAs_list ((congrArg items.mapM (funext hwrite)).symm.trans hjs)

namespace Catalog

/-! ## What is written -/

theorem isSome_fieldOf?_iff (c : Catalog) (category : Category) :
    (c.fieldOf? category).isSome = true ↔
      ∀ r ∈ c.records category, r.filepath.text?.isSome = true := by
  simp only [fieldOf?, Option.isSome_map, isSome_mapM_iff, Record.isSome_toJson?]

/-- A catalog can be written when all paths are texts. -/
theorem isSome_toJson?_iff (c : Catalog) :
    c.toJson?.isSome = true ↔ ∀ r ∈ c.allRecords, r.filepath.text?.isSome = true := by
  simp only [toJson?, Option.isSome_map, isSome_mapM_iff, isSome_fieldOf?_iff, allRecords,
    List.forall_mem_flatMap]

/-- The ten lists of a catalog as they are written. -/
theorem exists_items_of_toJson? {c : Catalog} {j : Json} (h : c.toJson? = some j) :
    ∃ items : Category → List Json,
      (∀ category, (c.records category).mapM Record.toJson? = some (items category)) ∧
      j = .obj (Category.all.map fun category => (category.key, .arr (items category))) := by
  have hpaths := (isSome_toJson?_iff c).1 (by rw [h]; rfl)
  have hsome : ∀ category, ∃ items,
      (c.records category).mapM Record.toJson? = some items := by
    intro category
    rw [← Option.isSome_iff_exists, isSome_mapM_iff]
    intro r hr
    rw [Record.isSome_toJson?]
    exact hpaths r (List.mem_flatMap.2 ⟨category, mem_all category, hr⟩)
  choose items hitems using hsome
  have hfieldOf : c.fieldOf? = fun category => some (category.key, .arr (items category)) := by
    funext category
    rw [fieldOf?, hitems, Option.map_some]
  refine ⟨items, hitems, ?_⟩
  rw [toJson?, hfieldOf] at h
  exact (Option.some.inj (h.symm.trans (congrArg (Option.map Json.obj) List.mapM_pure)))

/-! ## What is read -/

/-- What is written of a catalog is read as its canonical form. -/
theorem readsAs {c : Catalog} {j : Json} (h : c.toJson? = some j) :
    j.ReadsAs KeyOrder.written ofJson? c.canon := by
  let o := KeyOrder.written
  obtain ⟨items, hitems, rfl⟩ := exists_items_of_toJson? h
  have hclass := (ClassRecord.codec o).readsAs_records .class (fun _ => rfl) (hitems .classes)
  have hcomponent := Record.component_codec.readsAs_records .component (fun _ => rfl)
    (hitems .components)
  have hdirective := Record.directive_codec.readsAs_records .directive (fun _ => rfl)
    (hitems .directives)
  have hinjectable := Record.injectable_codec.readsAs_records .injectable (fun _ => rfl)
    (hitems .injectables)
  have hmodule := Record.module_codec.readsAs_records .module (fun _ => rfl) (hitems .modules)
  have hpipe := Record.pipe_codec.readsAs_records .pipe (fun _ => rfl) (hitems .pipes)
  have henum := (EnumRecord.codec o).readsAs_records .enum (fun _ => rfl) (hitems .enums)
  have hinterface := (InterfaceRecord.codec o).readsAs_records .interface (fun _ => rfl)
    (hitems .interfaces)
  have halias := (AliasRecord.codec o).readsAs_records .typeAlias (fun _ => rfl)
    (hitems .typeAliases)
  have hfile := (FileRecord.codec o).readsAs_records .sourceFile (fun _ => rfl)
    (hitems .sourceFiles)
  rw [List.map_id'] at hfile
  exact readsAs_record ((FieldsRead.orDefault "classes" [] hclass).next
    ((FieldsRead.orDefault "components" [] hcomponent).next
    ((FieldsRead.orDefault "directives" [] hdirective).next
    ((FieldsRead.orDefault "injectables" [] hinjectable).next
    ((FieldsRead.orDefault "modules" [] hmodule).next
    ((FieldsRead.orDefault "pipes" [] hpipe).next ((FieldsRead.orDefault "enums" [] henum).next
    ((FieldsRead.orDefault "interfaces" [] hinterface).next
    ((FieldsRead.orDefault "typeAliases" [] halias).next
    ((FieldsRead.orDefault "sourceFiles" [] hfile).last _)))))))))) (by decide)

/-- The text of a catalog denotes its canonical form, and nothing when it nests too deep. -/
theorem ofText?_eq_some_iff {c : Catalog} {j : Json} (h : c.toJson? = some j) (d : Catalog) :
    ofText? j.pretty = some d ↔ j.nesting ≤ nestingLimit ∧ d = c.canon := by
  have hread := (readsAs h).reads nestingLimit d
  rw [seen_written] at hread
  rw [← hread, ofText?, read?_pretty (readsAs h).exact]
  rfl

/-- A catalog and its canonical form are written alike. -/
theorem toJson?_canon (c : Catalog) : c.canon.toJson? = c.toJson? := by
  have hfield : c.canon.fieldOf? = c.fieldOf? := by
    funext category
    rw [fieldOf?, fieldOf?, records_canon, List.mapM_map]
    exact congrArg (fun write? => Option.map _ ((c.records category).mapM write?))
      (funext Record.toJson?_canon)
  rw [toJson?, toJson?, hfield]

/-! ## Coming back as it is -/

/-- Every kind is canonical exactly when no name in the catalog is read as another kind. -/
theorem forall_isCanonical_iff (c : Catalog) :
    (∀ kind ∈ c.kinds, kind.IsCanonical) ↔ ∀ name, .named name ∈ c.kinds → ¬ Kind.IsTaken name := by
  simp only [Kind.isCanonical_iff]
  constructor
  · intro h name hname
    exact h _ hname name rfl
  · rintro h kind hkind name rfl
    exact h name hkind

/-- A catalog agrees with its canonical form only when they are equal, since paths have no kinds. -/
theorem agrees_canon_iff (c : Catalog) : c.agrees c.canon = true ↔ c.canon = c := by
  have hlist : ∀ rs : List Record,
      rs.isEqv (rs.map Record.canon) Record.agrees = true ↔ rs.map Record.canon = rs := by
    intro rs
    rw [map_eq_self_iff]
    induction rs with
    | nil => simp
    | cons r rs ih =>
      rw [List.map_cons, List.isEqv, Bool.and_eq_true, ih, Record.agrees_canon_iff,
        List.forall_mem_cons]
  simp only [agrees, List.all_eq_true, records_canon, hlist]
  constructor
  · intro h
    refine eq_of_records_eq fun category => ?_
    rw [records_canon, h category (mem_all category)]
  · intro h category _
    rw [← records_canon, h]

/-- **The round trip of a catalog through its text.** A catalog has a text when all paths in it have
one, and its canonical form has the same. The text is read as the canonical form, unless it nests
deeper than 127 levels; so it is read as the catalog itself, or as one that agrees with it, exactly
when it nests no deeper and no name in the catalog is read as another kind. -/
theorem ofText?_toText? (c : Catalog) :
    (c.toText?.isSome = true ↔ ∀ r ∈ c.allRecords, r.filepath.text?.isSome = true) ∧
      c.canon.toText? = c.toText? ∧
      ∀ text, c.toText? = some text → ∃ j, c.toJson? = some j ∧ text = j.pretty ∧
        ofText? text = (if j.nesting ≤ 127 then some c.canon else none) ∧
        (ofText? text = some c ↔
          j.nesting ≤ 127 ∧ ∀ name, .named name ∈ c.kinds → ¬ Kind.IsTaken name) ∧
        ((ofText? text).any c.agrees = true ↔
          j.nesting ≤ 127 ∧ ∀ name, .named name ∈ c.kinds → ¬ Kind.IsTaken name) := by
  refine ⟨?_, congrArg (Option.map Json.pretty) c.toJson?_canon, fun text htext => ?_⟩
  · rw [toText?, Option.isSome_map, isSome_toJson?_iff]
  obtain ⟨j, hj, rfl⟩ := Option.map_eq_some_iff.1 htext
  have hread : ofText? j.pretty = if j.nesting ≤ 127 then some c.canon else none := by
    apply Option.ext
    intro d
    rw [ofText?_eq_some_iff hj]
    show j.nesting ≤ 127 ∧ d = c.canon ↔ _
    by_cases hle : j.nesting ≤ 127
    · simp [hle, eq_comm]
    · simp [hle]
  refine ⟨j, hj, rfl, hread, ?_, ?_⟩
  · rw [ofText?_eq_some_iff hj, eq_comm, canon_eq_self_iff, forall_isCanonical_iff]
    rfl
  · rw [hread, ← forall_isCanonical_iff, ← canon_eq_self_iff, ← agrees_canon_iff]
    by_cases hle : j.nesting ≤ 127
    · simp [hle]
    · simp [hle]

/-- A catalog with the alias `type A = any`, where `any` is taken for a name. -/
def anyByName : Catalog :=
  empty.append (.typeAlias {
    identifier := "A", filepath := "a.ts", typeParameters := [], type := .leaf (.named "any") })

/-- Such a catalog has a text, which is read, but as the catalog with the kind `any`. -/
theorem ofText?_toText?_anyByName :
    ∃ text, anyByName.toText? = some text ∧ ofText? text = some anyByName.canon ∧
      ofText? text ≠ some anyByName := by
  obtain ⟨hsome, -, hread⟩ := ofText?_toText? anyByName
  have hpaths : ∀ r ∈ anyByName.allRecords, r.filepath.text?.isSome = true := by
    decide +kernel
  obtain ⟨text, htext⟩ := Option.isSome_iff_exists.1 (hsome.2 hpaths)
  obtain ⟨j, hj, -, hcanon, hself, -⟩ := hread text htext
  have hnesting : anyByName.toJson?.map nesting = some 4 := by
    decide +kernel
  rw [hj, Option.map_some, Option.some_inj] at hnesting
  refine ⟨text, htext, ?_, fun heq => ?_⟩
  · rw [hcanon, hnesting]
    rfl
  · have hname : .named "any" ∈ anyByName.kinds := by
      decide +kernel
    exact (hself.1 heq).2 "any" hname (by decide)

end Catalog

end DeclCatalog
