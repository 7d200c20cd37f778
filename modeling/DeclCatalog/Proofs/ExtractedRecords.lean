import DeclCatalog.Proofs.CatalogRoundTrip
import DeclCatalog.Proofs.CollectedTerms
import DeclCatalog.Proofs.FileByFile
import DeclCatalog.Proofs.WellFormedTerms

/-!
# What is extracted is well-formed

Every term of a record is collected and every collected term is well-formed, so the records of a
file are made of well-formed terms; and the records of a run are those of its files.

- `Collected.wellFormed`: a term that a collector puts into a record is well-formed.
- `exists_visit_of_mem_records`, `wellFormed_of_mem_records`: the records of a file.
- `mem_allRecords_iff`, `isSome_toText?_iff`: the records of a run are those of its files, so
  whether it has a text is a matter of the files' paths.
- `canon_eq_self_of_extractUnder`, `exists_text_of_nesting_le`: the catalog of a run is canonical,
  so its text is read back when it does not nest too deep.
- `extraction_wellFormed`: what that means for the parts of a record, and for the text of a catalog.
-/

namespace DeclCatalog

/-! ## Records -/

theorem isCanonical_superclassKind (src : Source) (value : Node) :
    (superclassKind src value).IsCanonical := by
  unfold superclassKind
  split
  · exact Kind.isCanonical_ofText _
  · exact Kind.isCanonical_ofText _
  · exact Kind.isCanonical_of_ne_named nofun

theorem wellFormed_extendsTarget {src : Source} {limit : Nat} {clause : Node} {target : TypeTerm}
    (h : (extendsTarget src limit clause).value = some target) : target.WellFormed := by
  unfold extendsTarget at h
  cases hvalue : clause.child? "value" with
  | none =>
    rw [hvalue] at h
    cases h
  | some value =>
    rw [hvalue] at h
    have hkind := isCanonical_superclassKind src value
    have hargs : ∀ t ∈ (Logged.traverse (typeOf src limit)
        (clause.childrenIn "type_arguments")).value, t.WellFormed :=
      Logged.forall_mem_traverse (wellFormed_resolveType src limit (limit + 1)) _
    obtain rfl := Option.some.inj h
    split
    · exact TypeTerm.wellFormed_leaf hkind
    · exact TypeTerm.wellFormed_composite hkind hargs

/-- Every term that a collector puts into a record is well-formed. -/
theorem Collected.wellFormed {src : Source} {limit : Nat} {v : ValueTerm}
    (h : Collected src limit v) : v.WellFormed := by
  cases h with
  | type n => exact ValueTerm.wellFormed_plain (wellFormed_resolveType src limit (limit + 1) n)
  | value n => exact wellFormed_resolveValue src limit (limit + 1) n
  | superclass htarget => exact ValueTerm.wellFormed_plain (wellFormed_extendsTarget htarget)
  | untyped => exact ValueTerm.wellFormed_plain TypeTerm.wellFormed_unknown

/-- Every record of a file is the record of a site of its tree, whatever the deadline. -/
theorem exists_visit_of_mem_records {expired : Deadline} {src : Source} {root : Node}
    {config : Config} {r : Record} (hr : r ∈ (classifyUnder expired src root config).records) :
    ∃ site, (visit src config site).value = some r := by
  unfold classifyUnder at hr
  dsimp only at hr
  split at hr
  · rw [classify_eq_visitInOrder, records_visitInOrder] at hr
    obtain ⟨site, -, hvisit⟩ := List.mem_filterMap.1 hr
    exact ⟨site, hvisit⟩
  · cases hr

/-- A record of a file has the file's path. -/
theorem filepath_of_mem_records {expired : Deadline} {src : Source} {root : Node}
    {config : Config} {r : Record} (hr : r ∈ (classifyUnder expired src root config).records) :
    r.filepath = src.path := by
  obtain ⟨site, hvisit⟩ := exists_visit_of_mem_records hr
  exact filepath_visit hvisit

theorem wellFormed_of_mem_records {expired : Deadline} {src : Source} {root : Node}
    {config : Config} {r : Record} (hr : r ∈ (classifyUnder expired src root config).records) :
    ∀ v ∈ r.terms, v.WellFormed := by
  obtain ⟨site, hvisit⟩ := exists_visit_of_mem_records hr
  exact fun v hv => (allCollected_visit hvisit v hv).wellFormed

/-- Every kind in a record of a file is canonical. -/
theorem isCanonical_of_mem_records {expired : Deadline} {src : Source} {root : Node}
    {config : Config} {r : Record} (hr : r ∈ (classifyUnder expired src root config).records) :
    ∀ kind ∈ r.kinds, kind.IsCanonical := by
  intro kind hkind
  obtain ⟨v, hv, hkind⟩ := List.mem_flatMap.1 hkind
  exact (wellFormed_of_mem_records hr v hv).isCanonical_of_mem_kinds hkind

/-! ## Catalogs -/

/-- The records of a run are those of its files. -/
theorem mem_allRecords_iff {e : Extractor} {units : List TimedUnit} {o : Outcome}
    (h : extractUnder e units = .ok o) {r : Record} :
    r ∈ o.catalog.allRecords ↔ ∃ u ∈ units, r ∈ (u.output e.config).records := by
  simp only [Catalog.allRecords, List.mem_flatMap, eq_ofFiles_of_extractUnder h,
    Outcome.records_ofFiles, List.mem_filter, List.mem_map]
  constructor
  · rintro ⟨category, -, file, ⟨⟨u, hu, rfl⟩, -⟩, hr, -⟩
    exact ⟨u, hu, hr⟩
  · rintro ⟨u, hu, hr⟩
    -- a file that is out of time has no records, so this one is in time
    have hinTime : (u.output e.config).timedOut = false := by
      rw [FileOutput.timedOut, Option.isSome_eq_false_iff, Option.isNone_iff_eq_none]
      cases htimeout : (u.output e.config).timeout with
      | none => rfl
      | some timeout =>
        rw [records_output_of_timeout htimeout] at hr
        cases hr
    exact ⟨r.category, Catalog.mem_all _, _, ⟨⟨u, hu, rfl⟩, by rw [hinTime]; rfl⟩, hr,
      decide_eq_true rfl⟩

/-- What a run extracts has no kind that is read as another. -/
theorem canon_eq_self_of_extractUnder {e : Extractor} {units : List TimedUnit} {o : Outcome}
    (h : extractUnder e units = .ok o) : o.catalog.canon = o.catalog := by
  rw [Catalog.canon_eq_self_iff]
  intro kind hkind
  obtain ⟨r, hr, hkind⟩ := List.mem_flatMap.1 hkind
  obtain ⟨u, -, hr⟩ := (mem_allRecords_iff h).1 hr
  exact isCanonical_of_mem_records hr kind hkind

/-- A run's catalog has a text when the path of every file that gives a record has one. -/
theorem isSome_toText?_iff {e : Extractor} {units : List TimedUnit} {o : Outcome}
    (h : extractUnder e units = .ok o) :
    o.catalog.toText?.isSome = true ↔ ∀ u ∈ units, (u.output e.config).records ≠ [] →
      u.unit.source.path.text?.isSome = true := by
  rw [Catalog.toText?, Option.isSome_map, Catalog.isSome_toJson?_iff]
  constructor
  · intro hpaths u hu hrecords
    obtain ⟨r, hr⟩ := List.exists_mem_of_ne_nil _ hrecords
    have hpath := hpaths r ((mem_allRecords_iff h).2 ⟨u, hu, hr⟩)
    rwa [filepath_of_mem_records hr] at hpath
  · intro hpaths r hr
    obtain ⟨u, hu, hr⟩ := (mem_allRecords_iff h).1 hr
    rw [filepath_of_mem_records hr]
    exact hpaths u hu (List.ne_nil_of_mem hr)

/-- A run's catalog that can be written and does not nest too deep has a text that is read back as
it was. -/
theorem exists_text_of_nesting_le {e : Extractor} {units : List TimedUnit} {o : Outcome}
    (h : extractUnder e units = .ok o) {j : Json} (hj : o.catalog.toJson? = some j)
    (hnesting : j.nesting ≤ 127) :
    ∃ text, o.catalog.toText? = some text ∧ Catalog.ofText? text = some o.catalog := by
  refine ⟨j.pretty, by rw [Catalog.toText?, hj, Option.map_some], ?_⟩
  rw [Catalog.ofText?_eq_some_iff hj]
  exact ⟨hnesting, (canon_eq_self_of_extractUnder h).symm⟩

/-- **What is extracted is well-formed.** In every record of a file, under any deadline: every kind
is canonical; no type term has both arguments and a literal, and a literal stands only with a kind
that it fits; an array has no keys, and an object has a text for each. So what a run extracts, over
trees or over files on a disk, is read back as it was from the text that is written of it, unless it
nests deeper than a reader goes. -/
theorem extraction_wellFormed :
    (∀ (expired : Deadline) (src : Source) (root : Node) (config : Config),
      ∀ r ∈ (classifyUnder expired src root config).records,
        (∀ kind ∈ r.kinds, kind.IsCanonical) ∧
        ∀ v ∈ r.terms,
          (∀ t ∈ v.typeTerms, (t.args? = none ∨ t.literal? = none) ∧
            ∀ l, t.literal? = some l → l.Fits t.kind) ∧
          ∀ kind members, .group kind members ∈ v.subvalues →
            (kind = .array ∧ ∀ m ∈ members, m.1 = none) ∨
            (kind = .object ∧
              ∀ m ∈ members, ∃ name, m.1 = some (TypeTerm.scalar .string (.text name)))) ∧
    (∀ (e : Extractor) (units : List TimedUnit) (o : Outcome), extractUnder e units = .ok o →
      ∀ j, o.catalog.toJson? = some j → j.nesting ≤ 127 →
        ∃ text, o.catalog.toText? = some text ∧ Catalog.ofText? text = some o.catalog) ∧
    ∀ (e : Extractor) (disk : Disk) (parse : String → Node) (paths : List (Path × Deadline))
      (o : Outcome), extractFilesUnder e disk parse paths = .ok o →
      ∀ j, o.catalog.toJson? = some j → j.nesting ≤ 127 →
        ∃ text, o.catalog.toText? = some text ∧ Catalog.ofText? text = some o.catalog := by
  refine ⟨?_, ?_, ?_⟩
  · intro expired src root config r hr
    refine ⟨isCanonical_of_mem_records hr, fun v hv => ?_⟩
    have hv := wellFormed_of_mem_records hr v hv
    refine ⟨fun t ht => ?_, fun kind members hgroup => (hv _ hgroup).shape⟩
    have ht := hv.isSound_of_mem_typeTerms ht
    exact ⟨ht.exclusive, ht.fits⟩
  · intro e units o hrun j hj hnesting
    exact exists_text_of_nesting_le hrun hj hnesting
  · intro e disk parse paths o hfiles j hj hnesting
    -- unreadable files are counted, but they add nothing to the catalog
    obtain ⟨run, hrun, rfl⟩ := exists_run_of_extractFilesUnder hfiles
    have hread := @exists_text_of_nesting_le e _ run hrun j hj hnesting
    exact hread

end DeclCatalog
