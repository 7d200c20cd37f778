import DeclCatalog.Proofs.RecordNormal

/-!
# Laws of a catalog

A catalog is filled by adding records, lists of records and other catalogs, in any order. Every view
of it takes its ten categories one by one, so what is said here is that the views agree: a record is
found in its own category and nowhere else, and it is counted once.

- `Catalog.records_extend`, `Catalog.extend_eq_merge`, `Catalog.merge_assoc`: adding records is
  merging a catalog of them, and merging is associative.
- `Catalog.identifiers_eq_map`, `Catalog.total_append`, `Catalog.total_merge`: what a step does to
  the names and to the number of records.
- `Build`: the ways to fill a catalog. What is merged was filled in the same way.
- `Build.records_catalog`, `Build.total_catalog`: the views of a catalog in terms of all that was
  added.
- `exists_build`: every catalog can be filled.
- `catalog_keeps_every_record`: **no record is lost, doubled or put into another category**.
-/

namespace DeclCatalog

namespace Catalog

/-! ## Adding records -/

/-- Adding records in order adds, in each category, those that belong there. -/
theorem records_extend (c : Catalog) (rs : List Record) (category : Category) :
    (c.extend rs).records category =
      c.records category ++ rs.filter fun r => r.category = category := by
  induction rs generalizing c with
  | nil => rw [extend, List.foldl_nil, List.filter_nil, List.append_nil]
  | cons r rs ih =>
    have hstep : c.extend (r :: rs) = (c.append r).extend rs := rfl
    rw [hstep, ih, records_append, List.append_assoc]
    by_cases hcategory : r.category = category
    · rw [if_pos hcategory, List.filter_cons_of_pos (by simpa using hcategory)]
      rfl
    · rw [if_neg hcategory, List.filter_cons_of_neg (by simpa using hcategory)]
      rfl

/-- Adding records is merging the catalog that they make. -/
theorem extend_eq_merge (c : Catalog) (rs : List Record) :
    c.extend rs = c.merge (empty.extend rs) := by
  refine eq_of_records_eq fun category => ?_
  rw [records_merge, records_extend, records_extend, records_empty, List.nil_append]

@[simp] theorem merge_empty (c : Catalog) : c.merge empty = c := by
  refine eq_of_records_eq fun category => ?_
  rw [records_merge, records_empty, List.append_nil]

@[simp] theorem empty_merge (c : Catalog) : empty.merge c = c := by
  refine eq_of_records_eq fun category => ?_
  rw [records_merge, records_empty, List.nil_append]

theorem merge_assoc (a b c : Catalog) : (a.merge b).merge c = a.merge (b.merge c) := by
  refine eq_of_records_eq fun category => ?_
  simp only [records_merge, List.append_assoc]

/-- Adding two lists of records one after the other is adding the first and merging a catalog of the
second. -/
theorem extend_append (c : Catalog) (rs more : List Record) :
    c.extend (rs ++ more) = (c.extend rs).merge (empty.extend more) := by
  have hstep : c.extend (rs ++ more) = (c.extend rs).extend more := List.foldl_append
  rw [hstep, extend_eq_merge]

/-! ## Names and numbers -/

/-- The names of a category are those of its records. -/
theorem identifiers_eq_map (c : Catalog) (category : Category) :
    c.identifiers category = (c.records category).map Record.identifier := by
  cases category <;> simp [identifiers, records, Record.identifier]

/-- What a category holds belongs there. -/
theorem category_of_mem_records {c : Catalog} {category : Category} {r : Record}
    (h : r ∈ c.records category) : r.category = category := by
  cases category <;> obtain ⟨_, _, rfl⟩ := List.mem_map.1 h <;> rfl

/-- A record is counted in one category. -/
theorem total_append (c : Catalog) (r : Record) : (c.append r).total = c.total + 1 := by
  cases r <;>
    simp only [total, Category.all, List.foldr_cons, List.foldr_nil, len, append,
      List.length_append, List.length_singleton] <;>
    omega

theorem total_merge (c other : Catalog) : (c.merge other).total = c.total + other.total := by
  simp only [total, Category.all, List.foldr_cons, List.foldr_nil, len, merge, List.length_append]
  omega

theorem total_extend (c : Catalog) (rs : List Record) :
    (c.extend rs).total = c.total + rs.length := by
  induction rs generalizing c with
  | nil => rfl
  | cons r rs ih =>
    have hstep : c.extend (r :: rs) = (c.append r).extend rs := rfl
    rw [hstep, ih, total_append, List.length_cons, Nat.add_right_comm, Nat.add_assoc]

/-- A catalog is the one that its own records make. -/
theorem extend_allRecords (c : Catalog) : empty.extend c.allRecords = c := by
  refine eq_of_records_eq fun category => ?_
  rw [records_extend, records_empty, List.nil_append, allRecords, List.filter_flatMap]
  -- of the ten lists only that of the category is kept, and it is kept whole
  have hkept : ∀ other, (c.records other).filter (fun r => r.category = category) =
      if other = category then c.records category else [] := by
    intro other
    by_cases hother : other = category
    · subst hother
      rw [if_pos rfl, List.filter_eq_self]
      exact fun r hr => by simpa using category_of_mem_records hr
    · rw [if_neg hother, List.filter_eq_nil_iff]
      intro r hr
      simpa [category_of_mem_records hr] using hother
  simp only [hkept]
  cases category <;> simp [Category.all]

end Catalog

/-! ## Filling a catalog -/

/-- A way to fill a catalog. -/
inductive Build where
  | start
  | append (before : Build) (r : Record)
  | extend (before : Build) (rs : List Record)
  /-- The catalog that is merged was filled on its own. -/
  | merge (before shard : Build)

namespace Build

/-- The catalog that is filled. -/
def catalog : Build → Catalog
  | .start => Catalog.empty
  | .append before r => before.catalog.append r
  | .extend before rs => before.catalog.extend rs
  | .merge before shard => before.catalog.merge shard.catalog

/-- Every record that was added, in order; those of a merged catalog count where it is merged. -/
def added : Build → List Record
  | .start => []
  | .append before r => before.added ++ [r]
  | .extend before rs => before.added ++ rs
  | .merge before shard => before.added ++ shard.added

/-- A category holds what was added to it, in order. -/
theorem records_catalog (b : Build) (category : Category) :
    b.catalog.records category = b.added.filter fun r => r.category = category := by
  induction b with
  | start => exact Catalog.records_empty category
  | append before r ih =>
    rw [catalog, added, Catalog.records_append, List.filter_append, ih]
    by_cases hcategory : r.category = category <;> simp [hcategory]
  | extend before rs ih => rw [catalog, added, Catalog.records_extend, List.filter_append, ih]
  | merge before shard ih ihShard =>
    rw [catalog, added, Catalog.records_merge, List.filter_append, ih, ihShard]

/-- Every record that was added is counted once. -/
theorem total_catalog (b : Build) : b.catalog.total = b.added.length := by
  induction b with
  | start => rfl
  | append before r ih =>
    rw [catalog, added, Catalog.total_append, List.length_append, ih, List.length_singleton]
  | extend before rs ih => rw [catalog, added, Catalog.total_extend, List.length_append, ih]
  | merge before shard ih ihShard =>
    rw [catalog, added, Catalog.total_merge, List.length_append, ih, ihShard]

end Build

/-- Every catalog can be filled, so a merge of any two is a merge of catalogs that were filled. -/
theorem exists_build (c : Catalog) : ∃ b : Build, b.catalog = c :=
  ⟨.extend .start c.allRecords, c.extend_allRecords⟩

/-- **A catalog keeps every record, in its own category and in order.** However a catalog was
filled, each category holds exactly those of the added records that belong to it, in the order of
adding and as often as they were added; the numbers and the names are those of these records, and
there is no record exactly when none was added. There is no catalog that cannot be filled. Merging
adds the records of each category after those that are there, so it is associative and the empty
catalog changes nothing; and adding two lists is adding the first and merging a catalog of the
second. -/
theorem catalog_keeps_every_record :
    (∀ b : Build,
      (∀ category,
        b.catalog.records category = b.added.filter (fun r => r.category = category) ∧
        b.catalog.len category = (b.catalog.records category).length ∧
        b.catalog.len category = (b.catalog.identifiers category).length ∧
        b.catalog.identifiers category = (b.catalog.records category).map Record.identifier) ∧
      b.catalog.total = b.added.length ∧
      (b.catalog.isEmpty = true ↔ b.added.length = 0)) ∧
    (∀ c : Catalog, ∃ b : Build, b.catalog = c) ∧
    (∀ (c other : Catalog) (category : Category),
      (c.merge other).records category = c.records category ++ other.records category) ∧
    (∀ a b c : Catalog, (a.merge b).merge c = a.merge (b.merge c)) ∧
    (∀ c : Catalog, c.merge Catalog.empty = c ∧ Catalog.empty.merge c = c) ∧
    ∀ (c : Catalog) (rs more : List Record),
      c.extend (rs ++ more) = (c.extend rs).merge (Catalog.empty.extend more) := by
  refine ⟨fun b => ⟨fun category => ⟨b.records_catalog category, ?_, ?_, ?_⟩, b.total_catalog, ?_⟩,
    exists_build, Catalog.records_merge, Catalog.merge_assoc,
    fun c => ⟨c.merge_empty, c.empty_merge⟩, Catalog.extend_append⟩
  · exact (b.catalog.length_records category).symm
  · rw [Catalog.identifiers_eq_map, List.length_map, Catalog.length_records]
  · exact b.catalog.identifiers_eq_map category
  · rw [Catalog.isEmpty, beq_iff_eq, b.total_catalog]

end DeclCatalog
