import Mathlib.Data.List.Basic

/-!
# Children by the part they play

The bodies of classes and of interfaces are read alike: each child plays one part, what it gives is
decided by that part, and there is one list for each part. So a list holds what the children of its
part give, in source order, whatever the children between them are.

- `filterMap_parts_eq`: the entries of one kind are those of the children that play one part.
- `filter_flatMap_parts_eq`: the same for what is said of the children.
-/

namespace DeclCatalog

section

variable {Child Part Entry Given : Type} [DecidableEq Part] {sortOf : Child → Part}
  {sort : Part} {given : Child → Given}

theorem filterMap_parts_eq {entryAs : Child → Part → Option Entry} {part? : Entry → Option Given}
    (h : ∀ c s, (entryAs c s).bind part? = if s = sort then some (given c) else none)
    (children : List Child) :
    (children.filterMap fun c => entryAs c (sortOf c)).filterMap part? =
      (children.filter fun c => sortOf c = sort).map given := by
  simp only [List.filterMap_filterMap, h]
  induction children with
  | nil => rfl
  | cons c children ih =>
    by_cases hsort : sortOf c = sort
    · simp [hsort, ih]
    · simp [hsort, ih]

/-- What is kept of what is said, where of a child that plays the part one thing is kept. -/
theorem filter_flatMap_parts_eq {said : Child → List Given} {kept : Given → Bool}
    (h : ∀ c, (said c).filter kept = if sortOf c = sort then [given c] else [])
    (children : List Child) :
    (children.flatMap said).filter kept =
      (children.filter fun c => sortOf c = sort).map given := by
  induction children with
  | nil => rfl
  | cons c children ih =>
    rw [List.flatMap_cons, List.filter_append, h, ih]
    by_cases hsort : sortOf c = sort
    · rw [if_pos hsort, List.filter_cons_of_pos (by simpa using hsort)]
      rfl
    · rw [if_neg hsort, List.filter_cons_of_neg (by simpa using hsort)]
      rfl

end

end DeclCatalog
