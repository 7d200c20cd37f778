import DeclCatalog.Json.Decode

/-!
# What a reader sees of a value

A value reaches a reader with the fields of its objects in some order and with the levels below the
nesting limit cut off.

- `KeyOrder`: a way to order the fields of objects; `KeyOrder.written` and `KeyOrder.ascending` are
  the two that occur.
- `Json.arrange`: a value with the fields of every object in a given order. `Json.sortKeys` is the
  ascending one (`Json.sortKeys_eq_arrange`).
- `Json.seen`: a value arranged, then cut.
- `Json.lookup_seen`: **order does not matter to a look-up** in an object without repeated keys.
- `Json.isReadable_cut_iff`: a cut leaves a readable value exactly when it takes nothing away.
-/

namespace DeclCatalog

/-- A way to order the fields of an object. -/
structure KeyOrder where
  order : List (String × Json) → List (String × Json)
  perm : ∀ fields, (order fields).Perm fields

namespace Json

/-! ## Nesting and cuts, one level at a time -/

theorem nestingItems_le_iff {items : List Json} {n : Nat} :
    nestingItems items ≤ n ↔ ∀ v ∈ items, v.nesting ≤ n := by
  induction items with
  | nil => simp [nestingItems]
  | cons v items ih => rw [nestingItems, Nat.max_le, ih, List.forall_mem_cons]

theorem nestingFields_le_iff {fields : List (String × Json)} {n : Nat} :
    nestingFields fields ≤ n ↔ ∀ field ∈ fields, field.2.nesting ≤ n := by
  induction fields with
  | nil => simp [nestingFields]
  | cons field fields ih => rw [nestingFields, Nat.max_le, ih, List.forall_mem_cons]

theorem nestingFields_perm {fields fields' : List (String × Json)} (h : fields.Perm fields') :
    nestingFields fields = nestingFields fields' := by
  apply Nat.le_antisymm
  · exact nestingFields_le_iff.2 fun field hfield =>
      nesting_le_nestingFields (h.mem_iff.1 hfield)
  · exact nestingFields_le_iff.2 fun field hfield =>
      nesting_le_nestingFields (h.mem_iff.2 hfield)

@[simp] theorem nestingFields_append (fields fields' : List (String × Json)) :
    nestingFields (fields ++ fields') = max (nestingFields fields) (nestingFields fields') := by
  induction fields with
  | nil => simp [nestingFields]
  | cons field fields ih => rw [List.cons_append, nestingFields, nestingFields, ih, Nat.max_assoc]

theorem cutItems_eq_map (levels : Nat) (items : List Json) :
    cutItems levels items = items.map (cut levels) := by
  induction items with
  | nil => rfl
  | cons v items ih => rw [cutItems, ih, List.map_cons]

theorem cutFields_eq_map (levels : Nat) (fields : List (String × Json)) :
    cutFields levels fields = fields.map fun field => (field.1, field.2.cut levels) := by
  induction fields with
  | nil => rfl
  | cons field fields ih => rw [cutFields, ih, List.map_cons]

mutual

/-- A readable value stays readable exactly when nothing of it is cut off. -/
theorem isReadable_cut_iff {levels : Nat} {v : Json} (h : v.isReadable = true) :
    (v.cut levels).isReadable = true ↔ v.nesting ≤ levels := by
  match v, levels with
  | .arr items, 0 => simp [cut, isReadable, nesting]
  | .arr items, levels + 1 =>
    rw [isReadable] at h
    rw [cut, isReadable, nesting, Nat.add_le_add_iff_right, isReadableItems_cut_iff h]
  | .obj fields, 0 => simp [cut, isReadable, nesting]
  | .obj fields, levels + 1 =>
    rw [isReadable] at h
    rw [cut, isReadable, nesting, Nat.add_le_add_iff_right, isReadableFields_cut_iff h]
  | .null, _ => simp [cut, isReadable, nesting]
  | .bool _, _ => simp [cut, isReadable, nesting]
  | .int _, _ => simp [cut, isReadable, nesting]
  | .decimal _, _ => simp [cut, isReadable, nesting]
  | .str _, _ => simp [cut, isReadable, nesting]

theorem isReadableItems_cut_iff {levels : Nat} {items : List Json}
    (h : isReadableItems items = true) :
    isReadableItems (cutItems levels items) = true ↔ nestingItems items ≤ levels := by
  match items with
  | [] => simp [cutItems, isReadableItems, nestingItems]
  | item :: items =>
    rw [isReadableItems, Bool.and_eq_true] at h
    rw [cutItems, isReadableItems, nestingItems, Bool.and_eq_true, Nat.max_le,
      isReadable_cut_iff h.1, isReadableItems_cut_iff h.2]

theorem isReadableFields_cut_iff {levels : Nat} {fields : List (String × Json)}
    (h : isReadableFields fields = true) :
    isReadableFields (cutFields levels fields) = true ↔ nestingFields fields ≤ levels := by
  match fields with
  | [] => simp [cutFields, isReadableFields, nestingFields]
  | (key, value) :: fields =>
    rw [isReadableFields, Bool.and_eq_true] at h
    rw [cutFields, isReadableFields, nestingFields, Bool.and_eq_true, Nat.max_le,
      isReadable_cut_iff h.1, isReadableFields_cut_iff h.2]

end

/-! ## Arranging -/

mutual

/-- The value with the fields of every object, at any depth, in a given order. -/
def arrange (o : KeyOrder) : Json → Json
  | .arr items => .arr (arrangeItems o items)
  | .obj fields => .obj (o.order (arrangeFields o fields))
  | other => other

/-- `arrange` of every item. -/
def arrangeItems (o : KeyOrder) : List Json → List Json
  | [] => []
  | item :: rest => item.arrange o :: arrangeItems o rest

/-- `arrange` of every field's value. -/
def arrangeFields (o : KeyOrder) : List (String × Json) → List (String × Json)
  | [] => []
  | (key, value) :: rest => (key, value.arrange o) :: arrangeFields o rest

end

theorem arrangeItems_eq_map (o : KeyOrder) (items : List Json) :
    arrangeItems o items = items.map (arrange o) := by
  induction items with
  | nil => rfl
  | cons v items ih => rw [arrangeItems, ih, List.map_cons]

theorem arrangeFields_eq_map (o : KeyOrder) (fields : List (String × Json)) :
    arrangeFields o fields = fields.map fun field => (field.1, field.2.arrange o) := by
  induction fields with
  | nil => rfl
  | cons field fields ih => rw [arrangeFields, ih, List.map_cons]

mutual

/-- Order has no part in how deep a value nests. -/
theorem nesting_arrange (o : KeyOrder) : ∀ v : Json, (v.arrange o).nesting = v.nesting
  | .arr items => by rw [arrange, nesting, nesting, nestingItems_arrange o items]
  | .obj fields => by
    rw [arrange, nesting, nesting, nestingFields_perm (o.perm _), nestingFields_arrange o fields]
  | .null => rfl
  | .bool _ => rfl
  | .int _ => rfl
  | .decimal _ => rfl
  | .str _ => rfl
  | .unreadable => rfl

theorem nestingItems_arrange (o : KeyOrder) :
    ∀ items : List Json, nestingItems (arrangeItems o items) = nestingItems items
  | [] => rfl
  | item :: items => by
    rw [arrangeItems, nestingItems, nestingItems, nesting_arrange o item,
      nestingItems_arrange o items]

theorem nestingFields_arrange (o : KeyOrder) :
    ∀ fields : List (String × Json), nestingFields (arrangeFields o fields) = nestingFields fields
  | [] => rfl
  | (key, value) :: fields => by
    rw [arrangeFields, nestingFields, nestingFields, nesting_arrange o value,
      nestingFields_arrange o fields]

end

end Json

namespace KeyOrder

/-- The order in which the fields are written. -/
def written : KeyOrder where
  order fields := fields
  perm := List.Perm.refl

theorem insertField_perm (field : String × Json) :
    ∀ fields : List (String × Json), (Json.insertField field fields).Perm (field :: fields)
  | [] => List.Perm.refl _
  | first :: rest => by
    rw [Json.insertField]
    split
    · exact List.Perm.refl _
    · exact ((insertField_perm field rest).cons first).trans (List.Perm.swap field first rest)

theorem sortFields_perm : ∀ fields : List (String × Json), (Json.sortFields fields).Perm fields
  | [] => List.Perm.refl _
  | field :: rest => (insertField_perm field _).trans ((sortFields_perm rest).cons field)

/-- The ascending order of the keys. -/
def ascending : KeyOrder where
  order := Json.sortFields
  perm := sortFields_perm

end KeyOrder

namespace Json

mutual

theorem arrange_written : ∀ v : Json, v.arrange KeyOrder.written = v
  | .arr items => by rw [arrange, arrangeItems_written items]
  | .obj fields => by rw [arrange, arrangeFields_written fields]; rfl
  | .null => rfl
  | .bool _ => rfl
  | .int _ => rfl
  | .decimal _ => rfl
  | .str _ => rfl
  | .unreadable => rfl

theorem arrangeItems_written : ∀ items : List Json, arrangeItems KeyOrder.written items = items
  | [] => rfl
  | item :: items => by rw [arrangeItems, arrange_written item, arrangeItems_written items]

theorem arrangeFields_written :
    ∀ fields : List (String × Json), arrangeFields KeyOrder.written fields = fields
  | [] => rfl
  | (key, value) :: fields => by
    rw [arrangeFields, arrange_written value, arrangeFields_written fields]

end

mutual

theorem sortKeys_eq_arrange : ∀ v : Json, v.sortKeys = v.arrange KeyOrder.ascending
  | .arr items => by rw [sortKeys, arrange, sortKeysItems_eq_arrange items]
  | .obj fields => by rw [sortKeys, arrange, sortKeysFields_eq_arrange fields]; rfl
  | .null => rfl
  | .bool _ => rfl
  | .int _ => rfl
  | .decimal _ => rfl
  | .str _ => rfl
  | .unreadable => rfl

theorem sortKeysItems_eq_arrange :
    ∀ items : List Json, sortKeysItems items = arrangeItems KeyOrder.ascending items
  | [] => rfl
  | item :: items => by
    rw [sortKeysItems, arrangeItems, sortKeys_eq_arrange item, sortKeysItems_eq_arrange items]

theorem sortKeysFields_eq_arrange :
    ∀ fields : List (String × Json), sortKeysFields fields = arrangeFields KeyOrder.ascending fields
  | [] => rfl
  | (key, value) :: fields => by
    rw [sortKeysFields, arrangeFields, sortKeys_eq_arrange value, sortKeysFields_eq_arrange fields]

end

/-! ## Look-ups -/

theorem keys_arrangeFields (o : KeyOrder) (fields : List (String × Json)) :
    (arrangeFields o fields).map Prod.fst = fields.map Prod.fst := by
  rw [arrangeFields_eq_map, List.map_map]
  rfl

theorem keys_cutFields (levels : Nat) (fields : List (String × Json)) :
    (cutFields levels fields).map Prod.fst = fields.map Prod.fst := by
  rw [cutFields_eq_map, List.map_map]
  rfl

/-- A look-up after a change of the values. -/
theorem lookup_map_values (f : Json → Json) (name : String) (fields : List (String × Json)) :
    (fields.map fun field => (field.1, f field.2)).lookup name = (fields.lookup name).map f := by
  induction fields with
  | nil => rfl
  | cons field fields ih =>
    rw [List.map_cons, List.lookup_cons, List.lookup_cons]
    cases h : name == field.1 with
    | true => rfl
    | false => exact ih

/-- Without repeated keys, the value of a key is the one that stands with it. -/
theorem lookup_eq_some_iff_mem {fields : List (String × Json)} (h : (fields.map Prod.fst).Nodup)
    {name : String} {v : Json} : fields.lookup name = some v ↔ (name, v) ∈ fields := by
  induction fields with
  | nil => simp
  | cons field fields ih =>
    obtain ⟨key, value⟩ := field
    rw [List.map_cons, List.nodup_cons] at h
    by_cases hkey : name = key
    · subst hkey
      have hnot : (name, v) ∉ fields := fun hmem => h.1 (List.mem_map.2 ⟨_, hmem, rfl⟩)
      simp [List.lookup_cons_self, hnot, eq_comm]
    · have hbeq : (name == key) = false := beq_eq_false_iff_ne.2 hkey
      simp [List.lookup_cons, hbeq, hkey, ih h.2]

/-- Without repeated keys, order does not matter to a look-up. -/
theorem lookup_perm {fields fields' : List (String × Json)} (h : fields.Perm fields')
    (hnodup : (fields'.map Prod.fst).Nodup) (name : String) :
    fields.lookup name = fields'.lookup name := by
  have hnodup' : (fields.map Prod.fst).Nodup := (h.map Prod.fst).nodup_iff.2 hnodup
  apply Option.ext
  intro v
  rw [lookup_eq_some_iff_mem hnodup, lookup_eq_some_iff_mem hnodup', h.mem_iff]

/-! ## What is seen -/

/-- A value with its fields in a given order, down to a number of levels. -/
def seen (o : KeyOrder) (levels : Nat) (v : Json) : Json :=
  (v.arrange o).cut levels

theorem seen_written (levels : Nat) (v : Json) : v.seen KeyOrder.written levels = v.cut levels := by
  rw [seen, arrange_written]

theorem seen_str (o : KeyOrder) (levels : Nat) (s : String) :
    (Json.str s).seen o levels = .str s := rfl

theorem seen_bool (o : KeyOrder) (levels : Nat) (b : Bool) :
    (Json.bool b).seen o levels = .bool b := rfl

theorem seen_int (o : KeyOrder) (levels : Nat) (n : Int) :
    (Json.int n).seen o levels = .int n := rfl

@[simp] theorem seen_arr_zero (o : KeyOrder) (items : List Json) :
    (Json.arr items).seen o 0 = .unreadable := rfl

@[simp] theorem seen_arr_succ (o : KeyOrder) (levels : Nat) (items : List Json) :
    (Json.arr items).seen o (levels + 1) = .arr (items.map (seen o levels)) := by
  rw [seen, arrange, cut, arrangeItems_eq_map, cutItems_eq_map, List.map_map]
  rfl

/-- The fields of an object as they are seen one level further in. -/
def seenFields (o : KeyOrder) (levels : Nat) (fields : List (String × Json)) : Fields :=
  cutFields levels (o.order (arrangeFields o fields))

@[simp] theorem seen_obj_zero (o : KeyOrder) (fields : List (String × Json)) :
    (Json.obj fields).seen o 0 = .unreadable := rfl

@[simp] theorem seen_obj_succ (o : KeyOrder) (levels : Nat) (fields : List (String × Json)) :
    (Json.obj fields).seen o (levels + 1) = .obj (seenFields o levels fields) := rfl

/-- Nothing that is written is seen as `null` unless it is. -/
theorem seen_ne_null {v : Json} (h : v ≠ .null) (o : KeyOrder) (levels : Nat) :
    v.seen o levels ≠ .null := by
  cases v with
  | null => exact absurd rfl h
  | arr items => cases levels <;> simp
  | obj fields => cases levels <;> simp
  | _ => exact h

theorem keys_seenFields (o : KeyOrder) (levels : Nat) (fields : List (String × Json)) :
    ((seenFields o levels fields).map Prod.fst).Perm (fields.map Prod.fst) := by
  rw [seenFields, keys_cutFields]
  have h := (o.perm (arrangeFields o fields)).map Prod.fst
  rwa [keys_arrangeFields] at h

/-- A field of an object without repeated keys is seen whatever the order is. -/
theorem lookup_seenFields {fields : List (String × Json)} (h : (fields.map Prod.fst).Nodup)
    (o : KeyOrder) (levels : Nat) (name : String) :
    (seenFields o levels fields).lookup name = (fields.lookup name).map (seen o levels) := by
  have hnodup : ((arrangeFields o fields).map Prod.fst).Nodup := by rwa [keys_arrangeFields]
  rw [seenFields, cutFields_eq_map, lookup_map_values, lookup_perm (o.perm _) hnodup,
    arrangeFields_eq_map, lookup_map_values, Option.map_map]
  rfl

end Json

end DeclCatalog
