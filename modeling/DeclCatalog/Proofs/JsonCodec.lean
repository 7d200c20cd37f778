import DeclCatalog.Json.Encode
import DeclCatalog.Path
import DeclCatalog.Proofs.JsonOrder
import DeclCatalog.Proofs.JsonText
import Mathlib.Data.List.Forall2

/-!
# Codecs

A codec is a writer with a reader that takes back what was written. What is taken back is normal: a
codec comes with the function that makes a value normal, and normal values are read back as they
are.

- `Json.ReadsAs`: what a reader gives for a value, seen in a given order of keys and down to any
  number of levels. The reader succeeds **exactly when nothing was cut off**.
- `Codec`: a writer, a normal form and a reader that belong together.
- `PartialCodec`: the same for a writer that may fail. It says nothing of what cannot be written.
- `FieldsRead`: the same for the fields of a record, which are known by their names alone and may
  stand among others. There is one rule for each sort of field, and `FieldsRead.bind` puts fields
  one after the other.
- `readsAs_record`, `readsAs_items`: records and lists.
- `readNested_eq`: a reader for values inside values is one step of reading that is given itself.
-/

namespace DeclCatalog

open Json

variable {α β : Type} {o : KeyOrder}

/-- A value is read as `b` whenever all of it is seen, and refused otherwise. -/
structure Json.ReadsAs (o : KeyOrder) (read? : Json → Option α) (j : Json) (b : α) : Prop where
  ne_null : j ≠ .null
  exact : j.isExact = true
  reads : ∀ (levels : Nat) (c : α), read? (j.seen o levels) = some c ↔ j.nesting ≤ levels ∧ c = b

/-- A writer and a reader that takes back what was written, in normal form, when the keys of objects
are seen in the order `o`. -/
structure Codec (o : KeyOrder) (write : α → Json) (norm : α → α) (read? : Json → Option α) :
    Prop where
  write_norm : ∀ a, write (norm a) = write a
  readsAs : ∀ a, (write a).ReadsAs o read? (norm a)

/-- A writer that may fail, and a reader that takes back what was written, in normal form. -/
structure PartialCodec (o : KeyOrder) (write? : α → Option Json) (norm : α → α)
    (read? : Json → Option α) : Prop where
  write_norm : ∀ a, write? (norm a) = write? a
  readsAs : ∀ a j, write? a = some j → j.ReadsAs o read? (norm a)

/-! ## Plain values -/

theorem Codec.str (o : KeyOrder) : Codec o Json.str (fun s => s) asString? where
  write_norm _ := rfl
  readsAs s := ⟨by simp, rfl, by simp [seen_str, asString?, nesting, eq_comm]⟩

/-- The text of a path is read as the path. -/
theorem Path.readsAs (o : KeyOrder) {path : Path} {text : String} (h : path.text? = some text) :
    (Json.str text).ReadsAs o Path.ofJson? path where
  ne_null := by simp
  exact := rfl
  reads levels p := by
    obtain rfl := Path.text?_eq_some_iff.1 h
    simp [seen_str, Path.ofJson?, asString?, nesting, eq_comm]

/-- The name `é.ts` in Latin-1: a path that is no text, and so cannot be written. -/
def latinPath : Path where
  bytes := ⟨#[0xE9, 0x2E, 0x74, 0x73]⟩

theorem text?_latinPath : latinPath.text? = none := by
  decide +kernel

theorem Codec.bool (o : KeyOrder) : Codec o Json.bool (fun b => b) asBool? where
  write_norm _ := rfl
  readsAs b := ⟨by simp, rfl, by simp [seen_bool, asBool?, nesting, eq_comm]⟩

/-- A choice is read by its name. -/
theorem Codec.choice (o : KeyOrder) {name : α → String} {ofName? : String → Option α}
    (h : ∀ a, ofName? (name a) = some a) :
    Codec o (fun a => .str (name a)) (fun a => a) (asChoice? ofName?) where
  write_norm _ := rfl
  readsAs a := ⟨by simp, rfl, by simp [seen_str, asChoice?, h, nesting, eq_comm]⟩

/-! ## Lists -/

theorem isExactItems_iff {items : List Json} :
    isExactItems items = true ↔ ∀ v ∈ items, v.isExact = true := by
  induction items with
  | nil => simp [isExactItems]
  | cons v items ih => rw [isExactItems, Bool.and_eq_true, ih, List.forall_mem_cons]

/-- Reading item by item. -/
theorem mapM_seen_eq_some_iff {read? : Json → Option α} {js : List Json} {bs : List α}
    (h : List.Forall₂ (Json.ReadsAs o read?) js bs) (levels : Nat) (cs : List α) :
    (js.map (seen o levels)).mapM read? = some cs ↔
      (∀ j ∈ js, j.nesting ≤ levels) ∧ cs = bs := by
  induction h generalizing cs with
  | nil => simp [eq_comm]
  | cons hhead _ ih =>
    simp only [List.map_cons, List.mapM_cons, Option.bind_eq_bind, Option.bind_eq_some_iff,
      Option.pure_def, Option.some.injEq, hhead.reads levels, ih, List.forall_mem_cons]
    constructor
    · rintro ⟨_, ⟨hle, rfl⟩, _, ⟨hall, rfl⟩, rfl⟩
      exact ⟨⟨hle, hall⟩, rfl⟩
    · rintro ⟨⟨hle, hall⟩, rfl⟩
      exact ⟨_, ⟨hle, rfl⟩, _, ⟨hall, rfl⟩, rfl⟩

/-- An array is read when every item is. -/
theorem readsAs_items {read? : Json → Option α} {js : List Json} {bs : List α}
    (h : List.Forall₂ (Json.ReadsAs o read?) js bs) :
    (Json.arr js).ReadsAs o (asList? read?) bs where
  ne_null := by simp
  exact := by
    have hboth := h.imp fun _ _ hread => And.intro hread.exact hread
    exact isExactItems_iff.2 ((List.forall₂_and_left js bs).1 hboth).1
  reads levels cs := by
    cases levels with
    | zero => simp [asList?, nesting]
    | succ levels =>
      rw [seen_arr_succ, asList?, nesting, Nat.add_le_add_iff_right, nestingItems_le_iff]
      exact mapM_seen_eq_some_iff h levels cs

/-- A list is read when every item is. -/
theorem readsAs_list {write : α → Json} {norm : α → α} {read? : Json → Option α}
    {items : List α} (h : ∀ a ∈ items, (write a).ReadsAs o read? (norm a)) :
    (Json.arr (items.map write)).ReadsAs o (asList? read?) (items.map norm) := by
  refine readsAs_items ?_
  rw [List.forall₂_map_left_iff, List.forall₂_map_right_iff, List.forall₂_same]
  exact h

theorem Codec.list {write : α → Json} {norm : α → α} {read? : Json → Option α}
    (h : Codec o write norm read?) :
    Codec o (fun items => .arr (items.map write)) (List.map norm) (asList? read?) where
  write_norm items := by simp [Function.comp_def, h.write_norm]
  readsAs items := readsAs_list fun a _ => h.readsAs a

/-- Items are written in a row when each of them can be. -/
theorem mapM_eq_some_iff_forall₂ {f : α → Option β} {items : List α} {results : List β} :
    items.mapM f = some results ↔ List.Forall₂ (fun a b => f a = some b) items results := by
  induction items generalizing results with
  | nil => simp [eq_comm]
  | cons a items ih =>
    simp only [List.mapM_cons, Option.bind_eq_bind, Option.bind_eq_some_iff, Option.pure_def,
      Option.some.injEq, List.forall₂_cons_left_iff, ih]
    constructor
    · rintro ⟨b, hb, rest, hrest, rfl⟩
      exact ⟨b, rest, hb, hrest, rfl⟩
    · rintro ⟨b, rest, hb, hrest, rfl⟩
      exact ⟨b, hb, rest, hrest, rfl⟩

/-- Each result is that of an item. -/
theorem exists_of_mem_mapM {f : α → Option β} {items : List α} {results : List β}
    (h : items.mapM f = some results) {b : β} (hb : b ∈ results) : ∃ a ∈ items, f a = some b := by
  induction mapM_eq_some_iff_forall₂.1 h with
  | nil => cases hb
  | cons hhead htail ih =>
    rcases List.mem_cons.1 hb with rfl | hb
    · exact ⟨_, List.mem_cons_self, hhead⟩
    · obtain ⟨a, ha, hfa⟩ := ih (mapM_eq_some_iff_forall₂.2 htail) hb
      exact ⟨a, List.mem_cons_of_mem _ ha, hfa⟩

theorem isSome_mapM_iff {f : α → Option β} {items : List α} :
    (items.mapM f).isSome = true ↔ ∀ a ∈ items, (f a).isSome = true := by
  induction items with
  | nil => simp
  | cons a items ih =>
    rw [List.forall_mem_cons, ← ih, List.mapM_cons]
    cases f a <;> cases items.mapM f <;> simp

namespace PartialCodec

variable {write? : α → Option Json} {norm : α → α} {read? : Json → Option α}

theorem readsAs_list (h : PartialCodec o write? norm read?) {items : List α} {js : List Json}
    (hjs : items.mapM write? = some js) :
    (Json.arr js).ReadsAs o (asList? read?) (items.map norm) := by
  refine readsAs_items ?_
  rw [List.forall₂_map_right_iff]
  exact (mapM_eq_some_iff_forall₂.1 hjs).flip.imp fun a j => h.readsAs j a

end PartialCodec

/-! ## The fields of a record -/

/-- The known fields `gs` show what stands in `fs` under the given names. -/
def Shows (o : KeyOrder) (levels : Nat) (names : List String) (fs : List (String × Json))
    (gs : Fields) : Prop :=
  ∀ name ∈ names, gs.lookup name = (fs.lookup name).map (seen o levels)

/-- The fields `fs` of a record are read as `b`: every key is one of `names` in their order, and
reading goes by the names alone, as long as they differ. -/
structure FieldsRead (o : KeyOrder) (names : List String) (fs : List (String × Json))
    (read? : Fields → Option α) (b : α) : Prop where
  keys : (fs.map Prod.fst).Sublist names
  exact : isExactFields fs = true
  reads : names.Nodup → ∀ (levels : Nat) (gs : Fields), Shows o levels names fs gs →
    ∀ c, read? gs = some c ↔ nestingFields fs ≤ levels ∧ c = b

theorem isExactFields_append (fields fields' : List (String × Json)) :
    isExactFields (fields ++ fields') = (isExactFields fields && isExactFields fields') := by
  induction fields with
  | nil => simp [isExactFields]
  | cons field fields ih =>
    rw [List.cons_append, isExactFields, isExactFields, ih, Bool.and_assoc]

theorem lookup_eq_none_of_not_mem {names : List String} {fields : List (String × Json)}
    (h : (fields.map Prod.fst).Sublist names) {name : String} (hname : name ∉ names) :
    fields.lookup name = none := by
  rw [List.lookup_eq_none_iff]
  intro field hfield
  have hmem : field.1 ∈ names := h.subset (List.mem_map_of_mem hfield)
  rw [bne_iff_ne]
  rintro rfl
  exact hname hmem

namespace FieldsRead

/-- Fields one after the other. -/
theorem bind {names names' : List String} {fs fs' : List (String × Json)}
    {read? : Fields → Option α} {read?' : α → Fields → Option β} {a : α} {b : β}
    (h : FieldsRead o names fs read? a) (h' : FieldsRead o names' fs' (read?' a) b) :
    FieldsRead o (names ++ names') (fs ++ fs') (fun gs => (read? gs).bind fun x => read?' x gs)
      b where
  keys := by
    rw [List.map_append]
    exact h.keys.append h'.keys
  exact := by rw [isExactFields_append, h.exact, h'.exact, Bool.and_self]
  reads hnodup levels gs hgs c := by
    obtain ⟨hnames, hnames', hapart⟩ := List.nodup_append.1 hnodup
    -- neither part writes under the names of the other, so each is shown as if it stood alone
    have hshows : Shows o levels names fs gs := by
      intro name hname
      have hnone := lookup_eq_none_of_not_mem h'.keys fun hmem => hapart name hname name hmem rfl
      rw [hgs name (List.mem_append_left _ hname), List.lookup_append, hnone, Option.or_none]
    have hshows' : Shows o levels names' fs' gs := by
      intro name hname
      have hnone := lookup_eq_none_of_not_mem h.keys fun hmem => hapart name hmem name hname rfl
      rw [hgs name (List.mem_append_right _ hname), List.lookup_append, hnone, Option.none_or]
    have hread := h.reads hnames levels gs hshows
    have hread' := h'.reads hnames' levels gs hshows'
    rw [Option.bind_eq_some_iff, nestingFields_append, Nat.max_le]
    constructor
    · rintro ⟨x, hx, hc⟩
      obtain ⟨hle, rfl⟩ := (hread x).1 hx
      obtain ⟨hle', rfl⟩ := (hread' c).1 hc
      exact ⟨⟨hle, hle'⟩, rfl⟩
    · rintro ⟨⟨hle, hle'⟩, rfl⟩
      exact ⟨a, (hread a).2 ⟨hle, rfl⟩, (hread' _).2 ⟨hle', rfl⟩⟩

/-- One more field in front. -/
theorem next {name : String} {names : List String} {fs fs' : List (String × Json)}
    {read? : Fields → Option α} {read?' : α → Fields → Option β} {a : α} {b : β}
    (h : FieldsRead o [name] fs read? a) (h' : FieldsRead o names fs' (read?' a) b) :
    FieldsRead o (name :: names) (fs ++ fs') (fun gs => (read? gs).bind fun x => read?' x gs) b :=
  h.bind h'

/-- What the last field is turned into. -/
theorem last {names : List String} {fs : List (String × Json)} {read? : Fields → Option α} {a : α}
    (h : FieldsRead o names fs read? a) (f : α → β) :
    FieldsRead o names fs (fun gs => (read? gs).bind fun x => some (f x)) (f a) where
  keys := h.keys
  exact := h.exact
  reads hnames levels gs hgs c := by
    have hread := h.reads hnames levels gs hgs
    rw [Option.bind_eq_some_iff]
    constructor
    · rintro ⟨x, hx, hc⟩
      obtain ⟨hle, rfl⟩ := (hread x).1 hx
      exact ⟨hle, (Option.some.inj hc).symm⟩
    · rintro ⟨hle, rfl⟩
      exact ⟨a, (hread a).2 ⟨hle, rfl⟩, rfl⟩

/-! One rule for each sort of field. -/

variable {read? : Json → Option α}

/-- A field that is left out, whatever a reader makes of that. -/
theorem absent {name : String} {field? : Fields → Option α} {b : α}
    (h : ∀ gs : Fields, gs.lookup name = none → field? gs = some b) :
    FieldsRead o [name] [] field? b where
  keys := List.nil_sublist _
  exact := rfl
  reads _ levels gs hgs c := by
    rw [h gs (hgs name List.mem_cons_self)]
    simp [nestingFields, eq_comm]

/-- A field that is there, for a reader that goes by its value. -/
theorem present {name : String} {j : Json} {b : α} (h : j.ReadsAs o read? b)
    {field? : Fields → Option β} (wrap : α → β)
    (hfield : ∀ gs : Fields, ∀ v, v ≠ .null → gs.lookup name = some v →
      field? gs = (read? v).map wrap) :
    FieldsRead o [name] (field name j) field? (wrap b) where
  keys := List.Sublist.refl _
  exact := by rw [field, isExactFields, isExactFields, h.exact, Bool.and_self]
  reads _ levels gs hgs c := by
    have hlookup : gs.lookup name = some (j.seen o levels) := by
      rw [hgs name List.mem_cons_self, field, List.lookup_cons_self, Option.map_some]
    have hnesting : nestingFields (field name j) = j.nesting := Nat.max_zero _
    rw [hfield gs _ (seen_ne_null h.ne_null o levels) hlookup, Option.map_eq_some_iff, hnesting]
    constructor
    · rintro ⟨a, ha, rfl⟩
      obtain ⟨hle, rfl⟩ := (h.reads levels a).1 ha
      exact ⟨hle, rfl⟩
    · rintro ⟨hle, rfl⟩
      exact ⟨b, (h.reads levels b).2 ⟨hle, rfl⟩, rfl⟩

theorem required (name : String) {j : Json} {b : α} (h : j.ReadsAs o read? b) :
    FieldsRead o [name] (field name j) (fun gs => gs.required? name read?) b := by
  refine present h id fun gs v _ hv => ?_
  rw [Fields.required?, hv, Option.map_id_apply]

theorem orDefault (name : String) (absent : α) {j : Json} {b : α} (h : j.ReadsAs o read? b) :
    FieldsRead o [name] (field name j) (fun gs => gs.orDefault? name absent read?) b := by
  refine present h id fun gs v _ hv => ?_
  rw [Fields.orDefault?, hv, Option.map_id_apply]

theorem optional (name : String) {write : α → Json} {norm : α → α} {x : Option α}
    (h : ∀ a ∈ x, (write a).ReadsAs o read? (norm a)) :
    FieldsRead o [name] (fieldOf? name write x) (fun gs => gs.optional? name read?)
      (x.map norm) := by
  cases x with
  | none =>
    refine absent fun gs hgs => ?_
    rw [Fields.optional?, hgs]
    rfl
  | some a =>
    refine present (h a rfl) some fun gs v hnull hv => ?_
    rw [Fields.optional?, hv]
    cases v with
    | null => exact absurd rfl hnull
    | _ => rfl

theorem list (name : String) {write : α → Json} {norm : α → α} {items : List α}
    (h : ∀ a ∈ items, (write a).ReadsAs o read? (norm a)) :
    FieldsRead o [name] (fieldOfList name write items)
      (fun gs => gs.orDefault? name [] (asList? read?)) (items.map norm) := by
  cases items with
  | nil =>
    refine absent fun gs hgs => ?_
    rw [Fields.orDefault?, hgs]
    rfl
  | cons a items => exact orDefault name [] (readsAs_list h)

theorem flag (o : KeyOrder) (name : String) (b : Bool) :
    FieldsRead o [name] (flag name b) (fun gs => gs.orDefault? name false asBool?) b := by
  cases b with
  | false =>
    refine absent fun gs hgs => ?_
    rw [Fields.orDefault?, hgs]
  | true => exact orDefault name false ((Codec.bool o).readsAs true)

end FieldsRead

/-! ## Records -/

/-- The fields with a name among `names`. -/
def Fields.among (names : List String) (fields : Fields) : Fields :=
  fields.filter fun field => names.contains field.1

theorem lookup_among {names : List String} (fields : Fields) {name : String} (h : name ∈ names) :
    (fields.among names).lookup name = fields.lookup name := by
  induction fields with
  | nil => rfl
  | cons field fields ih =>
    obtain ⟨key, v⟩ := field
    by_cases hkey : name = key
    · subst hkey
      simp [Fields.among, h]
    · have hbeq : (name == key) = false := beq_eq_false_iff_ne.2 hkey
      by_cases hmem : key ∈ names
      · simpa [Fields.among, hmem, List.lookup_cons, hbeq] using ih
      · simpa [Fields.among, hmem, List.lookup_cons, hbeq] using ih

/-- Without repeated keys the known fields are those with a known name. -/
theorem knownFields?_eq_among {names : List String} {fields : List (String × Json)}
    (h : (fields.map Prod.fst).Nodup) :
    knownFields? names fields = some (Fields.among names fields) := by
  have hsub : ((Fields.among names fields).map Prod.fst).Sublist (fields.map Prod.fst) :=
    List.filter_sublist.map Prod.fst
  exact if_pos (hsub.nodup h)

/-- A record that is written as an object is read by its keys. -/
theorem readsAs_record {names : List String} {fields : List (String × Json)}
    {read? : Fields → Option α} {b : α} (h : FieldsRead o names fields read? b)
    (hnames : names.Nodup) :
    (Json.obj fields).ReadsAs o (fun j => (j.record? names).bind read?) b where
  ne_null := by simp
  exact := h.exact
  reads levels c := by
    cases levels with
    | zero => simp [record?, nesting]
    | succ levels =>
      have hnodup : (fields.map Prod.fst).Nodup := h.keys.nodup hnames
      have hnodup' := (keys_seenFields o levels fields).nodup_iff.2 hnodup
      rw [seen_obj_succ, nesting, Nat.add_le_add_iff_right]
      show (knownFields? names _).bind read? = some c ↔ _
      rw [knownFields?_eq_among hnodup', Option.bind_some]
      refine h.reads hnames levels _ (fun name hname => ?_) c
      rw [lookup_among _ hname, lookup_seenFields hnodup]

/-- A codec for a record, by its fields. -/
theorem Codec.record {names : List String} {fields : α → List (String × Json)} {norm : α → α}
    {read? : Fields → Option α} (hnames : names.Nodup) (hnorm : ∀ a, fields (norm a) = fields a)
    (h : ∀ a, FieldsRead o names (fields a) read? (norm a)) :
    Codec o (fun a => .obj (fields a)) norm (fun j => (j.record? names).bind read?) where
  write_norm a := congrArg Json.obj (hnorm a)
  readsAs a := readsAs_record (h a) hnames

/-- A record with a path is written when its path has a text, and read by its fields. -/
theorem PartialCodec.record {names : List String} {path : α → Path}
    {fieldsAt : α → String → List (String × Json)} {norm : α → α} {read? : Fields → Option α}
    (hnames : names.Nodup) (hpath : ∀ a, path (norm a) = path a)
    (hnorm : ∀ a text, fieldsAt (norm a) text = fieldsAt a text)
    (h : ∀ a text, (path a).text? = some text →
      FieldsRead o names (fieldsAt a text) read? (norm a)) :
    PartialCodec o (fun a => (path a).text?.map fun text => .obj (fieldsAt a text)) norm
      (fun j => (j.record? names).bind read?) where
  write_norm a := by simp only [hpath, hnorm]
  readsAs a j hj := by
    obtain ⟨text, htext, rfl⟩ := Option.map_eq_some_iff.1 hj
    exact readsAs_record (h a text htext) hnames

/-! ## The fields that a codec reads

A codec gives each sort of field its rule. Where every value is normal, so is every list. -/

namespace Codec

variable {write : α → Json} {norm : α → α} {read? : Json → Option α}

theorem required (h : Codec o write norm read?) (name : String) (a : α) :
    FieldsRead o [name] (field name (write a)) (fun gs => gs.required? name read?) (norm a) :=
  .required name (h.readsAs a)

theorem orDefault (h : Codec o write norm read?) (name : String) (absent a : α) :
    FieldsRead o [name] (field name (write a)) (fun gs => gs.orDefault? name absent read?)
      (norm a) :=
  .orDefault name absent (h.readsAs a)

theorem optional (h : Codec o write norm read?) (name : String) (x : Option α) :
    FieldsRead o [name] (fieldOf? name write x) (fun gs => gs.optional? name read?) (x.map norm) :=
  .optional name fun a _ => h.readsAs a

theorem many (h : Codec o write norm read?) (name : String) (items : List α) :
    FieldsRead o [name] (fieldOfList name write items)
      (fun gs => gs.orDefault? name [] (asList? read?)) (items.map norm) :=
  .list name fun a _ => h.readsAs a

theorem plainList (h : Codec o write (fun a => a) read?) :
    Codec o (fun items => .arr (items.map write)) (fun items => items) (asList? read?) := by
  have hmap : (fun items : List α => items) = List.map fun a => a := by
    funext items
    exact (List.map_id items).symm
  rw [hmap]
  exact h.list

theorem plainOptional (h : Codec o write (fun a => a) read?) (name : String) (x : Option α) :
    FieldsRead o [name] (fieldOf? name write x) (fun gs => gs.optional? name read?) x := by
  simpa using h.optional name x

theorem plainMany (h : Codec o write (fun a => a) read?) (name : String) (items : List α) :
    FieldsRead o [name] (fieldOfList name write items)
      (fun gs => gs.orDefault? name [] (asList? read?)) items := by
  simpa using h.many name items

/-! A value and its normal form are written alike in every sort of field. -/

theorem fieldOf?_norm (h : Codec o write norm read?) (name : String) (x : Option α) :
    fieldOf? name write (x.map norm) = fieldOf? name write x := by
  cases x with
  | none => rfl
  | some a => simp [fieldOf?, h.write_norm]

theorem fieldOfList_norm (h : Codec o write norm read?) (name : String) (items : List α) :
    fieldOfList name write (items.map norm) = fieldOfList name write items := by
  cases items with
  | nil => rfl
  | cons a items => simp [fieldOfList, h.write_norm]

end Codec

/-! ## Values inside values -/

/-- A step of reading that asks only for values further in. -/
structure ReadsInside (step? : (Json → Option α) → Json → Option α) : Prop where
  congr : ∀ {read? read?' : Json → Option α} {j : Json},
    (∀ v : Json, v.nesting < j.nesting → read? v = read?' v) → step? read? j = step? read?' j
  flat : ∀ {read? : Json → Option α} {j : Json}, j.nesting = 0 → step? read? j = none

/-- More levels than there are make no difference. -/
theorem readLevels_eq_of_le {step? : (Json → Option α) → Json → Option α} (h : ReadsInside step?)
    {m n : Nat} {j : Json} (hm : j.nesting ≤ m) (hn : j.nesting ≤ n) :
    readLevels step? m j = readLevels step? n j := by
  induction m generalizing n j with
  | zero =>
    cases n with
    | zero => rfl
    | succ n => exact (h.flat (Nat.le_zero.1 hm)).symm
  | succ m ih =>
    cases n with
    | zero => exact h.flat (Nat.le_zero.1 hn)
    | succ n => exact h.congr fun v hv => ih (by omega) (by omega)

/-- Reading is one step that is given reading for the values inside. -/
theorem readNested_eq {step? : (Json → Option α) → Json → Option α} (h : ReadsInside step?)
    (j : Json) : readNested step? j = step? (readNested step?) j := by
  have hmore : readNested step? j = readLevels step? (j.nesting + 1) j :=
    readLevels_eq_of_le h (Nat.le_refl _) (Nat.le_succ _)
  rw [hmore]
  exact h.congr fun v hv => readLevels_eq_of_le h (Nat.le_of_lt hv) (Nat.le_refl _)

end DeclCatalog
