import DeclCatalog.Proofs.DecoratedCodec
import DeclCatalog.Proofs.TextBytes
import DeclCatalog.Record.Basic
import Mathlib.Tactic.SplitIfs

/-!
# The object that a decorated class is written as

The fields of a class and those of what its decorator says share one object. Which fields are there
depends on what is set in either part, and a key of both parts would hide what the decorator says.

- `Text.Before`: the order of texts by their bytes. **It is that of their characters**
  (`Text.bytes_lt_of_lt`).
- `Json.KeysAscend`, `Json.keysAscend_sortKeys`: a value in which every object has its keys in
  ascending order.
- `LeftBiasedUnion`, `Decorated.leftBiasedUnion_sorted`: the fields of two parts in one list, where
  the first part wins; a merged object is such a list.
- `Decorated.IsUnion`, `Decorated.HidesNothing`, `Decorated.hidesNothing_of_apart`: what has names
  of its own is not hidden by a class.
- `decorated_is_left_biased_union`: **every decorated class whose path is a text is written with
  distinct keys, and nothing that one of the five decorators says is hidden**.
- `decorated_may_have_no_json`: a class whose path is no text is not written.
-/

namespace DeclCatalog

/-! ## The order of bytes -/

namespace Text

/-- Whether a text comes before another by their bytes. -/
def Before (s t : String) : Prop :=
  bytes s < bytes t

/-- A smaller number is smaller in the first of its digits that differs, to the base 64. -/
theorem digits_of_lt {m n : Nat} (h : m < n) :
    m / 262144 < n / 262144 ∨ m / 262144 = n / 262144 ∧ (m / 4096 % 64 < n / 4096 % 64 ∨
      m / 4096 % 64 = n / 4096 % 64 ∧ (m / 64 % 64 < n / 64 % 64 ∨
        m / 64 % 64 = n / 64 % 64 ∧ m % 64 < n % 64)) := by
  have hm : m / 4096 = m / 64 / 64 := by omega
  have hn : n / 4096 = n / 64 / 64 := by omega
  have hm' : m / 262144 = m / 64 / 64 / 64 := by omega
  have hn' : n / 262144 = n / 64 / 64 / 64 := by omega
  rw [hm, hn, hm', hn']
  omega

/-- Of two characters, the smaller one has the smaller bytes, whatever follows. -/
theorem utf8EncodeChar_append_lt {c d : Char} (h : c < d) (u v : List UInt8) :
    String.utf8EncodeChar c ++ u < String.utf8EncodeChar d ++ v := by
  have hlt : c.val.toNat < d.val.toNat := h
  have hmax : d.val.toNat < 1114112 := by
    rcases d.valid with hd | hd
    · exact Nat.lt_trans hd (by decide)
    · exact hd.2
  have hdigits := digits_of_lt hlt
  unfold String.utf8EncodeChar
  dsimp only
  generalize c.val.toNat = m at hlt hdigits ⊢
  generalize d.val.toNat = n at hlt hmax hdigits ⊢
  -- all bytes are written without a remainder
  have hlast : ∀ x, (x % 64 + 128) % 256 = x % 64 + 128 := by omega
  have htwo : ∀ x, (x % 32 + 192) % 256 = x % 32 + 192 := by omega
  have hthree : ∀ x, (x % 16 + 224) % 256 = x % 16 + 224 := by omega
  have hm : (m / 262144 % 8 + 240) % 256 = m / 262144 + 240 := by omega
  have hn : (n / 262144 % 8 + 240) % 256 = n / 262144 + 240 := by omega
  -- one case for each pair of lengths; a longer character has a greater first byte
  split_ifs <;> simp only [List.cons_append, List.nil_append, List.cons_lt_cons_iff,
    UInt8.lt_iff_toNat_lt, ← UInt8.toNat_inj, UInt8.toNat_ofNat', Nat.reducePow, hlast, htwo,
    hthree, hm, hn] <;> omega

theorem flatMap_utf8EncodeChar_lt {cs ds : List Char} (h : cs < ds) :
    cs.flatMap String.utf8EncodeChar < ds.flatMap String.utf8EncodeChar := by
  induction cs generalizing ds with
  | nil =>
    cases ds with
    | nil => cases h
    | cons d ds =>
      have hne : String.utf8EncodeChar d ≠ [] := by
        unfold String.utf8EncodeChar
        dsimp only
        split_ifs <;> exact List.cons_ne_nil _ _
      obtain ⟨b, bs, hbytes⟩ := List.exists_cons_of_ne_nil hne
      rw [List.flatMap_nil, List.flatMap_cons, hbytes]
      exact List.Lex.nil
  | cons c cs ih =>
    cases ds with
    | nil => cases h
    | cons d ds =>
      rw [List.flatMap_cons, List.flatMap_cons]
      rcases List.cons_lt_cons_iff.1 h with hlt | ⟨rfl, hlt⟩
      · exact utf8EncodeChar_append_lt hlt _ _
      · exact List.append_left_lt (ih hlt)

/-- The order of texts is that of their bytes. -/
theorem bytes_lt_of_lt {s t : String} (h : s < t) : Before s t := by
  rw [Before, bytes_eq_flatMap, bytes_eq_flatMap]
  exact flatMap_utf8EncodeChar_lt h

theorem eq_or_before_of_le {s t : String} (h : s ≤ t) : s = t ∨ Before s t := by
  by_cases hlt : s < t
  · exact .inr (bytes_lt_of_lt hlt)
  · exact .inl (String.le_antisymm h (String.not_lt.1 hlt))

end Text

/-! ## Ascending keys -/

namespace Json

/-- A value in which the keys of every object, at any depth, are in ascending order. -/
inductive KeysAscend : Json → Prop where
  | plain {v : Json} (h : v.nesting = 0) : KeysAscend v
  | arr {items : List Json} (h : ∀ v ∈ items, KeysAscend v) : KeysAscend (.arr items)
  | obj {fields : List (String × Json)}
      (hkeys : (fields.map Prod.fst).Pairwise fun s t => s = t ∨ Text.Before s t)
      (h : ∀ field ∈ fields, KeysAscend field.2) : KeysAscend (.obj fields)

theorem pairwise_insertField (field : String × Json) {fields : List (String × Json)}
    (h : fields.Pairwise fun a b => a.1 ≤ b.1) :
    (insertField field fields).Pairwise fun a b => a.1 ≤ b.1 := by
  induction fields with
  | nil => exact List.pairwise_singleton _ _
  | cons first rest ih =>
    obtain ⟨hfirst, hrest⟩ := List.pairwise_cons.1 h
    rw [insertField]
    by_cases hle : field.1 ≤ first.1
    · rw [if_pos hle, List.pairwise_cons]
      refine ⟨fun b hb => ?_, h⟩
      rcases List.mem_cons.1 hb with rfl | hb
      · exact hle
      · exact String.le_trans hle (hfirst b hb)
    · rw [if_neg hle, List.pairwise_cons]
      refine ⟨fun b hb => ?_, ih hrest⟩
      rcases List.mem_cons.1 ((KeyOrder.insertField_perm field rest).mem_iff.1 hb) with rfl | hb
      · exact (String.le_total first.1 b.1).resolve_right hle
      · exact hfirst b hb

theorem pairwise_sortFields (fields : List (String × Json)) :
    ((sortFields fields).map Prod.fst).Pairwise (· ≤ ·) := by
  rw [List.pairwise_map]
  induction fields with
  | nil => exact List.Pairwise.nil
  | cons field rest ih => exact pairwise_insertField field ih

mutual

theorem keysAscend_sortKeys : ∀ v : Json, v.sortKeys.KeysAscend
  | .arr items => .arr (keysAscend_sortKeysItems items)
  | .obj fields => .obj ((pairwise_sortFields _).imp Text.eq_or_before_of_le) fun field hfield =>
      keysAscend_sortKeysFields fields field ((KeyOrder.sortFields_perm _).mem_iff.1 hfield)
  | .null => .plain rfl
  | .bool _ => .plain rfl
  | .int _ => .plain rfl
  | .decimal _ => .plain rfl
  | .str _ => .plain rfl
  | .unreadable => .plain rfl

theorem keysAscend_sortKeysItems :
    ∀ items : List Json, ∀ v ∈ sortKeysItems items, v.KeysAscend
  | [] => List.forall_mem_nil _
  | item :: items =>
    List.forall_mem_cons.2 ⟨keysAscend_sortKeys item, keysAscend_sortKeysItems items⟩

theorem keysAscend_sortKeysFields :
    ∀ fields : List (String × Json), ∀ field ∈ sortKeysFields fields, field.2.KeysAscend
  | [] => List.forall_mem_nil _
  | (_, value) :: fields =>
    List.forall_mem_cons.2 ⟨keysAscend_sortKeys value, keysAscend_sortKeysFields fields⟩

end

/-- A look-up among the fields whose keys are kept. -/
theorem lookup_filter_keys (keep : String → Bool) (key : String) (fields : List (String × Json)) :
    (fields.filter fun field => keep field.1).lookup key =
      if keep key then fields.lookup key else none := by
  induction fields with
  | nil => simp
  | cons field fields ih =>
    by_cases hkeep : keep field.1 = true
    · rw [List.filter_cons, if_pos hkeep, List.lookup_cons, List.lookup_cons, ih]
      by_cases hkey : key = field.1
      · rw [hkey, if_pos hkeep, if_pos hkeep]
      · rw [beq_eq_false_iff_ne.2 hkey]
    · rw [List.filter_cons, if_neg hkeep, ih, List.lookup_cons]
      by_cases hkey : key = field.1
      · rw [hkey, if_neg hkeep, if_neg hkeep]
      · rw [beq_eq_false_iff_ne.2 hkey]

end Json

/-! ## Two parts in one list -/

open Json

/-- Two parts in one list: `own` are the fields of the first part, and `added` those of the second
part that the first one does not have. -/
structure LeftBiasedUnion (base info own added : List (String × Json)) : Prop where
  /-- No key is there twice. -/
  nodup : ((own ++ added).map Prod.fst).Nodup
  mem_own : ∀ key, key ∈ own.map Prod.fst ↔ key ∈ base.map Prod.fst
  mem_added : ∀ key, key ∈ added.map Prod.fst ↔
    key ∈ info.map Prod.fst ∧ key ∉ base.map Prod.fst
  own_ascend : (own.map Prod.fst).Pairwise Text.Before
  added_ascend : (added.map Prod.fst).Pairwise Text.Before
  /-- The objects inside the values are in ascending order too. -/
  values_ascend : ∀ field ∈ own ++ added, field.2.KeysAscend
  /-- The value of a key is that of the first part, or else that of the second. -/
  lookup : ∀ key, (own ++ added).lookup key =
    ((base.lookup key).or (info.lookup key)).map sortKeys

section

variable {fields : List (String × Json)} (h : (fields.map Prod.fst).Nodup)

include h

theorem nodup_sorted : ((sorted fields).map Prod.fst).Nodup :=
  (keys_sorted fields).nodup_iff.2 h

theorem ascend_sorted : ((sorted fields).map Prod.fst).Pairwise Text.Before := by
  have hle : ((sorted fields).map Prod.fst).Pairwise (· ≤ ·) := pairwise_sortFields _
  refine (hle.and (nodup_sorted h)).imp fun {s t} ⟨hst, hne⟩ => ?_
  exact (Text.eq_or_before_of_le hst).resolve_left hne

theorem lookup_sorted (key : String) :
    (sorted fields).lookup key = (fields.lookup key).map sortKeys := by
  have hkeys : ((sortKeysFields fields).map Prod.fst).Nodup := by
    rwa [sortKeysFields_eq_arrange, keys_arrangeFields]
  rw [sorted, lookup_perm (KeyOrder.sortFields_perm _) hkeys, sortKeysFields_eq_map]
  exact lookup_map_values sortKeys key fields

end

theorem mem_sorted {fields : List (String × Json)} {field : String × Json} (h : field ∈ fields) :
    (field.1, field.2.sortKeys) ∈ sorted fields := by
  rw [sorted, (KeyOrder.sortFields_perm _).mem_iff, sortKeysFields_eq_map]
  exact List.mem_map.2 ⟨field, h, rfl⟩

theorem keysAscend_of_mem_sorted {fields : List (String × Json)} {field : String × Json}
    (h : field ∈ sorted fields) : field.2.KeysAscend :=
  keysAscend_sortKeysFields fields field ((KeyOrder.sortFields_perm _).mem_iff.1 h)

theorem ClassRecord.nodup_keys {c : ClassRecord} {path : String}
    (hpath : c.filepath.text? = some path) : ((c.fieldsAt path).map Prod.fst).Nodup :=
  (c.fieldsRead KeyOrder.written hpath).keys.nodup (by decide)

namespace Decorated

/-- The fields of the second part that the first one does not have. -/
def added (base info : List (String × Json)) : List (String × Json) :=
  (sorted info).filter fun field => !((sorted base).map Prod.fst).contains field.1

theorem not_contains_sorted_iff {base : List (String × Json)} {key : String} :
    (!((sorted base).map Prod.fst).contains key) = true ↔ key ∉ base.map Prod.fst := by
  rw [Bool.not_eq_true', ← Bool.not_eq_true, List.contains_iff_mem, (keys_sorted base).mem_iff]

/-- A merged object is the union of its parts. -/
theorem leftBiasedUnion_sorted {base info : List (String × Json)}
    (hbase : (base.map Prod.fst).Nodup) (hinfo : (info.map Prod.fst).Nodup) :
    LeftBiasedUnion base info (sorted base) (added base info) := by
  have hsublist : ((added base info).map Prod.fst).Sublist ((sorted info).map Prod.fst) :=
    List.filter_sublist.map _
  have hadded : ∀ key, key ∈ (added base info).map Prod.fst ↔
      key ∈ info.map Prod.fst ∧ key ∉ base.map Prod.fst := by
    intro key
    have hfilter : (added base info).map Prod.fst = ((sorted info).map Prod.fst).filter
        fun key => !((sorted base).map Prod.fst).contains key := by
      rw [List.filter_map]
      rfl
    rw [hfilter, List.mem_filter, not_contains_sorted_iff, (keys_sorted info).mem_iff]
  have hown : ∀ key, key ∈ (sorted base).map Prod.fst ↔ key ∈ base.map Prod.fst :=
    fun key => (keys_sorted base).mem_iff
  refine {
    nodup := ?_
    mem_own := hown
    mem_added := hadded
    own_ascend := ascend_sorted hbase
    added_ascend := (ascend_sorted hinfo).sublist hsublist
    values_ascend := ?_
    lookup := ?_ }
  · rw [List.map_append, List.nodup_append]
    refine ⟨nodup_sorted hbase, (nodup_sorted hinfo).sublist hsublist, ?_⟩
    rintro key hkey _ hkey' rfl
    exact ((hadded key).1 hkey').2 ((hown key).1 hkey)
  · intro field hfield
    rcases List.mem_append.1 hfield with hfield | hfield
    · exact keysAscend_of_mem_sorted hfield
    · exact keysAscend_of_mem_sorted (List.mem_filter.1 hfield).1
  · intro key
    rw [List.lookup_append, lookup_sorted hbase, added,
      lookup_filter_keys (fun key => !((sorted base).map Prod.fst).contains key),
      lookup_sorted hinfo, Option.map_or]
    by_cases hkey : key ∈ base.map Prod.fst
    · -- the first part has the key, so what the second part has does not matter
      obtain ⟨field, hfield, rfl⟩ := List.mem_map.1 hkey
      rw [(lookup_eq_some_iff_mem hbase).2 hfield]
      rfl
    · rw [if_pos (not_contains_sorted_iff.2 hkey)]

variable {Info : Type} (infoFields : Info → List (String × Json)) (d : Decorated Info)

/-- Whether a decorated class is written as the union of its two parts. -/
def IsUnion : Prop :=
  ∃ base own added, d.base.toJson? = some (.obj base) ∧
    d.toJson? infoFields = some (.obj (own ++ added)) ∧
    LeftBiasedUnion base (infoFields d.info) own added

/-- Whether, beyond that, everything that the decorator says is written, with its own value. -/
def HidesNothing : Prop :=
  ∃ base own added, d.base.toJson? = some (.obj base) ∧
    d.toJson? infoFields = some (.obj (own ++ added)) ∧
    LeftBiasedUnion base (infoFields d.info) own added ∧
    ∀ field ∈ infoFields d.info, (field.1, field.2.sortKeys) ∈ added

variable {infoFields d}

/-- Both written forms, where the text of the path is `path`. -/
theorem toJson?_eq_union {path : String} (hpath : d.base.filepath.text? = some path) :
    d.base.toJson? = some (.obj (d.base.fieldsAt path)) ∧
      d.toJson? infoFields = some (.obj
        (sorted (d.base.fieldsAt path) ++ added (d.base.fieldsAt path) (infoFields d.info))) := by
  rw [ClassRecord.toJson?, toJson?, hpath]
  exact ⟨rfl, rfl⟩

theorem isUnion_of_isSome (hpath : d.base.filepath.text?.isSome = true)
    (hinfo : ((infoFields d.info).map Prod.fst).Nodup) : d.IsUnion infoFields := by
  obtain ⟨path, hpath⟩ := Option.isSome_iff_exists.1 hpath
  obtain ⟨hbase, hjson⟩ := toJson?_eq_union hpath
  exact ⟨_, _, _, hbase, hjson, leftBiasedUnion_sorted (ClassRecord.nodup_keys hpath) hinfo⟩

/-- What has names of its own is not hidden by a class. -/
theorem hidesNothing_of_apart {names : List String} (hpath : d.base.filepath.text?.isSome = true)
    (hkeys : ((infoFields d.info).map Prod.fst).Sublist names) (hnames : names.Nodup)
    (hapart : ∀ name ∈ names, name ∉ ClassRecord.fieldNames) : d.HidesNothing infoFields := by
  obtain ⟨path, hpath⟩ := Option.isSome_iff_exists.1 hpath
  obtain ⟨hbase, hjson⟩ := toJson?_eq_union hpath
  have hclassKeys := (d.base.fieldsRead KeyOrder.written hpath).keys
  have hunion := leftBiasedUnion_sorted (ClassRecord.nodup_keys hpath) (hkeys.nodup hnames)
  refine ⟨_, _, _, hbase, hjson, hunion, fun field hfield => ?_⟩
  have hname : field.1 ∈ names := hkeys.subset (List.mem_map_of_mem hfield)
  have hnot : field.1 ∉ (d.base.fieldsAt path).map Prod.fst := fun hclass =>
    hapart field.1 hname (hclassKeys.subset hclass)
  exact List.mem_filter.2 ⟨mem_sorted hfield, not_contains_sorted_iff.2 hnot⟩

end Decorated

/-- **A decorated class is written as the left-biased union of its two parts.** It can be written
exactly when its path has a text. Then, whatever is written of the decorator, as long as it is an
object, the fields of the class come first and those that the class does not have come after them,
both in the ascending order of the bytes of their keys. No key is there twice, and its value is that
of the class if the class has the key. Of what the five decorators say nothing is hidden: every
field of it is written. -/
theorem decorated_is_left_biased_union :
    (∀ {Info : Type} (infoFields : Info → List (String × Json)) (d : Decorated Info),
      (d.toJson? infoFields).isSome = d.base.filepath.text?.isSome) ∧
    (∀ {Info : Type} (infoFields : Info → List (String × Json)) (d : Decorated Info),
      d.base.filepath.text?.isSome = true → ((infoFields d.info).map Prod.fst).Nodup →
        d.IsUnion infoFields) ∧
    (∀ d : Decorated ComponentInfo, d.base.filepath.text?.isSome = true →
      d.HidesNothing ComponentInfo.fields) ∧
    (∀ d : Decorated DirectiveInfo, d.base.filepath.text?.isSome = true →
      d.HidesNothing DirectiveInfo.fields) ∧
    (∀ d : Decorated InjectableInfo, d.base.filepath.text?.isSome = true →
      d.HidesNothing InjectableInfo.fields) ∧
    (∀ d : Decorated ModuleInfo, d.base.filepath.text?.isSome = true →
      d.HidesNothing ModuleInfo.fields) ∧
    (∀ d : Decorated PipeInfo, d.base.filepath.text?.isSome = true →
      d.HidesNothing PipeInfo.fields) := by
  let o := KeyOrder.written
  refine ⟨fun _ _ => Option.isSome_map, fun _ d => Decorated.isUnion_of_isSome, ?_, ?_, ?_, ?_, ?_⟩
  · intro d hpath
    exact Decorated.hidesNothing_of_apart hpath (ComponentInfo.fieldsRead o d.info).keys (by decide)
      (by decide)
  · intro d hpath
    exact Decorated.hidesNothing_of_apart hpath (DirectiveInfo.fieldsRead o d.info).keys (by decide)
      (by decide)
  · intro d hpath
    exact Decorated.hidesNothing_of_apart hpath (InjectableInfo.fieldsRead o d.info).keys
      (by decide) (by decide)
  · intro d hpath
    exact Decorated.hidesNothing_of_apart hpath (ModuleInfo.fieldsRead o d.info).keys (by decide)
      (by decide)
  · intro d hpath
    exact Decorated.hidesNothing_of_apart hpath (PipeInfo.fieldsRead o d.info).keys (by decide)
      (by decide)

/-- A class `FooComponent` with what an unknown decorator says, one key of which a class has. -/
def collidingClass (path : Path) : Decorated (List (String × Json)) where
  base := {
    identifier := "FooComponent", filepath := path, typeParameters := []
    superclass := none, interfaces := [], decorators := [], constructorParameters := []
    properties := [], methods := [], getters := [], setters := [] }
  info := [("identifier", .str "ignored"), ("extra", .bool true)]

/-- Where both parts have a key, the value of the class is written. -/
theorem decorated_is_left_biased_union_colliding :
    let d := collidingClass "src/foo.component.ts"
    d.base.filepath.text?.isSome = true ∧ (d.info.map Prod.fst).Nodup ∧
      ∃ fields, d.toJson? id = some (.obj fields) ∧ (fields.map Prod.fst).Nodup ∧
        fields.lookup "identifier" = some (.str "FooComponent") ∧
        fields.lookup "extra" = some (.bool true) := by
  intro d
  have htext : d.base.filepath.text? = some "src/foo.component.ts" := Path.text?_ofText _
  have hpath : d.base.filepath.text?.isSome = true := by rw [htext, Option.isSome_some]
  have hinfo : (d.info.map Prod.fst).Nodup := by decide
  obtain ⟨base, own, added, hbase, hjson, hunion⟩ :=
    decorated_is_left_biased_union.2.1 id d hpath hinfo
  rw [ClassRecord.toJson?, htext, Option.map_some] at hbase
  obtain rfl := Json.obj.inj (Option.some.inj hbase)
  refine ⟨hpath, hinfo, own ++ added, hjson, hunion.nodup, ?_, ?_⟩
  · rw [hunion.lookup]
    rfl
  · rw [hunion.lookup]
    rfl

/-- A class whose path is no text cannot be written, whatever its decorator says. -/
theorem decorated_may_have_no_json :
    let d := collidingClass latinPath
    (d.info.map Prod.fst).Nodup ∧ d.toJson? id = none := by
  intro d
  have hinfo : (d.info.map Prod.fst).Nodup := by decide
  have hnone : d.toJson? id = none := by
    rw [Decorated.toJson?, show d.base.filepath.text? = none from text?_latinPath, Option.map_none]
  exact ⟨hinfo, hnone⟩

end DeclCatalog
