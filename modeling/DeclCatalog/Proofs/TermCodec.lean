import DeclCatalog.Proofs.JsonCodec
import DeclCatalog.Proofs.TermNormal
import DeclCatalog.Term.Codec

/-!
# Terms are read back

Reading what was written of a term gives the term with its kinds made canonical, whatever the order
of the keys.

- `TypeTerm.ofJson?_eq`, `ValueTerm.ofJson?_eq`: the readers without their bound on levels.
- `Literal.codec`, `Kind.codec`, `TypeTerm.codec`, `ValueTerm.codec`: the codecs of terms.
-/

namespace DeclCatalog

open Json

/-! ## Scalars -/

theorem Literal.readsAs (o : KeyOrder) (l : Literal) : l.toJson.ReadsAs o Literal.ofJson? l := by
  cases l with
  | boolean b =>
    refine ⟨Json.noConfusion, rfl, fun levels c => ?_⟩
    simp [Literal.toJson, seen_bool, Literal.ofJson?, nesting, eq_comm]
  | text s =>
    refine ⟨Json.noConfusion, rfl, fun levels c => ?_⟩
    simp [Literal.toJson, seen_str, Literal.ofJson?, nesting, eq_comm]
  | integer n =>
    have hsigned : Word.Signed n.toInt := ⟨n.le_toInt, n.toInt_lt⟩
    have hread : asInt64? (.int n.toInt) = some n := by
      rw [asInt64?, if_pos hsigned, Int64.ofInt_toInt]
    refine ⟨Json.noConfusion, ?_, fun levels c => ?_⟩
    · have hhigh := n.toInt_lt
      simp only [Literal.toJson, isExact, Word.signedBound, Word.unsignedBound, Bool.and_eq_true,
        decide_eq_true_eq]
      exact ⟨n.le_toInt, by omega⟩
    · simp [Literal.toJson, seen_int, Literal.ofJson?, hread, nesting, eq_comm]

theorem Literal.codec (o : KeyOrder) : Codec o Literal.toJson (fun l => l) Literal.ofJson? :=
  ⟨fun _ => rfl, Literal.readsAs o⟩

theorem Kind.codec (o : KeyOrder) : Codec o Kind.toJson Kind.canon Kind.ofJson? where
  write_norm k := by rw [Kind.toJson, Kind.toJson, Kind.text_canon]
  readsAs k := by
    refine ⟨Json.noConfusion, rfl, fun levels c => ?_⟩
    simp [Kind.toJson, seen_str, Kind.ofJson?, asString?, nesting, Kind.canon, eq_comm]

/-! ## A reader asks for values further in -/

theorem nesting_lt_of_mem_record? {names : List String} {j : Json} {fields : Fields}
    (h : j.record? names = some fields) {field : String × Json} (hfield : field ∈ fields) :
    field.2.nesting < j.nesting := by
  cases j with
  | obj all =>
    rw [record?, knownFields?] at h
    split at h
    · cases h
      exact Nat.lt_succ_of_le (nesting_le_nestingFields (List.mem_filter.1 hfield).1)
    · cases h
  | arr items =>
    rw [record?] at h
    split at h
    · cases h
      exact Nat.lt_succ_of_le (nesting_le_nestingItems (List.of_mem_zip hfield).2)
    · cases h
  | _ => cases h

variable {α β : Type}

theorem bind_record?_congr {names : List String} {j : Json} {body body' : Fields → Option β}
    (h : ∀ fields : Fields, (∀ field ∈ fields, field.2.nesting < j.nesting) →
      body fields = body' fields) :
    (j.record? names).bind body = (j.record? names).bind body' := by
  cases hrecord : j.record? names with
  | none => rfl
  | some fields => exact h fields fun field hfield => nesting_lt_of_mem_record? hrecord hfield

section Congr

variable {read? read?' : Json → Option α} {fields : Fields}
  (h : ∀ field ∈ fields, read? field.2 = read?' field.2)

include h

theorem lookup_congr {name : String} {v : Json} (hv : fields.lookup name = some v) :
    read? v = read?' v := by
  obtain ⟨before, after, rfl, -⟩ := List.lookup_eq_some_iff.1 hv
  exact h (name, v) (by simp)

theorem required?_congr (name : String) :
    fields.required? name read? = fields.required? name read?' := by
  unfold Fields.required?
  cases hv : fields.lookup name with
  | some v => exact lookup_congr h hv
  | none => rfl

theorem optional?_congr (name : String) :
    fields.optional? name read? = fields.optional? name read?' := by
  unfold Fields.optional?
  cases hv : fields.lookup name with
  | none => rfl
  | some v =>
    have hread := congrArg (Option.map some) (lookup_congr h hv)
    cases v with
    | null => rfl
    | _ => exact hread

theorem orDefault?_congr (name : String) (absent : α) :
    fields.orDefault? name absent read? = fields.orDefault? name absent read?' := by
  unfold Fields.orDefault?
  cases hv : fields.lookup name with
  | none => rfl
  | some v => exact lookup_congr h hv

end Congr

theorem mapM_congr_of_mem {read? read?' : Json → Option α} {items : List Json}
    (h : ∀ v ∈ items, read? v = read?' v) : items.mapM read? = items.mapM read?' := by
  induction items with
  | nil => rfl
  | cons v items ih =>
    obtain ⟨hv, hitems⟩ := List.forall_mem_cons.1 h
    rw [List.mapM_cons, List.mapM_cons, hv, ih hitems]

theorem asList?_congr {read? read?' : Json → Option α} {v : Json}
    (h : ∀ w : Json, w.nesting < v.nesting → read? w = read?' w) :
    asList? read? v = asList? read?' v := by
  cases v with
  | arr items =>
    exact mapM_congr_of_mem fun w hw => h w (Nat.lt_succ_of_le (nesting_le_nestingItems hw))
  | _ => rfl

/-! ## Type terms -/

namespace TypeTerm

theorem readsInside_term? : ReadsInside term? where
  congr h := by
    refine bind_record?_congr fun fields hfields => ?_
    have hargs := fun field hfield => asList?_congr fun w hw =>
      h w (Nat.lt_trans hw (hfields field hfield))
    rw [optional?_congr hargs]
  flat {read? j} hj := by cases j <;> simp_all [term?, record?, nesting]

/-- A type term is read with the same reader for its arguments. -/
theorem ofJson?_eq (j : Json) : ofJson? j = term? ofJson? j :=
  readNested_eq readsInside_term? j

/-- The arguments of a term as they are written. -/
def argsJson (args : List TypeTerm) : Json :=
  .arr (args.map toJson)

theorem toJson_mk (kind : Kind) (args : Option (List TypeTerm)) (literal : Option Literal) :
    (mk kind args literal).toJson = .obj (field "kind" kind.toJson ++
      fieldOf? "args" argsJson args ++ fieldOf? "literal" Literal.toJson literal) := by
  cases args with
  | none => rfl
  | some args => rw [toJson, toJsonList_eq_map]; rfl

theorem toJson_canon (t : TypeTerm) : t.canon.toJson = t.toJson := by
  induction t using argsInduction with
  | mk kind args literal ih =>
    have hargs : fieldOf? "args" argsJson (args.map (List.map canon)) =
        fieldOf? "args" argsJson args := by
      cases args with
      | none => rfl
      | some args =>
        have hmap : (args.map canon).map toJson = args.map toJson := by
          rw [List.map_map]
          exact List.map_congr_left (ih args rfl)
        simp only [Option.map_some, fieldOf?, argsJson, hmap]
    rw [canon_mk, toJson_mk, toJson_mk, hargs, (Kind.codec KeyOrder.written).write_norm]

theorem readsAs_toJson (o : KeyOrder) (t : TypeTerm) : t.toJson.ReadsAs o ofJson? t.canon := by
  induction t using argsInduction with
  | mk kind args literal ih =>
    rw [toJson_mk, canon_mk, show ofJson? = term? ofJson? from funext ofJson?_eq,
      List.append_assoc]
    have hargs := FieldsRead.optional "args" fun ts hts => readsAs_list (ih ts hts)
    exact readsAs_record (((Kind.codec o).required "kind" kind).next
      (hargs.next (((Literal.codec o).plainOptional "literal" literal).last _))) (by decide)

theorem codec (o : KeyOrder) : Codec o toJson canon ofJson? :=
  ⟨toJson_canon, readsAs_toJson o⟩

end TypeTerm

/-! ## Value terms -/

namespace ValueTerm

section ReadsInside

variable {value? value?' : Json → Option ValueTerm} {j : Json}
  (h : ∀ v : Json, v.nesting < j.nesting → value? v = value?' v)

include h

theorem member?_congr : member? value? j = member? value?' j := by
  refine bind_record?_congr fun fields hfields => ?_
  rw [required?_congr fun field hfield => h field.2 (hfields field hfield)]

theorem group?_congr : group? value? j = group? value?' j := by
  refine bind_record?_congr fun fields hfields => ?_
  have hmembers : ∀ field ∈ fields,
      asList? (member? value?) field.2 = asList? (member? value?') field.2 := by
    intro field hfield
    refine asList?_congr fun w hw => member?_congr fun v hv => h v ?_
    exact Nat.lt_trans (Nat.lt_trans hv hw) (hfields field hfield)
  rw [orDefault?_congr hmembers]

theorem args_congr {fields : Fields} (hfields : ∀ field ∈ fields, field.2.nesting < j.nesting)
    (name : String) : fields.orDefault? name [] (asList? value?) =
      fields.orDefault? name [] (asList? value?') :=
  orDefault?_congr (fun field hfield => asList?_congr fun w hw =>
    h w (Nat.lt_trans hw (hfields field hfield))) name []

theorem call?_congr : call? value? j = call? value?' j := by
  refine bind_record?_congr fun fields hfields => ?_
  rw [required?_congr fun field hfield => h field.2 (hfields field hfield),
    args_congr h hfields]

theorem construct?_congr : construct? value? j = construct? value?' j := by
  refine bind_record?_congr fun fields hfields => ?_
  rw [args_congr h hfields]

end ReadsInside

theorem readsInside_form? : ReadsInside form? where
  congr {value? value?' j} h := by
    unfold form?
    split
    case h_1 form v =>
      have hv : v.nesting < (Json.obj [(form, v)]).nesting := by simp [nesting, nestingFields]
      have hinside : ∀ w : Json, w.nesting < v.nesting → value? w = value?' w := fun w hw =>
        h w (Nat.lt_trans hw hv)
      rw [group?_congr hinside, call?_congr hinside, construct?_congr hinside]
    case h_2 => rfl
  flat {value? j} hj := by
    unfold form?
    split
    · simp [nesting] at hj
    · rfl

/-- A value term is read with the same reader for the values inside it. -/
theorem ofJson?_eq (j : Json) : ofJson? j = form? ofJson? j :=
  readNested_eq readsInside_form? j

/-! The parts of a value as they are written. -/

/-- One member of an array or object literal. -/
def memberFields (m : Member) : List (String × Json) :=
  fieldOf? "key" TypeTerm.toJson m.1 ++ field "value" m.2.toJson

/-- An array or object literal. -/
def groupFields (kind : Kind) (members : List Member) : List (String × Json) :=
  field "kind" kind.toJson ++ field "members" (.arr (members.map fun m => .obj (memberFields m)))

/-- A call. -/
def callFields (callee : ValueTerm) (args : List ValueTerm) : List (String × Json) :=
  field "callee" callee.toJson ++ field "args" (.arr (args.map toJson))

/-- A construction. -/
def constructFields (target : TypeTerm) (typeArgs : List TypeTerm) (args : List ValueTerm) :
    List (String × Json) :=
  field "constructor" target.toJson ++ fieldOfList "typeArgs" TypeTerm.toJson typeArgs ++
    field "args" (.arr (args.map toJson))

theorem toJsonMembers_eq_map (members : List Member) :
    toJsonMembers members = members.map fun m => .obj (memberFields m) := by
  induction members with
  | nil => rfl
  | cons m members ih => rw [toJsonMembers, ih, List.map_cons, memberFields]

theorem toJson_group (kind : Kind) (members : List Member) :
    (group kind members).toJson = .obj (field "structure" (.obj (groupFields kind members))) := by
  rw [toJson, toJsonMembers_eq_map, groupFields]

theorem toJson_call (callee : ValueTerm) (args : List ValueTerm) :
    (call callee args).toJson = .obj (field "call" (.obj (callFields callee args))) := by
  rw [toJson, toJsonList_eq_map, callFields]

theorem toJson_construct (target : TypeTerm) (typeArgs : List TypeTerm) (args : List ValueTerm) :
    (construct target typeArgs args).toJson =
      .obj (field "new" (.obj (constructFields target typeArgs args))) := by
  rw [toJson, toJsonList_eq_map, constructFields]

theorem memberFields_canon {m : Member} (h : m.2.canon.toJson = m.2.toJson) :
    memberFields (m.1.map TypeTerm.canon, m.2.canon) = memberFields m := by
  rw [memberFields, memberFields, (TypeTerm.codec KeyOrder.written).fieldOf?_norm, h]

theorem toJson_canon (v : ValueTerm) : v.canon.toJson = v.toJson := by
  have hlist : ∀ {vs : List ValueTerm}, (∀ v ∈ vs, v.canon.toJson = v.toJson) →
      (canonList vs).map toJson = vs.map toJson := by
    intro vs ih
    rw [canonList_eq_map, List.map_map]
    exact List.map_congr_left ih
  induction v using partsInduction with
  | plain term => rw [canon, toJson, toJson, TypeTerm.toJson_canon]
  | group kind members ih =>
    have hmembers : (canonMembers members).map (fun m => Json.obj (memberFields m)) =
        members.map fun m => .obj (memberFields m) := by
      rw [canonMembers_eq_map, List.map_map]
      exact List.map_congr_left fun m hm => congrArg Json.obj (memberFields_canon (ih m hm))
    rw [canon, toJson_group, toJson_group, groupFields, groupFields, hmembers,
      (Kind.codec KeyOrder.written).write_norm]
  | call callee args hcallee hargs =>
    rw [canon, toJson_call, toJson_call, callFields, callFields, hlist hargs, hcallee]
  | construct target typeArgs args hargs =>
    have ht := TypeTerm.codec KeyOrder.written
    rw [canon, toJson_construct, toJson_construct, constructFields, constructFields, hlist hargs,
      ht.write_norm, ht.fieldOfList_norm]
  | access operand name => rfl

/-! Reading each form of value. -/

theorem readsAs_member {o : KeyOrder} {m : Member} (h : m.2.toJson.ReadsAs o ofJson? m.2.canon) :
    (Json.obj (memberFields m)).ReadsAs o (member? ofJson?)
      (m.1.map TypeTerm.canon, m.2.canon) :=
  readsAs_record (((TypeTerm.codec o).optional "key" m.1).next
    ((FieldsRead.required "value" h).last _)) (by decide)

theorem readsAs_group {o : KeyOrder} {kind : Kind} {members : List Member}
    (h : ∀ m ∈ members, m.2.toJson.ReadsAs o ofJson? m.2.canon) :
    (Json.obj (groupFields kind members)).ReadsAs o (group? ofJson?)
      (.group kind.canon (canonMembers members)) := by
  rw [canonMembers_eq_map]
  have hmembers := readsAs_list fun m hm => readsAs_member (h m hm)
  exact readsAs_record (((Kind.codec o).required "kind" kind).next
    ((FieldsRead.orDefault "members" [] hmembers).last _)) (by decide)

theorem readsAs_call {o : KeyOrder} {callee : ValueTerm} {args : List ValueTerm}
    (hcallee : callee.toJson.ReadsAs o ofJson? callee.canon)
    (h : ∀ v ∈ args, v.toJson.ReadsAs o ofJson? v.canon) :
    (Json.obj (callFields callee args)).ReadsAs o (call? ofJson?)
      (.call callee.canon (canonList args)) := by
  rw [canonList_eq_map]
  exact readsAs_record ((FieldsRead.required "callee" hcallee).next
    ((FieldsRead.orDefault "args" [] (readsAs_list h)).last _)) (by decide)

theorem readsAs_construct {o : KeyOrder} {target : TypeTerm} {typeArgs : List TypeTerm}
    {args : List ValueTerm} (h : ∀ v ∈ args, v.toJson.ReadsAs o ofJson? v.canon) :
    (Json.obj (constructFields target typeArgs args)).ReadsAs o (construct? ofJson?)
      (.construct target.canon (typeArgs.map TypeTerm.canon) (canonList args)) := by
  rw [canonList_eq_map, constructFields, List.append_assoc]
  exact readsAs_record (((TypeTerm.codec o).required "constructor" target).next
    (((TypeTerm.codec o).many "typeArgs" typeArgs).next
      ((FieldsRead.orDefault "args" [] (readsAs_list h)).last _))) (by decide)

theorem readsAs_access (o : KeyOrder) (operand name : String) :
    (Json.obj (field "expression" (.str operand) ++ field "name" (.str name))).ReadsAs o access?
      (.access operand name) :=
  readsAs_record (((Codec.str o).required "expression" operand).next
    (((Codec.str o).required "name" name).last _)) (by decide)

theorem readsAs_plain (o : KeyOrder) (term : TypeTerm) :
    term.toJson.ReadsAs o (fun j => (TypeTerm.ofJson? j).map .plain)
      (ValueTerm.plain term.canon) := by
  have h := TypeTerm.readsAs_toJson o term
  refine ⟨h.ne_null, h.exact, fun levels c => ?_⟩
  rw [Option.map_eq_some_iff]
  constructor
  · rintro ⟨t, ht, rfl⟩
    obtain ⟨hle, rfl⟩ := (h.reads levels t).1 ht
    exact ⟨hle, rfl⟩
  · rintro ⟨hle, rfl⟩
    exact ⟨term.canon, (h.reads levels _).2 ⟨hle, rfl⟩, rfl⟩

/-- A value is read through the value of its only key. -/
theorem readsAs_form {o : KeyOrder} {inner? : Json → Option ValueTerm} {form : String} {j : Json}
    {b : ValueTerm} (h : j.ReadsAs o inner? b)
    (hform : ∀ v, form? ofJson? (.obj [(form, v)]) = inner? v) :
    (Json.obj (field form j)).ReadsAs o ofJson? b := by
  refine ⟨Json.noConfusion, (FieldsRead.required form h).exact, fun levels c => ?_⟩
  rw [ofJson?_eq]
  cases levels with
  | zero => simp [form?, nesting]
  | succ levels =>
    have hperm : o.order [(form, j.arrange o)] = [(form, j.arrange o)] :=
      List.perm_singleton.1 (o.perm _)
    have hseen : seenFields o levels (field form j) = [(form, j.seen o levels)] := by
      rw [seenFields, field, arrangeFields, arrangeFields, hperm]
      rfl
    have hnesting : (Json.obj (field form j)).nesting = j.nesting + 1 := by
      rw [nesting, field, nestingFields, nestingFields, Nat.max_zero]
    rw [seen_obj_succ, hseen, hform, h.reads levels c, hnesting, Nat.add_le_add_iff_right]

theorem readsAs_toJson (o : KeyOrder) (v : ValueTerm) : v.toJson.ReadsAs o ofJson? v.canon := by
  induction v using partsInduction with
  | plain term =>
    rw [toJson, canon]
    exact readsAs_form (readsAs_plain o term) fun _ => rfl
  | group kind members ih =>
    rw [toJson_group, canon]
    exact readsAs_form (readsAs_group ih) fun _ => rfl
  | call callee args hcallee hargs =>
    rw [toJson_call, canon]
    exact readsAs_form (readsAs_call hcallee hargs) fun _ => rfl
  | construct target typeArgs args hargs =>
    rw [toJson_construct, canon]
    exact readsAs_form (readsAs_construct hargs) fun _ => rfl
  | access operand name =>
    rw [toJson, canon]
    exact readsAs_form (readsAs_access o operand name) fun _ => rfl

theorem codec (o : KeyOrder) : Codec o toJson canon ofJson? :=
  ⟨toJson_canon, readsAs_toJson o⟩

end ValueTerm

end DeclCatalog
