import DeclCatalog.Proofs.RecordNormal
import DeclCatalog.Proofs.TermCodec

/-!
# Records are read back

Reading what was written of a record gives its canonical form. Each record says by which rule each
of its fields is read, in the order written; the rest is the same for all.

- `codec` of each part and of each record: reading gives what was written, in canonical form.
- `ClassRecord.fieldsRead`: the same for the fields of a class that stand among others.

The codecs of declarations and files are partial: a path without a text cannot be written.
-/

namespace DeclCatalog

open Json

/-! ## Members -/

theorem Parameter.codec (o : KeyOrder) :
    Codec o Parameter.toJson Parameter.canon Parameter.ofJson? := by
  have hs := Codec.str o
  have ht := TypeTerm.codec o
  refine Codec.record (by decide) (fun p => ?_) fun p => ?_
  · simp only [canon, ht.fieldOf?_norm]
  · simp only [ofTexts, List.append_assoc]
    exact (hs.required "identifier" _).next ((ht.optional "type" _).next
      ((FieldsRead.flag o "optional" _).next ((hs.plainMany "decorators" _).last _)))

theorem Property.codec (o : KeyOrder) :
    Codec o Property.toJson Property.canon Property.ofJson? := by
  have hs := Codec.str o
  have ht := TypeTerm.codec o
  have hv := ValueTerm.codec o
  refine Codec.record (by decide) (fun p => ?_) fun p => ?_
  · simp only [canon, ht.fieldOf?_norm, hv.fieldOf?_norm]
  · simp only [ofTexts, List.append_assoc]
    exact (hs.required "name" _).next ((ht.optional "type" _).next
      ((FieldsRead.flag o "optional" _).next ((FieldsRead.flag o "isStatic" _).next
      ((hv.optional "initializer" _).next ((hs.plainMany "decorators" _).last _)))))

theorem Method.codec (o : KeyOrder) : Codec o Method.toJson Method.canon Method.ofJson? := by
  have hs := Codec.str o
  have ht := TypeTerm.codec o
  have hp := Parameter.codec o
  refine Codec.record (by decide) (fun m => ?_) fun m => ?_
  · simp only [canon, hp.fieldOfList_norm, ht.fieldOf?_norm]
  · simp only [ofTexts, List.append_assoc]
    exact (hs.required "name" _).next ((hp.many "parameters" _).next
      ((ht.optional "returnType" _).next ((FieldsRead.flag o "isStatic" _).next
      ((hs.plainMany "decorators" _).last _))))

theorem Accessor.codec (o : KeyOrder) :
    Codec o Accessor.toJson Accessor.canon Accessor.ofJson? := by
  have hs := Codec.str o
  have ht := TypeTerm.codec o
  refine Codec.record (by decide) (fun a => ?_) fun a => ?_
  · simp only [canon, ht.fieldOf?_norm]
  · simp only [ofTexts, List.append_assoc]
    exact (hs.required "name" _).next ((ht.optional "type" _).next
      ((FieldsRead.flag o "isStatic" _).next ((hs.plainMany "decorators" _).last _)))

/-! ## Classes -/

namespace ClassRecord

theorem fieldsRead (o : KeyOrder) (c : ClassRecord) {path : String}
    (hpath : c.filepath.text? = some path) :
    FieldsRead o fieldNames (c.fieldsAt path) ofFields? c.canon := by
  have hs := Codec.str o
  have ht := TypeTerm.codec o
  have ha := Accessor.codec o
  have hfile := Path.readsAs o hpath
  simp only [fieldsAt, ofTexts, List.append_assoc]
  exact (hs.required "identifier" _).next ((FieldsRead.required "filepath" hfile).next
    ((hs.plainMany "typeParameters" _).next ((ht.optional "extends" _).next
    ((ht.many "implements" _).next ((hs.plainMany "decorators" _).next
    (((Parameter.codec o).many "constructorParameters" _).next
    (((Property.codec o).many "properties" _).next (((Method.codec o).many "methods" _).next
    ((ha.many "getters" _).next ((ha.many "setters" _).last _))))))))))

theorem fieldsAt_canon (c : ClassRecord) (path : String) :
    c.canon.fieldsAt path = c.fieldsAt path := by
  let o := KeyOrder.written
  have ht := TypeTerm.codec o
  simp only [fieldsAt, canon, ht.fieldOf?_norm, ht.fieldOfList_norm,
    (Parameter.codec o).fieldOfList_norm, (Property.codec o).fieldOfList_norm,
    (Method.codec o).fieldOfList_norm, (Accessor.codec o).fieldOfList_norm]

theorem codec (o : KeyOrder) : PartialCodec o toJson? canon ofJson? :=
  PartialCodec.record (by decide) (fun _ => rfl) fieldsAt_canon fun c _ => fieldsRead o c

end ClassRecord

/-! ## Enums, interfaces and type aliases -/

theorem EnumMember.codec (o : KeyOrder) :
    Codec o EnumMember.toJson EnumMember.canon EnumMember.ofJson? := by
  have hs := Codec.str o
  have hv := ValueTerm.codec o
  refine Codec.record (by decide) (fun m => ?_) fun m => ?_
  · simp only [canon, hv.fieldOf?_norm]
  · exact (hs.required "name" _).next ((hv.optional "value" _).last _)

theorem EnumRecord.codec (o : KeyOrder) :
    PartialCodec o EnumRecord.toJson? EnumRecord.canon EnumRecord.ofJson? := by
  have hs := Codec.str o
  have hm := (EnumMember.codec o).list
  refine PartialCodec.record (by decide) (fun _ => rfl) (fun e path => ?_) fun e path hpath => ?_
  · simp only [EnumRecord.fieldsAt, canon, hm.write_norm]
  · have hfile := Path.readsAs o hpath
    simp only [EnumRecord.fieldsAt, List.append_assoc]
    exact (hs.required "identifier" _).next ((FieldsRead.required "filepath" hfile).next
      ((FieldsRead.flag o "isConst" _).next ((hm.orDefault "members" [] _).last _)))

theorem InterfaceProperty.codec (o : KeyOrder) :
    Codec o InterfaceProperty.toJson InterfaceProperty.canon InterfaceProperty.ofJson? := by
  have hs := Codec.str o
  have ht := TypeTerm.codec o
  refine Codec.record (by decide) (fun p => ?_) fun p => ?_
  · simp only [canon, ht.fieldOf?_norm]
  · simp only [List.append_assoc]
    exact (hs.required "name" _).next ((ht.optional "type" _).next
      ((FieldsRead.flag o "readonly" _).last _))

theorem InterfaceFunction.codec (o : KeyOrder) :
    Codec o InterfaceFunction.toJson InterfaceFunction.canon InterfaceFunction.ofJson? := by
  have hs := Codec.str o
  have ht := TypeTerm.codec o
  have hp := Parameter.codec o
  refine Codec.record (by decide) (fun f => ?_) fun f => ?_
  · simp only [canon, hp.fieldOfList_norm, ht.fieldOf?_norm]
  · simp only [List.append_assoc]
    exact (hs.required "name" _).next ((hp.many "parameters" _).next
      ((ht.optional "returnType" _).next ((FieldsRead.flag o "optional" _).last _)))

theorem InterfaceRecord.codec (o : KeyOrder) :
    PartialCodec o InterfaceRecord.toJson? InterfaceRecord.canon InterfaceRecord.ofJson? := by
  have hs := Codec.str o
  have ht := TypeTerm.codec o
  have hp := InterfaceProperty.codec o
  have hf := InterfaceFunction.codec o
  refine PartialCodec.record (by decide) (fun _ => rfl) (fun i path => ?_) fun i path hpath => ?_
  · simp only [InterfaceRecord.fieldsAt, canon, ht.fieldOfList_norm, hp.fieldOfList_norm,
      hf.fieldOfList_norm]
  · have hfile := Path.readsAs o hpath
    simp only [InterfaceRecord.fieldsAt, ofTexts, List.append_assoc]
    exact (hs.required "identifier" _).next ((FieldsRead.required "filepath" hfile).next
      ((hs.plainMany "typeParameters" _).next ((ht.many "extends" _).next
      ((hp.many "properties" _).next ((hp.many "optionalProperties" _).next
      ((hf.many "functions" _).last _))))))

theorem AliasRecord.codec (o : KeyOrder) :
    PartialCodec o AliasRecord.toJson? AliasRecord.canon AliasRecord.ofJson? := by
  have hs := Codec.str o
  have ht := TypeTerm.codec o
  refine PartialCodec.record (by decide) (fun _ => rfl) (fun a path => ?_) fun a path hpath => ?_
  · simp only [AliasRecord.fieldsAt, canon, ht.write_norm]
  · have hfile := Path.readsAs o hpath
    simp only [AliasRecord.fieldsAt, ofTexts, List.append_assoc]
    exact (hs.required "identifier" _).next ((FieldsRead.required "filepath" hfile).next
      ((hs.plainMany "typeParameters" _).next ((ht.required "type" _).last _)))

/-! ## Source files

Nothing in a file has a kind, so a file is its own canonical form. -/

theorem Binding.codec (o : KeyOrder) : Codec o Binding.toJson (fun b => b) Binding.ofJson? := by
  have hs := Codec.str o
  refine Codec.record (by decide) (fun b => rfl) fun b => ?_
  exact (hs.required "name" _).next ((hs.plainOptional "alias" _).last _)

theorem Import.codec (o : KeyOrder) : Codec o Import.toJson (fun i => i) Import.ofJson? := by
  have hs := Codec.str o
  refine Codec.record (by decide) (fun i => rfl) fun i => ?_
  simp only [List.append_assoc]
  exact (hs.required "source" _).next ((hs.plainOptional "defaultImport" _).next
    ((hs.plainOptional "namespace" _).next (((Binding.codec o).plainMany "names" _).next
    ((FieldsRead.flag o "typeOnly" _).last _))))

theorem Export.codec (o : KeyOrder) : Codec o Export.toJson (fun e => e) Export.ofJson? := by
  have hs := Codec.str o
  refine Codec.record (by decide) (fun e => rfl) fun e => ?_
  simp only [List.append_assoc]
  exact (hs.plainOptional "source" _).next (((Binding.codec o).plainMany "names" _).next
    ((hs.plainOptional "namespace" _).next ((hs.plainOptional "declaration" _).next
    ((FieldsRead.flag o "isDefault" _).next ((FieldsRead.flag o "wildcard" _).last _)))))

theorem FileRecord.codec (o : KeyOrder) :
    PartialCodec o FileRecord.toJson? (fun f => f) FileRecord.ofJson? := by
  have hs := Codec.str o
  refine PartialCodec.record (by decide) (fun _ => rfl) (fun _ _ => rfl) fun f path hpath => ?_
  have hfile := Path.readsAs o hpath
  simp only [FileRecord.fieldsAt, List.append_assoc]
  exact (hs.required "identifier" _).next ((FieldsRead.required "filepath" hfile).next
    (((Import.codec o).plainList.orDefault "imports" [] _).next
    (((Export.codec o).plainList.orDefault "exports" [] _).last _)))

end DeclCatalog
