import DeclCatalog.Catalog
import DeclCatalog.Proofs.TermNormal

/-!
# Normal records

Every record has the terms that stand in it and its canonical form, in which those terms are made
canonical. A type stands among the terms of a record as a plain value.

- `terms` and `canon` of each part, of `Record` and of `Catalog`.
- `canon_eq_self_iff` of each: nothing changes exactly when no term changes, so the list of terms
  **leaves no kind out**.
- `Record.kinds`, `Catalog.kinds`: every kind, at any depth.
-/

namespace DeclCatalog

/-! ## Lists of terms

A field adds the type it holds, the value it holds, or the terms of the parts it holds. -/

/-- The terms of a field that holds a type. -/
def termsOfType (type : Option TypeTerm) : List ValueTerm :=
  type.toList.map .plain

/-- Whether a list of terms is canonical as it stands. -/
def AreCanonical (terms : List ValueTerm) : Prop :=
  ∀ v ∈ terms, v.canon = v

@[simp] theorem areCanonical_nil : AreCanonical [] := by simp [AreCanonical]

@[simp] theorem areCanonical_append {vs ws : List ValueTerm} :
    AreCanonical (vs ++ ws) ↔ AreCanonical vs ∧ AreCanonical ws :=
  List.forall_mem_append

/-- A list of parts changes exactly when a term of some part does. -/
theorem map_canon_eq_self_iff {α : Type} {canon : α → α} {terms : α → List ValueTerm}
    (h : ∀ a, canon a = a ↔ AreCanonical (terms a)) {items : List α} :
    items.map canon = items ↔ AreCanonical (items.flatMap terms) := by
  rw [map_eq_self_iff, AreCanonical, List.forall_mem_flatMap]
  exact forall₂_congr fun a _ => h a

@[simp] theorem areCanonical_types {types : List TypeTerm} :
    AreCanonical (types.map .plain) ↔ types.map TypeTerm.canon = types := by
  rw [map_eq_self_iff]
  simp [AreCanonical, ValueTerm.canon]

@[simp] theorem areCanonical_termsOfType {type : Option TypeTerm} :
    AreCanonical (termsOfType type) ↔ type.map TypeTerm.canon = type := by
  rw [termsOfType, areCanonical_types]
  cases type <;> simp

@[simp] theorem areCanonical_toList {value : Option ValueTerm} :
    AreCanonical value.toList ↔ value.map ValueTerm.canon = value := by
  rw [option_map_eq_self_iff]
  simp [AreCanonical]

/-! ## Members -/

namespace Parameter

def canon (p : Parameter) : Parameter :=
  { p with type := p.type.map TypeTerm.canon }

def terms (p : Parameter) : List ValueTerm :=
  termsOfType p.type

theorem canon_eq_self_iff (p : Parameter) : p.canon = p ↔ AreCanonical p.terms := by
  obtain ⟨identifier, type, optional, decorators⟩ := p
  simp [canon, terms]

end Parameter

namespace Property

def canon (p : Property) : Property :=
  { p with
    type := p.type.map TypeTerm.canon
    initializer := p.initializer.map ValueTerm.canon }

def terms (p : Property) : List ValueTerm :=
  termsOfType p.type ++ p.initializer.toList

theorem canon_eq_self_iff (p : Property) : p.canon = p ↔ AreCanonical p.terms := by
  obtain ⟨name, type, optional, isStatic, initializer, decorators⟩ := p
  simp [canon, terms]

end Property

namespace Method

def canon (m : Method) : Method :=
  { m with
    parameters := m.parameters.map Parameter.canon
    returnType := m.returnType.map TypeTerm.canon }

def terms (m : Method) : List ValueTerm :=
  m.parameters.flatMap Parameter.terms ++ termsOfType m.returnType

theorem canon_eq_self_iff (m : Method) : m.canon = m ↔ AreCanonical m.terms := by
  obtain ⟨name, parameters, returnType, isStatic, decorators⟩ := m
  simp [canon, terms, map_canon_eq_self_iff Parameter.canon_eq_self_iff]

end Method

namespace Accessor

def canon (a : Accessor) : Accessor :=
  { a with type := a.type.map TypeTerm.canon }

def terms (a : Accessor) : List ValueTerm :=
  termsOfType a.type

theorem canon_eq_self_iff (a : Accessor) : a.canon = a ↔ AreCanonical a.terms := by
  obtain ⟨name, type, isStatic, decorators⟩ := a
  simp [canon, terms]

end Accessor

/-! ## Classes -/

namespace ClassRecord

def canon (c : ClassRecord) : ClassRecord :=
  { c with
    superclass := c.superclass.map TypeTerm.canon
    interfaces := c.interfaces.map TypeTerm.canon
    constructorParameters := c.constructorParameters.map Parameter.canon
    properties := c.properties.map Property.canon
    methods := c.methods.map Method.canon
    getters := c.getters.map Accessor.canon
    setters := c.setters.map Accessor.canon }

def terms (c : ClassRecord) : List ValueTerm :=
  termsOfType c.superclass ++ c.interfaces.map .plain ++
  c.constructorParameters.flatMap Parameter.terms ++ c.properties.flatMap Property.terms ++
  c.methods.flatMap Method.terms ++ c.getters.flatMap Accessor.terms ++
  c.setters.flatMap Accessor.terms

theorem canon_eq_self_iff (c : ClassRecord) : c.canon = c ↔ AreCanonical c.terms := by
  obtain ⟨identifier, filepath, typeParameters, superclass, interfaces, decorators,
    constructorParameters, properties, methods, getters, setters⟩ := c
  simp [canon, terms, map_canon_eq_self_iff Parameter.canon_eq_self_iff,
    map_canon_eq_self_iff Property.canon_eq_self_iff,
    map_canon_eq_self_iff Method.canon_eq_self_iff,
    map_canon_eq_self_iff Accessor.canon_eq_self_iff]

end ClassRecord

/-! ## Decorated classes -/

namespace DirectiveInfo

def canon (d : DirectiveInfo) : DirectiveInfo :=
  { d with
    host := d.host.map ValueTerm.canon
    providers := d.providers.map ValueTerm.canon
    queries := d.queries.map ValueTerm.canon }

def terms (d : DirectiveInfo) : List ValueTerm :=
  d.host.toList ++ d.providers.toList ++ d.queries.toList

theorem canon_eq_self_iff (d : DirectiveInfo) : d.canon = d ↔ AreCanonical d.terms := by
  obtain ⟨selector, host, inputs, outputs, providers, queries, exportAs, standalone,
    constructorAttributes, constructorReferences⟩ := d
  simp [canon, terms]

end DirectiveInfo

namespace ComponentInfo

def canon (c : ComponentInfo) : ComponentInfo :=
  { c with
    directive := c.directive.canon
    viewProviders := c.viewProviders.map ValueTerm.canon
    imports := c.imports.map ValueTerm.canon
    animations := c.animations.map ValueTerm.canon }

def terms (c : ComponentInfo) : List ValueTerm :=
  c.directive.terms ++ c.viewProviders.toList ++ c.imports.toList ++ c.animations.toList

theorem canon_eq_self_iff (c : ComponentInfo) : c.canon = c ↔ AreCanonical c.terms := by
  obtain ⟨directive, changeDetection, encapsulation, moduleId, preserveWhitespaces, styles,
    styleUrls, template, templateUrl, viewProviders, imports, animations⟩ := c
  simp [canon, terms, DirectiveInfo.canon_eq_self_iff]

end ComponentInfo

namespace InjectableInfo

def canon (i : InjectableInfo) : InjectableInfo :=
  { providedIn := i.providedIn.map ValueTerm.canon }

def terms (i : InjectableInfo) : List ValueTerm :=
  i.providedIn.toList

theorem canon_eq_self_iff (i : InjectableInfo) : i.canon = i ↔ AreCanonical i.terms := by
  obtain ⟨providedIn⟩ := i
  simp [canon, terms]

end InjectableInfo

namespace ModuleInfo

def canon (m : ModuleInfo) : ModuleInfo :=
  { m with
    bootstrap := m.bootstrap.map ValueTerm.canon
    declarations := m.declarations.map ValueTerm.canon
    entryComponents := m.entryComponents.map ValueTerm.canon
    exports := m.exports.map ValueTerm.canon
    imports := m.imports.map ValueTerm.canon
    providers := m.providers.map ValueTerm.canon
    schemas := m.schemas.map ValueTerm.canon }

def terms (m : ModuleInfo) : List ValueTerm :=
  m.bootstrap.toList ++ m.declarations.toList ++ m.entryComponents.toList ++ m.exports.toList ++
  m.imports.toList ++ m.providers.toList ++ m.schemas.toList

theorem canon_eq_self_iff (m : ModuleInfo) : m.canon = m ↔ AreCanonical m.terms := by
  obtain ⟨id, bootstrap, declarations, entryComponents, exports, imports, providers, schemas⟩ := m
  simp [canon, terms]

end ModuleInfo

namespace Decorated

/-- The canonical form of both parts; a pipe says nothing that has a kind. -/
def canon {Info : Type} (canonInfo : Info → Info) (d : Decorated Info) : Decorated Info :=
  { base := d.base.canon, info := canonInfo d.info }

def terms {Info : Type} (infoTerms : Info → List ValueTerm) (d : Decorated Info) : List ValueTerm :=
  d.base.terms ++ infoTerms d.info

theorem canon_eq_self_iff {Info : Type} {canonInfo : Info → Info}
    {infoTerms : Info → List ValueTerm}
    (h : ∀ i, canonInfo i = i ↔ AreCanonical (infoTerms i)) (d : Decorated Info) :
    d.canon canonInfo = d ↔ AreCanonical (d.terms infoTerms) := by
  obtain ⟨base, info⟩ := d
  simp [canon, terms, h, ClassRecord.canon_eq_self_iff]

end Decorated

/-! ## Enums, interfaces and type aliases -/

namespace EnumMember

def canon (m : EnumMember) : EnumMember :=
  { m with value := m.value.map ValueTerm.canon }

def terms (m : EnumMember) : List ValueTerm :=
  m.value.toList

theorem canon_eq_self_iff (m : EnumMember) : m.canon = m ↔ AreCanonical m.terms := by
  obtain ⟨name, value⟩ := m
  simp [canon, terms]

end EnumMember

namespace EnumRecord

def canon (e : EnumRecord) : EnumRecord :=
  { e with members := e.members.map EnumMember.canon }

def terms (e : EnumRecord) : List ValueTerm :=
  e.members.flatMap EnumMember.terms

theorem canon_eq_self_iff (e : EnumRecord) : e.canon = e ↔ AreCanonical e.terms := by
  obtain ⟨identifier, filepath, isConst, members⟩ := e
  simp [canon, terms, map_canon_eq_self_iff EnumMember.canon_eq_self_iff]

end EnumRecord

namespace InterfaceProperty

def canon (p : InterfaceProperty) : InterfaceProperty :=
  { p with type := p.type.map TypeTerm.canon }

def terms (p : InterfaceProperty) : List ValueTerm :=
  termsOfType p.type

theorem canon_eq_self_iff (p : InterfaceProperty) : p.canon = p ↔ AreCanonical p.terms := by
  obtain ⟨name, type, readonly⟩ := p
  simp [canon, terms]

end InterfaceProperty

namespace InterfaceFunction

def canon (f : InterfaceFunction) : InterfaceFunction :=
  { f with
    parameters := f.parameters.map Parameter.canon
    returnType := f.returnType.map TypeTerm.canon }

def terms (f : InterfaceFunction) : List ValueTerm :=
  f.parameters.flatMap Parameter.terms ++ termsOfType f.returnType

theorem canon_eq_self_iff (f : InterfaceFunction) : f.canon = f ↔ AreCanonical f.terms := by
  obtain ⟨name, parameters, returnType, optional⟩ := f
  simp [canon, terms, map_canon_eq_self_iff Parameter.canon_eq_self_iff]

end InterfaceFunction

namespace InterfaceRecord

def canon (i : InterfaceRecord) : InterfaceRecord :=
  { i with
    supertypes := i.supertypes.map TypeTerm.canon
    properties := i.properties.map InterfaceProperty.canon
    optionalProperties := i.optionalProperties.map InterfaceProperty.canon
    functions := i.functions.map InterfaceFunction.canon }

def terms (i : InterfaceRecord) : List ValueTerm :=
  i.supertypes.map .plain ++ i.properties.flatMap InterfaceProperty.terms ++
  i.optionalProperties.flatMap InterfaceProperty.terms ++
  i.functions.flatMap InterfaceFunction.terms

theorem canon_eq_self_iff (i : InterfaceRecord) : i.canon = i ↔ AreCanonical i.terms := by
  obtain ⟨identifier, filepath, typeParameters, supertypes, properties, optionalProperties,
    functions⟩ := i
  simp [canon, terms, map_canon_eq_self_iff InterfaceProperty.canon_eq_self_iff,
    map_canon_eq_self_iff InterfaceFunction.canon_eq_self_iff]

end InterfaceRecord

namespace AliasRecord

def canon (a : AliasRecord) : AliasRecord :=
  { a with type := a.type.canon }

def terms (a : AliasRecord) : List ValueTerm :=
  [.plain a.type]

theorem canon_eq_self_iff (a : AliasRecord) : a.canon = a ↔ AreCanonical a.terms := by
  obtain ⟨identifier, filepath, typeParameters, type⟩ := a
  simp [canon, terms, AreCanonical, ValueTerm.canon]

end AliasRecord

/-! ## Records and catalogs -/

namespace Record

/-- The record with every kind in it made canonical. A file and a pipe's own part have none. -/
def canon : Record → Record
  | .class r => .class r.canon
  | .component r => .component (r.canon ComponentInfo.canon)
  | .directive r => .directive (r.canon DirectiveInfo.canon)
  | .injectable r => .injectable (r.canon InjectableInfo.canon)
  | .module r => .module (r.canon ModuleInfo.canon)
  | .pipe r => .pipe (r.canon id)
  | .enum r => .enum r.canon
  | .interface r => .interface r.canon
  | .typeAlias r => .typeAlias r.canon
  | .sourceFile r => .sourceFile r

/-- The terms that stand in a record. -/
def terms : Record → List ValueTerm
  | .class r => r.terms
  | .component r => r.terms ComponentInfo.terms
  | .directive r => r.terms DirectiveInfo.terms
  | .injectable r => r.terms InjectableInfo.terms
  | .module r => r.terms ModuleInfo.terms
  | .pipe r => r.terms fun _ => []
  | .enum r => r.terms
  | .interface r => r.terms
  | .typeAlias r => r.terms
  | .sourceFile _ => []

/-- Every kind in a record, at any depth. -/
def kinds (r : Record) : List Kind :=
  r.terms.flatMap ValueTerm.kinds

theorem canon_eq_self_iff (r : Record) : r.canon = r ↔ AreCanonical r.terms := by
  cases r with
  | «class» r => simp [canon, terms, ClassRecord.canon_eq_self_iff]
  | component r =>
    simp [canon, terms, Decorated.canon_eq_self_iff ComponentInfo.canon_eq_self_iff]
  | directive r =>
    simp [canon, terms, Decorated.canon_eq_self_iff DirectiveInfo.canon_eq_self_iff]
  | injectable r =>
    simp [canon, terms, Decorated.canon_eq_self_iff InjectableInfo.canon_eq_self_iff]
  | module r => simp [canon, terms, Decorated.canon_eq_self_iff ModuleInfo.canon_eq_self_iff]
  | pipe r =>
    have hnone : ∀ i : PipeInfo, id i = i ↔ AreCanonical [] := by simp
    simp [canon, terms, Decorated.canon_eq_self_iff hnone]
  | enum r => simp [canon, terms, EnumRecord.canon_eq_self_iff]
  | interface r => simp [canon, terms, InterfaceRecord.canon_eq_self_iff]
  | typeAlias r => simp [canon, terms, AliasRecord.canon_eq_self_iff]
  | sourceFile r => simp [canon, terms]

end Record

namespace Catalog

/-- The catalog with every kind in it made canonical. -/
def canon (c : Catalog) : Catalog where
  classes := c.classes.map ClassRecord.canon
  components := c.components.map (Decorated.canon ComponentInfo.canon)
  directives := c.directives.map (Decorated.canon DirectiveInfo.canon)
  injectables := c.injectables.map (Decorated.canon InjectableInfo.canon)
  modules := c.modules.map (Decorated.canon ModuleInfo.canon)
  pipes := c.pipes.map (Decorated.canon id)
  enums := c.enums.map EnumRecord.canon
  interfaces := c.interfaces.map InterfaceRecord.canon
  typeAliases := c.typeAliases.map AliasRecord.canon
  sourceFiles := c.sourceFiles

/-- Every record of a catalog, category by category. -/
def allRecords (c : Catalog) : List Record :=
  Category.all.flatMap c.records

/-- Every kind in a catalog, at any depth. -/
def kinds (c : Catalog) : List Kind :=
  c.allRecords.flatMap Record.kinds

/-- Each category holds the canonical forms of its records. -/
theorem records_canon (c : Catalog) (category : Category) :
    c.canon.records category = (c.records category).map Record.canon := by
  cases category <;> simp [canon, records, Record.canon]

theorem mem_all (category : Category) : category ∈ Category.all := by
  cases category <;> decide

/-- A catalog is known by the records of its categories. -/
theorem eq_of_records_eq {c c' : Catalog}
    (h : ∀ category, c.records category = c'.records category) : c = c' := by
  have hclasses := (List.map_inj_right fun _ _ => Record.class.inj).1 (h .classes)
  have hcomponents := (List.map_inj_right fun _ _ => Record.component.inj).1 (h .components)
  have hdirectives := (List.map_inj_right fun _ _ => Record.directive.inj).1 (h .directives)
  have hinjectables := (List.map_inj_right fun _ _ => Record.injectable.inj).1 (h .injectables)
  have hmodules := (List.map_inj_right fun _ _ => Record.module.inj).1 (h .modules)
  have hpipes := (List.map_inj_right fun _ _ => Record.pipe.inj).1 (h .pipes)
  have henums := (List.map_inj_right fun _ _ => Record.enum.inj).1 (h .enums)
  have hinterfaces := (List.map_inj_right fun _ _ => Record.interface.inj).1 (h .interfaces)
  have haliases := (List.map_inj_right fun _ _ => Record.typeAlias.inj).1 (h .typeAliases)
  have hfiles := (List.map_inj_right fun _ _ => Record.sourceFile.inj).1 (h .sourceFiles)
  cases c
  cases c'
  simp_all

/-- Making a catalog canonical changes nothing exactly when every kind in it is canonical. -/
theorem canon_eq_self_iff (c : Catalog) : c.canon = c ↔ ∀ kind ∈ c.kinds, kind.IsCanonical := by
  have hrecord : ∀ r : Record, r.canon = r ↔ ∀ kind ∈ r.kinds, kind.IsCanonical := by
    intro r
    rw [Record.canon_eq_self_iff, AreCanonical, Record.kinds, List.forall_mem_flatMap]
    exact forall₂_congr fun v _ => v.canon_eq_self_iff
  rw [kinds, List.forall_mem_flatMap, allRecords, List.forall_mem_flatMap]
  constructor
  · intro h category _ r hr
    have hmap := records_canon c category
    rw [h] at hmap
    exact (hrecord r).1 (map_eq_self_iff.1 hmap.symm r hr)
  · intro h
    refine eq_of_records_eq fun category => ?_
    rw [records_canon, map_eq_self_iff]
    exact fun r hr => (hrecord r).2 (h category (mem_all category) r hr)

end Catalog

end DeclCatalog
