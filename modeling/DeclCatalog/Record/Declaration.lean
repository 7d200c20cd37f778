import DeclCatalog.Path
import DeclCatalog.Record.Member

/-!
# Enums, interfaces and type aliases

- `EnumRecord`, `InterfaceRecord`, `AliasRecord`: what is recorded of the three declarations.
- `EnumMember`, `InterfaceProperty`, `InterfaceFunction`: their parts.
- `toJson` or `toJson?` of each, and `ofJson?`: the written form, which a declaration has unless its
  path is no text. The members of an enum are always written.
-/

namespace DeclCatalog

/-! ## Enums -/

/-- A member of an enum. -/
structure EnumMember where
  name : String
  value : Option ValueTerm
  deriving DecidableEq

/-- An enum. -/
structure EnumRecord where
  identifier : String
  filepath : Path
  isConst : Bool
  members : List EnumMember
  deriving DecidableEq

namespace EnumMember

/-- A member as a record. -/
def toJson (m : EnumMember) : Json :=
  .obj (Json.field "name" (.str m.name) ++ Json.fieldOf? "value" ValueTerm.toJson m.value)

/-- Reads a member. -/
def ofJson? (j : Json) : Option EnumMember := do
  let fields ← j.record? ["name", "value"]
  pure {
    name := ← fields.required? "name" Json.asString?
    value := ← fields.optional? "value" ValueTerm.ofJson? }

end EnumMember

namespace EnumRecord

/-- The fields of an enum, in the order written. -/
def fieldNames : List String :=
  ["identifier", "filepath", "isConst", "members"]

/-- The fields of an enum that are written, where the text of its path is `path`. -/
def fieldsAt (e : EnumRecord) (path : String) : List (String × Json) :=
  Json.field "identifier" (.str e.identifier) ++ Json.field "filepath" (.str path) ++
  Json.flag "isConst" e.isConst ++ Json.field "members" (.arr (e.members.map EnumMember.toJson))

/-- An enum as a record, unless its path is no text. -/
def toJson? (e : EnumRecord) : Option Json :=
  e.filepath.text?.map fun path => .obj (e.fieldsAt path)

/-- Reads an enum. -/
def ofJson? (j : Json) : Option EnumRecord := do
  let fields ← j.record? fieldNames
  pure {
    identifier := ← fields.required? "identifier" Json.asString?
    filepath := ← fields.required? "filepath" Path.ofJson?
    isConst := ← fields.orDefault? "isConst" false Json.asBool?
    members := ← fields.orDefault? "members" [] (Json.asList? EnumMember.ofJson?) }

end EnumRecord

/-! ## Interfaces -/

/-- A property of an interface that is no function. -/
structure InterfaceProperty where
  name : String
  type : Option TypeTerm
  readonly : Bool
  deriving DecidableEq

/-- A method of an interface, or a property whose type is a function type. -/
structure InterfaceFunction where
  name : String
  parameters : List Parameter
  returnType : Option TypeTerm
  optional : Bool
  deriving DecidableEq

/-- An interface. -/
structure InterfaceRecord where
  identifier : String
  filepath : Path
  typeParameters : List String
  supertypes : List TypeTerm
  properties : List InterfaceProperty
  /-- The properties that are written with `?`. -/
  optionalProperties : List InterfaceProperty
  functions : List InterfaceFunction
  deriving DecidableEq

namespace InterfaceProperty

/-- A property as a record. -/
def toJson (p : InterfaceProperty) : Json :=
  .obj (Json.field "name" (.str p.name) ++ Json.fieldOf? "type" TypeTerm.toJson p.type ++
    Json.flag "readonly" p.readonly)

/-- Reads a property. -/
def ofJson? (j : Json) : Option InterfaceProperty := do
  let fields ← j.record? ["name", "type", "readonly"]
  pure {
    name := ← fields.required? "name" Json.asString?
    type := ← fields.optional? "type" TypeTerm.ofJson?
    readonly := ← fields.orDefault? "readonly" false Json.asBool? }

end InterfaceProperty

namespace InterfaceFunction

/-- A function as a record. -/
def toJson (f : InterfaceFunction) : Json :=
  .obj (Json.field "name" (.str f.name) ++
    Json.fieldOfList "parameters" Parameter.toJson f.parameters ++
    Json.fieldOf? "returnType" TypeTerm.toJson f.returnType ++ Json.flag "optional" f.optional)

/-- Reads a function. -/
def ofJson? (j : Json) : Option InterfaceFunction := do
  let fields ← j.record? ["name", "parameters", "returnType", "optional"]
  pure {
    name := ← fields.required? "name" Json.asString?
    parameters := ← fields.orDefault? "parameters" [] (Json.asList? Parameter.ofJson?)
    returnType := ← fields.optional? "returnType" TypeTerm.ofJson?
    optional := ← fields.orDefault? "optional" false Json.asBool? }

end InterfaceFunction

namespace InterfaceRecord

/-- The fields of an interface, in the order written. -/
def fieldNames : List String :=
  ["identifier", "filepath", "typeParameters", "extends", "properties", "optionalProperties",
   "functions"]

/-- The fields of an interface that are written, where the text of its path is `path`. -/
def fieldsAt (i : InterfaceRecord) (path : String) : List (String × Json) :=
  Json.field "identifier" (.str i.identifier) ++ Json.field "filepath" (.str path) ++
  Json.ofTexts "typeParameters" i.typeParameters ++
  Json.fieldOfList "extends" TypeTerm.toJson i.supertypes ++
  Json.fieldOfList "properties" InterfaceProperty.toJson i.properties ++
  Json.fieldOfList "optionalProperties" InterfaceProperty.toJson i.optionalProperties ++
  Json.fieldOfList "functions" InterfaceFunction.toJson i.functions

/-- An interface as a record, unless its path is no text. -/
def toJson? (i : InterfaceRecord) : Option Json :=
  i.filepath.text?.map fun path => .obj (i.fieldsAt path)

/-- Reads an interface. -/
def ofJson? (j : Json) : Option InterfaceRecord := do
  let fields ← j.record? fieldNames
  pure {
    identifier := ← fields.required? "identifier" Json.asString?
    filepath := ← fields.required? "filepath" Path.ofJson?
    typeParameters := ← fields.orDefault? "typeParameters" [] (Json.asList? Json.asString?)
    supertypes := ← fields.orDefault? "extends" [] (Json.asList? TypeTerm.ofJson?)
    properties := ← fields.orDefault? "properties" [] (Json.asList? InterfaceProperty.ofJson?)
    optionalProperties :=
      ← fields.orDefault? "optionalProperties" [] (Json.asList? InterfaceProperty.ofJson?)
    functions := ← fields.orDefault? "functions" [] (Json.asList? InterfaceFunction.ofJson?) }

end InterfaceRecord

/-! ## Type aliases -/

/-- A type alias. -/
structure AliasRecord where
  identifier : String
  filepath : Path
  typeParameters : List String
  type : TypeTerm
  deriving DecidableEq

namespace AliasRecord

/-- The fields of a type alias, in the order written. -/
def fieldNames : List String :=
  ["identifier", "filepath", "typeParameters", "type"]

/-- The fields of a type alias that are written, where the text of its path is `path`. -/
def fieldsAt (a : AliasRecord) (path : String) : List (String × Json) :=
  Json.field "identifier" (.str a.identifier) ++ Json.field "filepath" (.str path) ++
  Json.ofTexts "typeParameters" a.typeParameters ++ Json.field "type" a.type.toJson

/-- A type alias as a record, unless its path is no text. -/
def toJson? (a : AliasRecord) : Option Json :=
  a.filepath.text?.map fun path => .obj (a.fieldsAt path)

/-- Reads a type alias. -/
def ofJson? (j : Json) : Option AliasRecord := do
  let fields ← j.record? fieldNames
  pure {
    identifier := ← fields.required? "identifier" Json.asString?
    filepath := ← fields.required? "filepath" Path.ofJson?
    typeParameters := ← fields.orDefault? "typeParameters" [] (Json.asList? Json.asString?)
    type := ← fields.required? "type" TypeTerm.ofJson? }

end AliasRecord

end DeclCatalog
