import DeclCatalog.Path
import DeclCatalog.Record.Member

/-!
# Classes

- `ClassRecord`: what is recorded of every class.
- `ClassRecord.fieldsAt`, `ClassRecord.ofFields?`: its fields, which a decorated class shares.
- `ClassRecord.toJson?`, `ClassRecord.ofJson?`: the written form. A class whose path is no text has
  none.
-/

namespace DeclCatalog

/-- What is recorded of every class. -/
structure ClassRecord where
  identifier : String
  filepath : Path
  /-- The names of its type parameters. -/
  typeParameters : List String
  superclass : Option TypeTerm
  interfaces : List TypeTerm
  /-- The names of its decorators, in source order. -/
  decorators : List String
  constructorParameters : List Parameter
  properties : List Property
  methods : List Method
  getters : List Accessor
  setters : List Accessor
  deriving DecidableEq

namespace ClassRecord

/-- The fields of a class, in the order written. -/
def fieldNames : List String :=
  ["identifier", "filepath", "typeParameters", "extends", "implements", "decorators",
   "constructorParameters", "properties", "methods", "getters", "setters"]

/-- The fields of a class that are written, where the text of its path is `path`. -/
def fieldsAt (c : ClassRecord) (path : String) : List (String × Json) :=
  Json.field "identifier" (.str c.identifier) ++ Json.field "filepath" (.str path) ++
  Json.ofTexts "typeParameters" c.typeParameters ++
  Json.fieldOf? "extends" TypeTerm.toJson c.superclass ++
  Json.fieldOfList "implements" TypeTerm.toJson c.interfaces ++
  Json.ofTexts "decorators" c.decorators ++
  Json.fieldOfList "constructorParameters" Parameter.toJson c.constructorParameters ++
  Json.fieldOfList "properties" Property.toJson c.properties ++
  Json.fieldOfList "methods" Method.toJson c.methods ++
  Json.fieldOfList "getters" Accessor.toJson c.getters ++
  Json.fieldOfList "setters" Accessor.toJson c.setters

/-- A class as a record, unless its path is no text. -/
def toJson? (c : ClassRecord) : Option Json :=
  c.filepath.text?.map fun path => .obj (c.fieldsAt path)

/-- Reads a class from its known fields. -/
def ofFields? (fields : Fields) : Option ClassRecord := do
  pure {
    identifier := ← fields.required? "identifier" Json.asString?
    filepath := ← fields.required? "filepath" Path.ofJson?
    typeParameters := ← fields.orDefault? "typeParameters" [] (Json.asList? Json.asString?)
    superclass := ← fields.optional? "extends" TypeTerm.ofJson?
    interfaces := ← fields.orDefault? "implements" [] (Json.asList? TypeTerm.ofJson?)
    decorators := ← fields.orDefault? "decorators" [] (Json.asList? Json.asString?)
    constructorParameters :=
      ← fields.orDefault? "constructorParameters" [] (Json.asList? Parameter.ofJson?)
    properties := ← fields.orDefault? "properties" [] (Json.asList? Property.ofJson?)
    methods := ← fields.orDefault? "methods" [] (Json.asList? Method.ofJson?)
    getters := ← fields.orDefault? "getters" [] (Json.asList? Accessor.ofJson?)
    setters := ← fields.orDefault? "setters" [] (Json.asList? Accessor.ofJson?) }

/-- Reads a class. -/
def ofJson? (j : Json) : Option ClassRecord := do
  ofFields? (← j.record? fieldNames)

end ClassRecord

end DeclCatalog
