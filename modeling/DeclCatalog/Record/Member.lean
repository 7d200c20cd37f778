import DeclCatalog.Term.Codec

/-!
# Members

The parts of a class body, and the parameters that methods, constructors and interface functions
share.

- `Parameter`, `Property`, `Method`, `Accessor`: the parts.
- `toJson` and `ofJson?` of each: the written form, where unset, empty and false fields are left
  out.
-/

namespace DeclCatalog

/-- A list of texts. -/
def Json.ofTexts (name : String) (texts : List String) : List (String × Json) :=
  Json.fieldOfList name Json.str texts

/-- A parameter of a function or constructor. -/
structure Parameter where
  /-- The bound name; for a pattern its source text. -/
  identifier : String
  type : Option TypeTerm
  /-- Written with `?`, or with a default value. -/
  optional : Bool
  decorators : List String
  deriving DecidableEq

/-- A field of a class. -/
structure Property where
  name : String
  type : Option TypeTerm
  optional : Bool
  isStatic : Bool
  initializer : Option ValueTerm
  decorators : List String
  deriving DecidableEq

/-- A method of a class. -/
structure Method where
  name : String
  parameters : List Parameter
  returnType : Option TypeTerm
  isStatic : Bool
  decorators : List String
  deriving DecidableEq

/-- A `get` or `set` accessor; its type is that of the result or of the parameter. -/
structure Accessor where
  name : String
  type : Option TypeTerm
  isStatic : Bool
  decorators : List String
  deriving DecidableEq

namespace Parameter

/-- The fields of a parameter, in the order written. -/
def fieldNames : List String :=
  ["identifier", "type", "optional", "decorators"]

/-- A parameter as a record. -/
def toJson (p : Parameter) : Json :=
  .obj (Json.field "identifier" (.str p.identifier) ++
    Json.fieldOf? "type" TypeTerm.toJson p.type ++
    Json.flag "optional" p.optional ++ Json.ofTexts "decorators" p.decorators)

/-- Reads a parameter. -/
def ofJson? (j : Json) : Option Parameter := do
  let fields ← j.record? fieldNames
  pure {
    identifier := ← fields.required? "identifier" Json.asString?
    type := ← fields.optional? "type" TypeTerm.ofJson?
    optional := ← fields.orDefault? "optional" false Json.asBool?
    decorators := ← fields.orDefault? "decorators" [] (Json.asList? Json.asString?) }

end Parameter

namespace Property

/-- The fields of a class field, in the order written. -/
def fieldNames : List String :=
  ["name", "type", "optional", "isStatic", "initializer", "decorators"]

/-- A class field as a record. -/
def toJson (p : Property) : Json :=
  .obj (Json.field "name" (.str p.name) ++ Json.fieldOf? "type" TypeTerm.toJson p.type ++
    Json.flag "optional" p.optional ++ Json.flag "isStatic" p.isStatic ++
    Json.fieldOf? "initializer" ValueTerm.toJson p.initializer ++
    Json.ofTexts "decorators" p.decorators)

/-- Reads a class field. -/
def ofJson? (j : Json) : Option Property := do
  let fields ← j.record? fieldNames
  pure {
    name := ← fields.required? "name" Json.asString?
    type := ← fields.optional? "type" TypeTerm.ofJson?
    optional := ← fields.orDefault? "optional" false Json.asBool?
    isStatic := ← fields.orDefault? "isStatic" false Json.asBool?
    initializer := ← fields.optional? "initializer" ValueTerm.ofJson?
    decorators := ← fields.orDefault? "decorators" [] (Json.asList? Json.asString?) }

end Property

namespace Method

/-- The fields of a method, in the order written. -/
def fieldNames : List String :=
  ["name", "parameters", "returnType", "isStatic", "decorators"]

/-- A method as a record. -/
def toJson (m : Method) : Json :=
  .obj (Json.field "name" (.str m.name) ++
    Json.fieldOfList "parameters" Parameter.toJson m.parameters ++
    Json.fieldOf? "returnType" TypeTerm.toJson m.returnType ++ Json.flag "isStatic" m.isStatic ++
    Json.ofTexts "decorators" m.decorators)

/-- Reads a method. -/
def ofJson? (j : Json) : Option Method := do
  let fields ← j.record? fieldNames
  pure {
    name := ← fields.required? "name" Json.asString?
    parameters := ← fields.orDefault? "parameters" [] (Json.asList? Parameter.ofJson?)
    returnType := ← fields.optional? "returnType" TypeTerm.ofJson?
    isStatic := ← fields.orDefault? "isStatic" false Json.asBool?
    decorators := ← fields.orDefault? "decorators" [] (Json.asList? Json.asString?) }

end Method

namespace Accessor

/-- The fields of an accessor, in the order written. -/
def fieldNames : List String :=
  ["name", "type", "isStatic", "decorators"]

/-- An accessor as a record. -/
def toJson (a : Accessor) : Json :=
  .obj (Json.field "name" (.str a.name) ++ Json.fieldOf? "type" TypeTerm.toJson a.type ++
    Json.flag "isStatic" a.isStatic ++ Json.ofTexts "decorators" a.decorators)

/-- Reads an accessor. -/
def ofJson? (j : Json) : Option Accessor := do
  let fields ← j.record? fieldNames
  pure {
    name := ← fields.required? "name" Json.asString?
    type := ← fields.optional? "type" TypeTerm.ofJson?
    isStatic := ← fields.orDefault? "isStatic" false Json.asBool?
    decorators := ← fields.orDefault? "decorators" [] (Json.asList? Json.asString?) }

end Accessor

end DeclCatalog
