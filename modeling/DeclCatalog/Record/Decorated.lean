import DeclCatalog.Record.Class

/-!
# Decorated classes

A class that a framework decorator marks carries the fields of a class together with what the
decorator's configuration says.

- `Decorated`: the two parts side by side.
- `DirectiveInfo`, `ComponentInfo`, `InjectableInfo`, `ModuleInfo`, `PipeInfo`: what the five
  decorators say.
- `Decorated.merge`: one object out of the fields of both parts. The class comes first and wins
  where both write a key.
- `Decorated.toJson?`, `Decorated.ofJson?`: the written form. A class whose path is no text has
  none.
-/

namespace DeclCatalog

/-- A class with what its decorator says. -/
structure Decorated (Info : Type) where
  base : ClassRecord
  info : Info
  deriving DecidableEq

namespace Decorated

/-- The fields of both parts as one object: those of the class in ascending order of their keys,
then those of the decorator that the class does not have, ascending too. Every object inside a value
is in ascending order as well. -/
def merge (base info : List (String × Json)) : Json :=
  let base := Json.sortFields (Json.sortKeysFields base)
  let info := Json.sortFields (Json.sortKeysFields info)
  .obj (base ++ info.filter fun field => !(base.map Prod.fst).contains field.1)

/-- A decorated class as one object, unless its path is no text. -/
def toJson? {Info : Type} (infoFields : Info → List (String × Json)) (d : Decorated Info) :
    Option Json :=
  d.base.filepath.text?.map fun path => merge (d.base.fieldsAt path) (infoFields d.info)

/-- Reads a decorated class from one object: each part takes the fields it knows. The object is read
as a whole before it is shared out, so no part of it may be unreadable, known or not. -/
def ofJson? {Info : Type} (infoNames : List String) (infoOfFields? : Fields → Option Info)
    (j : Json) : Option (Decorated Info) := do
  guard j.isReadable
  let base ← ClassRecord.ofFields? (← j.object? ClassRecord.fieldNames)
  let info ← infoOfFields? (← j.object? infoNames)
  pure { base, info }

end Decorated

/-- How a component detects changes. -/
inductive ChangeDetection where
  | default
  | onPush
  deriving DecidableEq

namespace ChangeDetection

/-- The name of a strategy. -/
def name : ChangeDetection → String
  | .default => "Default"
  | .onPush => "OnPush"

/-- The strategy of a name. -/
def ofName? : String → Option ChangeDetection
  | "Default" => some .default
  | "OnPush" => some .onPush
  | _ => none

/-- A strategy is written as its name. -/
def toJson (c : ChangeDetection) : Json :=
  .str c.name

/-- Reads a strategy. -/
def ofJson? (j : Json) : Option ChangeDetection :=
  j.asChoice? ofName?

end ChangeDetection

/-- How the styles of a component are kept apart. -/
inductive Encapsulation where
  | emulated
  | native
  | none
  | shadowDom
  deriving DecidableEq

namespace Encapsulation

/-- The name of a mode. -/
def name : Encapsulation → String
  | .emulated => "Emulated"
  | .native => "Native"
  | .none => "None"
  | .shadowDom => "ShadowDom"

/-- The mode of a name. -/
def ofName? : String → Option Encapsulation
  | "Emulated" => some .emulated
  | "Native" => some .native
  | "None" => some .none
  | "ShadowDom" => some .shadowDom
  | _ => Option.none

/-- A mode is written as its name. -/
def toJson (e : Encapsulation) : Json :=
  .str e.name

/-- Reads a mode. -/
def ofJson? (j : Json) : Option Encapsulation :=
  j.asChoice? ofName?

end Encapsulation

/-- A constructor parameter that takes an attribute of the host. -/
structure AttributeParameter where
  identifier : String
  attributeName : String
  deriving DecidableEq

namespace AttributeParameter

/-- The parameter as a record. -/
def toJson (p : AttributeParameter) : Json :=
  .obj (Json.field "identifier" (.str p.identifier) ++
    Json.field "attributeName" (.str p.attributeName))

/-- Reads such a parameter. -/
def ofJson? (j : Json) : Option AttributeParameter := do
  let fields ← j.record? ["identifier", "attributeName"]
  pure {
    identifier := ← fields.required? "identifier" Json.asString?
    attributeName := ← fields.required? "attributeName" Json.asString? }

end AttributeParameter

/-- A constructor parameter that takes a handle of the framework. -/
structure ReferenceParameter where
  identifier : String
  type : String
  deriving DecidableEq

namespace ReferenceParameter

/-- The parameter as a record. -/
def toJson (p : ReferenceParameter) : Json :=
  .obj (Json.field "identifier" (.str p.identifier) ++ Json.field "type" (.str p.type))

/-- Reads such a parameter. -/
def ofJson? (j : Json) : Option ReferenceParameter := do
  let fields ← j.record? ["identifier", "type"]
  pure {
    identifier := ← fields.required? "identifier" Json.asString?
    type := ← fields.required? "type" Json.asString? }

end ReferenceParameter

/-- A list of texts that may be unset. -/
def Json.ofTexts? (name : String) (texts : Option (List String)) : List (String × Json) :=
  Json.fieldOf? name (fun texts => .arr (texts.map Json.str)) texts

/-! ## Directives -/

/-- What a directive's decorator says; components share it. -/
structure DirectiveInfo where
  selector : Option String
  host : Option ValueTerm
  inputs : Option (List String)
  outputs : Option (List String)
  providers : Option ValueTerm
  queries : Option ValueTerm
  exportAs : Option String
  standalone : Option Bool
  constructorAttributes : List AttributeParameter
  constructorReferences : List ReferenceParameter
  deriving DecidableEq

namespace DirectiveInfo

/-- The fields of a directive, in the order of declaration. -/
def fieldNames : List String :=
  ["selector", "host", "inputs", "outputs", "providers", "queries", "exportAs", "standalone",
   "constructorAttributes", "constructorReferences"]

/-- The fields of a directive that are written. -/
def fields (d : DirectiveInfo) : List (String × Json) :=
  Json.fieldOf? "selector" Json.str d.selector ++ Json.fieldOf? "host" ValueTerm.toJson d.host ++
  Json.ofTexts? "inputs" d.inputs ++ Json.ofTexts? "outputs" d.outputs ++
  Json.fieldOf? "providers" ValueTerm.toJson d.providers ++
  Json.fieldOf? "queries" ValueTerm.toJson d.queries ++
  Json.fieldOf? "exportAs" Json.str d.exportAs ++
  Json.fieldOf? "standalone" Json.bool d.standalone ++
  Json.fieldOfList "constructorAttributes" AttributeParameter.toJson d.constructorAttributes ++
  Json.fieldOfList "constructorReferences" ReferenceParameter.toJson d.constructorReferences

/-- Reads what a directive's decorator says. -/
def ofFields? (fields : Fields) : Option DirectiveInfo := do
  pure {
    selector := ← fields.optional? "selector" Json.asString?
    host := ← fields.optional? "host" ValueTerm.ofJson?
    inputs := ← fields.optional? "inputs" (Json.asList? Json.asString?)
    outputs := ← fields.optional? "outputs" (Json.asList? Json.asString?)
    providers := ← fields.optional? "providers" ValueTerm.ofJson?
    queries := ← fields.optional? "queries" ValueTerm.ofJson?
    exportAs := ← fields.optional? "exportAs" Json.asString?
    standalone := ← fields.optional? "standalone" Json.asBool?
    constructorAttributes :=
      ← fields.orDefault? "constructorAttributes" [] (Json.asList? AttributeParameter.ofJson?)
    constructorReferences :=
      ← fields.orDefault? "constructorReferences" [] (Json.asList? ReferenceParameter.ofJson?) }

end DirectiveInfo

/-! ## Components -/

/-- What a component's decorator says. -/
structure ComponentInfo where
  directive : DirectiveInfo
  changeDetection : Option ChangeDetection
  encapsulation : Option Encapsulation
  /-- The member of `module` that names the module. -/
  moduleId : Option String
  preserveWhitespaces : Option Bool
  styles : Option (List String)
  styleUrls : Option (List String)
  template : Option String
  templateUrl : Option String
  viewProviders : Option ValueTerm
  imports : Option ValueTerm
  animations : Option ValueTerm
  deriving DecidableEq

namespace ComponentInfo

/-- The fields of a component, those of a directive first. -/
def fieldNames : List String :=
  DirectiveInfo.fieldNames ++
  ["changeDetection", "encapsulation", "moduleId", "preserveWhitespaces", "styles", "styleUrls",
   "template", "templateUrl", "viewProviders", "imports", "animations"]

/-- The fields of a component that are written. -/
def fields (c : ComponentInfo) : List (String × Json) :=
  c.directive.fields ++
  Json.fieldOf? "changeDetection" ChangeDetection.toJson c.changeDetection ++
  Json.fieldOf? "encapsulation" Encapsulation.toJson c.encapsulation ++
  Json.fieldOf? "moduleId" Json.str c.moduleId ++
  Json.fieldOf? "preserveWhitespaces" Json.bool c.preserveWhitespaces ++
  Json.ofTexts? "styles" c.styles ++ Json.ofTexts? "styleUrls" c.styleUrls ++
  Json.fieldOf? "template" Json.str c.template ++
  Json.fieldOf? "templateUrl" Json.str c.templateUrl ++
  Json.fieldOf? "viewProviders" ValueTerm.toJson c.viewProviders ++
  Json.fieldOf? "imports" ValueTerm.toJson c.imports ++
  Json.fieldOf? "animations" ValueTerm.toJson c.animations

/-- Reads what a component's decorator says. -/
def ofFields? (fields : Fields) : Option ComponentInfo := do
  pure {
    directive := ← DirectiveInfo.ofFields? fields
    changeDetection := ← fields.optional? "changeDetection" ChangeDetection.ofJson?
    encapsulation := ← fields.optional? "encapsulation" Encapsulation.ofJson?
    moduleId := ← fields.optional? "moduleId" Json.asString?
    preserveWhitespaces := ← fields.optional? "preserveWhitespaces" Json.asBool?
    styles := ← fields.optional? "styles" (Json.asList? Json.asString?)
    styleUrls := ← fields.optional? "styleUrls" (Json.asList? Json.asString?)
    template := ← fields.optional? "template" Json.asString?
    templateUrl := ← fields.optional? "templateUrl" Json.asString?
    viewProviders := ← fields.optional? "viewProviders" ValueTerm.ofJson?
    imports := ← fields.optional? "imports" ValueTerm.ofJson?
    animations := ← fields.optional? "animations" ValueTerm.ofJson? }

end ComponentInfo

/-! ## Injectables, modules and pipes -/

/-- What an injectable's decorator says. -/
structure InjectableInfo where
  /-- The scope it is provided in. -/
  providedIn : Option ValueTerm
  deriving DecidableEq

namespace InjectableInfo

/-- The fields of an injectable. -/
def fieldNames : List String :=
  ["providedIn"]

/-- The fields of an injectable that are written. -/
def fields (i : InjectableInfo) : List (String × Json) :=
  Json.fieldOf? "providedIn" ValueTerm.toJson i.providedIn

/-- Reads what an injectable's decorator says. -/
def ofFields? (fields : Fields) : Option InjectableInfo := do
  pure { providedIn := ← fields.optional? "providedIn" ValueTerm.ofJson? }

end InjectableInfo

/-- What a module's decorator says. -/
structure ModuleInfo where
  id : Option String
  bootstrap : Option ValueTerm
  declarations : Option ValueTerm
  entryComponents : Option ValueTerm
  exports : Option ValueTerm
  imports : Option ValueTerm
  providers : Option ValueTerm
  schemas : Option ValueTerm
  deriving DecidableEq

namespace ModuleInfo

/-- The fields of a module. -/
def fieldNames : List String :=
  ["id", "bootstrap", "declarations", "entryComponents", "exports", "imports", "providers",
   "schemas"]

/-- The fields of a module that are written. -/
def fields (m : ModuleInfo) : List (String × Json) :=
  Json.fieldOf? "id" Json.str m.id ++ Json.fieldOf? "bootstrap" ValueTerm.toJson m.bootstrap ++
  Json.fieldOf? "declarations" ValueTerm.toJson m.declarations ++
  Json.fieldOf? "entryComponents" ValueTerm.toJson m.entryComponents ++
  Json.fieldOf? "exports" ValueTerm.toJson m.exports ++
  Json.fieldOf? "imports" ValueTerm.toJson m.imports ++
  Json.fieldOf? "providers" ValueTerm.toJson m.providers ++
  Json.fieldOf? "schemas" ValueTerm.toJson m.schemas

/-- Reads what a module's decorator says. -/
def ofFields? (fields : Fields) : Option ModuleInfo := do
  pure {
    id := ← fields.optional? "id" Json.asString?
    bootstrap := ← fields.optional? "bootstrap" ValueTerm.ofJson?
    declarations := ← fields.optional? "declarations" ValueTerm.ofJson?
    entryComponents := ← fields.optional? "entryComponents" ValueTerm.ofJson?
    exports := ← fields.optional? "exports" ValueTerm.ofJson?
    imports := ← fields.optional? "imports" ValueTerm.ofJson?
    providers := ← fields.optional? "providers" ValueTerm.ofJson?
    schemas := ← fields.optional? "schemas" ValueTerm.ofJson? }

end ModuleInfo

/-- What a pipe's decorator says. -/
structure PipeInfo where
  name : Option String
  pure : Option Bool
  standalone : Option Bool
  deriving DecidableEq

namespace PipeInfo

/-- The fields of a pipe. -/
def fieldNames : List String :=
  ["name", "pure", "standalone"]

/-- The fields of a pipe that are written. -/
def fields (p : PipeInfo) : List (String × Json) :=
  Json.fieldOf? "name" Json.str p.name ++ Json.fieldOf? "pure" Json.bool p.pure ++
  Json.fieldOf? "standalone" Json.bool p.standalone

/-- Reads what a pipe's decorator says. -/
def ofFields? (fields : Fields) : Option PipeInfo := do
  let name ← fields.optional? "name" Json.asString?
  let isPure ← fields.optional? "pure" Json.asBool?
  let standalone ← fields.optional? "standalone" Json.asBool?
  some { name, pure := isPure, standalone }

end PipeInfo

end DeclCatalog
