import DeclCatalog.Collect.Class
import DeclCatalog.Record.Basic

/-!
# Collecting decorated classes

The record of a class is read first, then the known keys of the object that its decorator is called
with. A key counts by its last pair alone. A value of the wrong shape leaves the field unset and is
reported.

- `configPairs`: the pairs of the configuration object; none without a decorator or an object.
- `fieldOf`, `termOf`: a field by the shape of its value, and a field that takes any value.
- `collectDecorated`: the record of a class with a role.
-/

namespace DeclCatalog

/-- The constructor parameter types that are recorded as handles of the framework. -/
def referenceTypes : List String :=
  ["ChangeDetectorRef", "ComponentRef", "EmbeddedViewRef", "ElementRef", "TemplateRef", "ViewRef",
   "ViewContainerRef"]

/-- The pairs of the object that the decorator of a role is called with. -/
def configPairs (src : Source) (aliases : Aliases) (site : Site) (role : Role) :
    Logged (List (String × Node)) :=
  match (decoratorOfRole? src aliases site role).bind configObject? with
  | some object => objectPairs src object
  | none => pure []

/-- The value of the last pair with a key. -/
def lastValue? (pairs : List (String × Node)) (key : String) : Option Node :=
  pairs.reverse.lookup key

/-! ## Shapes of values -/

/-- A value shape: what it is called, and what a value of the shape gives. -/
structure ValueShape (α : Type) where
  expected : String
  read? : Node → Option α

/-- A string or template literal, without its quotes. -/
def stringShape (src : Source) : ValueShape String where
  expected := "a string literal"
  read? n := match n.kind with
    | "string" => some (Text.stripQuotes (src.text n))
    | "template_string" => some (Text.stripQuotes (src.text n))
    | _ => none

/-- An array literal; each element is taken as text without quotes around it. -/
def stringsShape (src : Source) : ValueShape (List String) where
  expected := "an array literal"
  read? n :=
    if n.kind == "array" then
      some (n.namedChildren.map fun element => Text.stripQuotes (src.text element))
    else none

/-- A truth value. -/
def booleanShape : ValueShape Bool where
  expected := "`true` or `false`"
  read? n := match n.kind with
    | "true" => some true
    | "false" => some false
    | _ => none

/-- A member of something with a fixed name. -/
def memberShape {α : Type} (src : Source) (owner : String) (named? : String → Option α) :
    ValueShape α where
  expected := "`" ++ owner ++ ".<member>`"
  read? n :=
    if n.kind == "member_expression" then
      match src.fieldText? n "object", src.fieldText? n "property" with
      | some object, some property => if object == owner then named? property else none
      | _, _ => none
    else none

/-- A field by the shape of its value. A value of another shape is reported and leaves it unset. -/
def fieldOf {α : Type} (src : Source) (pairs : List (String × Node)) (key : String)
    (shape : ValueShape α) : Logged (Option α) :=
  match lastValue? pairs key with
  | none => pure none
  | some value =>
    match shape.read? value with
    | some a => pure (some a)
    | none => do
      src.report .unsetDecoratorField value
        ("`" ++ key ++ "` expects " ++ shape.expected ++ ", found `" ++ value.kind ++ "`")
      pure none

/-- A field that takes any value. -/
def termOf (src : Source) (limit : Nat) (pairs : List (String × Node)) (key : String) :
    Logged (Option ValueTerm) :=
  Logged.traverse? (valueOf src limit) (lastValue? pairs key)

/-! ## Constructor parameters -/

/-- The parameters of the first constructor of a class. -/
def constructorParams? (src : Source) (n : Node) : Option Node := do
  let body ← n.child? "body"
  let method ← body.namedChildren.find? fun member =>
    member.kind == "method_definition" && src.fieldText? member "name" == some "constructor"
  method.child? "parameters"

/-- The attribute that a parameter takes: the argument of its last attribute decorator. -/
def attributeParameter? (src : Source) (param : Node) : Option AttributeParameter := do
  let identifier ← src.fieldText? param "pattern"
  let decorators := (param.childrenOfKind "decorator").filter fun d =>
    decoratorName? src d == some "Attribute"
  let argument ← (decorators.filterMap firstArgument?).getLast?
  pure { identifier, attributeName := Text.stripQuotes (src.text argument) }

/-- The name of a parameter's type, when it is a plain or generic name. -/
def typeName? (src : Source) (param : Node) : Option String := do
  let annotation ← param.child? "type"
  let type ← annotation.firstNamedChild?
  match type.kind with
  | "type_identifier" => some (src.text type)
  | "generic_type" => src.fieldText? type "name"
  | _ => none

/-- The handle that a parameter takes. -/
def referenceParameter? (src : Source) (param : Node) : Option ReferenceParameter := do
  let identifier ← src.fieldText? param "pattern"
  let type ← typeName? src param
  if referenceTypes.contains type then pure { identifier, type } else none

/-- The nodes in the parameter list of a class's constructor. -/
def constructorParamNodes (src : Source) (n : Node) : List Node :=
  match constructorParams? src n with
  | some params => params.namedChildren
  | none => []

/-! ## The five roles -/

/-- What a directive or component is given as a directive. -/
def directiveInfo (src : Source) (limit : Nat) (pairs : List (String × Node)) (n : Node) :
    Logged DirectiveInfo := do
  let selector ← fieldOf src pairs "selector" (stringShape src)
  let host ← termOf src limit pairs "host"
  let inputs ← fieldOf src pairs "inputs" (stringsShape src)
  let outputs ← fieldOf src pairs "outputs" (stringsShape src)
  let providers ← termOf src limit pairs "providers"
  let queries ← termOf src limit pairs "queries"
  let exportAs ← fieldOf src pairs "exportAs" (stringShape src)
  let standalone ← fieldOf src pairs "standalone" booleanShape
  pure {
    selector, host, inputs, outputs, providers, queries, exportAs, standalone
    constructorAttributes := (constructorParamNodes src n).filterMap (attributeParameter? src)
    constructorReferences := (constructorParamNodes src n).filterMap (referenceParameter? src) }

/-- What a component is given. -/
def componentInfo (src : Source) (limit : Nat) (pairs : List (String × Node)) (n : Node) :
    Logged ComponentInfo := do
  let directive ← directiveInfo src limit pairs n
  let changeDetection ← fieldOf src pairs "changeDetection"
    (memberShape src "ChangeDetectionStrategy" ChangeDetection.ofName?)
  let encapsulation ← fieldOf src pairs "encapsulation"
    (memberShape src "ViewEncapsulation" Encapsulation.ofName?)
  let moduleId ← fieldOf src pairs "moduleId" (memberShape src "module" some)
  let preserveWhitespaces ← fieldOf src pairs "preserveWhitespaces" booleanShape
  let styles ← fieldOf src pairs "styles" (stringsShape src)
  let styleUrls ← fieldOf src pairs "styleUrls" (stringsShape src)
  let template ← fieldOf src pairs "template" (stringShape src)
  let templateUrl ← fieldOf src pairs "templateUrl" (stringShape src)
  let viewProviders ← termOf src limit pairs "viewProviders"
  let imports ← termOf src limit pairs "imports"
  let animations ← termOf src limit pairs "animations"
  pure {
    directive, changeDetection, encapsulation, moduleId, preserveWhitespaces, styles, styleUrls,
    template, templateUrl, viewProviders, imports, animations }

/-- What an injectable is given. -/
def injectableInfo (src : Source) (limit : Nat) (pairs : List (String × Node)) :
    Logged InjectableInfo := do
  let providedIn ← termOf src limit pairs "providedIn"
  pure { providedIn }

/-- What a module is given. -/
def moduleInfo (src : Source) (limit : Nat) (pairs : List (String × Node)) :
    Logged ModuleInfo := do
  let id ← fieldOf src pairs "id" (stringShape src)
  let bootstrap ← termOf src limit pairs "bootstrap"
  let declarations ← termOf src limit pairs "declarations"
  let entryComponents ← termOf src limit pairs "entryComponents"
  let exports ← termOf src limit pairs "exports"
  let imports ← termOf src limit pairs "imports"
  let providers ← termOf src limit pairs "providers"
  let schemas ← termOf src limit pairs "schemas"
  pure {
    id, bootstrap, declarations, entryComponents, exports, imports, providers, schemas }

/-- What a pipe is given. -/
def pipeInfo (src : Source) (pairs : List (String × Node)) : Logged PipeInfo := do
  let name ← fieldOf src pairs "name" (stringShape src)
  let isPure ← fieldOf src pairs "pure" booleanShape
  let standalone ← fieldOf src pairs "standalone" booleanShape
  pure (PipeInfo.mk name isPure standalone)

/-- The record of a class with a role. -/
def collectDecorated (src : Source) (config : Config) (site : Site) (role : Role) :
    Logged Record := do
  let limit := config.limits.maxDepth
  let base ← collectClass src limit site
  let pairs ← configPairs src config.aliases site role
  match role with
  | .component => do
    let info ← componentInfo src limit pairs site.node
    pure (.component { base, info })
  | .directive => do
    let info ← directiveInfo src limit pairs site.node
    pure (.directive { base, info })
  | .injectable => do
    let info ← injectableInfo src limit pairs
    pure (.injectable { base, info })
  | .module => do
    let info ← moduleInfo src limit pairs
    pure (.module { base, info })
  | .pipe => do
    let info ← pipeInfo src pairs
    pure (.pipe { base, info })

end DeclCatalog
