import DeclCatalog.Collect.Decorators
import DeclCatalog.Record.Member
import DeclCatalog.Resolve.Value

/-!
# Members of a class body

- `parametersOf`: the parameters of a function or constructor.
- `MemberEntry`: what one child of a class body gives.
- `entriesOf`: the entries of the children in source order. The decorators of a method stand before
  it in the body, so they wait until the next child that is no decorator.
- `Members`, `distribute`: the entries in one list a sort. Of several constructors the last one
  counts.
-/

namespace DeclCatalog

/-- The name of a member without its quotes. -/
def memberName (src : Source) (n : Node) : String :=
  ((src.fieldText? n "name").map Text.stripQuotes).getD ""

/-- The names of the type parameters that a node declares. -/
def typeParameterNames (src : Source) (n : Node) : List String :=
  ((n.childrenIn "type_parameters").filter fun p => p.kind == "type_parameter").filterMap
    fun p => src.fieldText? p "name"

/-- The type in a field, if there is one. -/
def typeIn (src : Source) (limit : Nat) (n : Node) (field : String) : Logged (Option TypeTerm) :=
  Logged.traverse? (typeOf src limit) (n.child? field)

/-- The value in a field, if there is one. -/
def valueIn (src : Source) (limit : Nat) (n : Node) (field : String) : Logged (Option ValueTerm) :=
  Logged.traverse? (valueOf src limit) (n.child? field)

/-! ## Parameters -/

/-- Whether a node is a parameter. -/
def isParameter (n : Node) : Bool :=
  n.kind == "required_parameter" || n.kind == "optional_parameter"

/-- One parameter. -/
def parameterOf (src : Source) (limit : Nat) (p : Node) : Logged Parameter := do
  let type ← typeIn src limit p "type"
  pure {
    identifier := (src.fieldText? p "pattern").getD ""
    type
    optional := p.kind == "optional_parameter" || (p.child? "value").isSome
    decorators := decoratorNamesOf src (p.childrenOfKind "decorator") }

/-- The parameters of a list of parameters. -/
def parametersIn (src : Source) (limit : Nat) (params : Node) : Logged (List Parameter) :=
  Logged.traverse (parameterOf src limit) (params.namedChildren.filter isParameter)

/-- The parameters of a function or constructor. -/
def parametersOf (src : Source) (limit : Nat) (n : Node) : Logged (List Parameter) :=
  match n.child? "parameters" with
  | some params => parametersIn src limit params
  | none => pure []

/-! ## Entries -/

/-- What one child of a class body gives. -/
inductive MemberEntry where
  | construction (parameters : List Parameter)
  | property (property : Property)
  | method (method : Method)
  | getter (accessor : Accessor)
  | setter (accessor : Accessor)

/-- A method. -/
def methodOf (src : Source) (limit : Nat) (n : Node) (decorators : List String) :
    Logged Method := do
  let parameters ← parametersOf src limit n
  let returnType ← typeIn src limit n "return_type"
  pure {
    name := memberName src n
    parameters
    returnType
    isStatic := n.hasToken "static"
    decorators }

/-- The entry of a method with a body: an accessor, a constructor or a method. -/
def definitionEntry (src : Source) (limit : Nat) (n : Node) (decorators : List String) :
    Logged MemberEntry := do
  let name := memberName src n
  let isStatic := n.hasToken "static"
  if n.hasToken "get" then
    let type ← typeIn src limit n "return_type"
    pure (.getter { name, type, isStatic, decorators })
  else if n.hasToken "set" then
    let parameters ← parametersOf src limit n
    pure (.setter { name, type := parameters.head?.bind Parameter.type, isStatic, decorators })
  else if name == "constructor" then
    let parameters ← parametersOf src limit n
    pure (.construction parameters)
  else
    let method ← methodOf src limit n decorators
    pure (.method method)

/-- A field. -/
def propertyOf (src : Source) (limit : Nat) (site : Site) : Logged Property := do
  let n := site.node
  let type ← typeIn src limit n "type"
  let initializer ← valueIn src limit n "value"
  pure {
    name := memberName src n
    type
    optional := n.hasToken "?"
    isStatic := n.hasToken "static"
    initializer
    decorators := decoratorNames src site }

/-- The entries of the children of a class body, where `waiting` are the names of the decorators
since the last child that is none. -/
def entriesFrom (src : Source) (limit : Nat) (body : Node) (waiting : List String) :
    List Node → Logged (List MemberEntry)
  | [] => pure []
  | n :: rest =>
    match n.kind with
    | "decorator" =>
      entriesFrom src limit body (waiting ++ (decoratorName? src n).toList) rest
    | "method_definition" => do
      let entry ← definitionEntry src limit n waiting
      let entries ← entriesFrom src limit body [] rest
      pure (entry :: entries)
    | "abstract_method_signature" => do
      let method ← methodOf src limit n waiting
      let entries ← entriesFrom src limit body [] rest
      pure (.method method :: entries)
    -- the decorators of a field are its own children, so those that wait belong to nothing
    | "public_field_definition" => do
      let property ← propertyOf src limit { parent := some body, node := n }
      let entries ← entriesFrom src limit body [] rest
      pure (.property property :: entries)
    | other => do
      src.report .skippedMember n ("class member `" ++ other ++ "` is not bucketed")
      entriesFrom src limit body [] rest

/-- The entries of a class body. -/
def entriesOf (src : Source) (limit : Nat) (body : Node) : Logged (List MemberEntry) :=
  entriesFrom src limit body [] body.namedChildren

namespace MemberEntry

/-- The parameters of a constructor. -/
def construction? : MemberEntry → Option (List Parameter)
  | .construction parameters => some parameters
  | _ => none

/-- A field. -/
def property? : MemberEntry → Option Property
  | .property p => some p
  | _ => none

/-- A method. -/
def method? : MemberEntry → Option Method
  | .method m => some m
  | _ => none

/-- A `get` accessor. -/
def getter? : MemberEntry → Option Accessor
  | .getter accessor => some accessor
  | _ => none

/-- A `set` accessor. -/
def setter? : MemberEntry → Option Accessor
  | .setter accessor => some accessor
  | _ => none

end MemberEntry

/-- The members of a class, one list a sort. -/
structure Members where
  constructorParameters : List Parameter
  properties : List Property
  methods : List Method
  getters : List Accessor
  setters : List Accessor
  deriving DecidableEq

namespace Members

/-- A class without members. -/
def empty : Members where
  constructorParameters := []
  properties := []
  methods := []
  getters := []
  setters := []

/-- The members of a list of entries. -/
def ofEntries (entries : List MemberEntry) : Members where
  constructorParameters := ((entries.filterMap MemberEntry.construction?).getLast?).getD []
  properties := entries.filterMap MemberEntry.property?
  methods := entries.filterMap MemberEntry.method?
  getters := entries.filterMap MemberEntry.getter?
  setters := entries.filterMap MemberEntry.setter?

/-- Members as an object with all five lists. -/
def toJson (m : Members) : Json :=
  .obj (Json.field "constructorParameters" (.arr (m.constructorParameters.map Parameter.toJson)) ++
    Json.field "properties" (.arr (m.properties.map Property.toJson)) ++
    Json.field "methods" (.arr (m.methods.map Method.toJson)) ++
    Json.field "getters" (.arr (m.getters.map Accessor.toJson)) ++
    Json.field "setters" (.arr (m.setters.map Accessor.toJson)))

end Members

/-- The members of a class body. -/
def distribute (src : Source) (limit : Nat) (body : Node) : Logged Members :=
  Members.ofEntries <$> entriesOf src limit body

end DeclCatalog
