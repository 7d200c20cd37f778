import DeclCatalog.Collect.Members
import DeclCatalog.Record.Declaration

/-!
# Collecting enums, interfaces and type aliases

- `collectEnum`: the record of an enum; a child that is no member is passed over.
- `InterfaceEntry`, `collectInterface`: the record of an interface. A property whose type is a
  function type counts as a function; signatures without a name are reported.
- `collectAlias`: the record of a type alias.
-/

namespace DeclCatalog

/-! ## Enums -/

/-- A member of an enum: a name, or a name with a value. -/
def enumMember? (src : Source) (limit : Nat) (n : Node) : Logged (Option EnumMember) :=
  match n.kind with
  | "enum_assignment" =>
    match n.firstNamedChild? with
    | none => pure none
    | some name => do
      let value ← valueIn src limit n "value"
      pure (some { name := Text.stripQuotes (src.text name), value })
  | "property_identifier" => pure (some { name := Text.stripQuotes (src.text n), value := none })
  | "string" => pure (some { name := Text.stripQuotes (src.text n), value := none })
  | "number" => pure (some { name := Text.stripQuotes (src.text n), value := none })
  | _ => pure none

/-- The record of an enum. -/
def collectEnum (src : Source) (limit : Nat) (n : Node) : Logged EnumRecord := do
  let members ← Logged.traverse (enumMember? src limit) (n.childrenIn "body")
  pure {
    identifier := (src.fieldText? n "name").getD ""
    filepath := src.path
    isConst := n.hasToken "const"
    members := members.filterMap id }

/-! ## Interfaces -/

/-- What one child of an interface body gives. -/
inductive InterfaceEntry where
  | property (property : InterfaceProperty)
  | optionalProperty (property : InterfaceProperty)
  | function (function : InterfaceFunction)

namespace InterfaceEntry

/-- A required property. -/
def property? : InterfaceEntry → Option InterfaceProperty
  | .property p => some p
  | _ => none

/-- An optional property. -/
def optionalProperty? : InterfaceEntry → Option InterfaceProperty
  | .optionalProperty p => some p
  | _ => none

/-- A function. -/
def function? : InterfaceEntry → Option InterfaceFunction
  | .function f => some f
  | _ => none

end InterfaceEntry

/-- A function with the name of a member and the parameters and result of a signature. -/
def interfaceFunction (src : Source) (limit : Nat) (member signature : Node) :
    Logged InterfaceFunction := do
  let parameters ← parametersOf src limit signature
  let returnType ← typeIn src limit signature "return_type"
  pure {
    name := memberName src member
    parameters
    returnType
    optional := member.hasToken "?" }

/-- The function type that a property is declared with. -/
def functionType? (member : Node) : Option Node :=
  ((member.child? "type").bind Node.firstNamedChild?).filter fun type =>
    type.kind == "function_type"

/-- The entry of a property. -/
def propertyEntry (src : Source) (limit : Nat) (member : Node) : Logged InterfaceEntry :=
  match functionType? member with
  | some signature => .function <$> interfaceFunction src limit member signature
  | none => do
    let type ← typeIn src limit member "type"
    let property : InterfaceProperty := {
      name := memberName src member
      type
      readonly := member.hasToken "readonly" }
    pure (if member.hasToken "?" then .optionalProperty property else .property property)

/-- The entry of a child of an interface body; a child that gives none is reported. -/
def entryOfSignature? (src : Source) (limit : Nat) (member : Node) :
    Logged (Option InterfaceEntry) :=
  match member.kind with
  | "property_signature" => some <$> propertyEntry src limit member
  | "method_signature" =>
    (some ∘ .function) <$> interfaceFunction src limit member member
  | other => do
    src.report .skippedMember member ("interface member `" ++ other ++ "` is not recorded")
    pure none

/-- The record of an interface. -/
def collectInterface (src : Source) (limit : Nat) (n : Node) : Logged InterfaceRecord := do
  let supertypes ← Logged.traverse (typeOf src limit)
    ((n.childrenOfKind "extends_type_clause").flatMap Node.namedChildren)
  let entries ← Logged.traverse (entryOfSignature? src limit) (n.childrenIn "body")
  let entries := entries.filterMap id
  pure {
    identifier := (src.fieldText? n "name").getD ""
    filepath := src.path
    typeParameters := typeParameterNames src n
    supertypes
    properties := entries.filterMap InterfaceEntry.property?
    optionalProperties := entries.filterMap InterfaceEntry.optionalProperty?
    functions := entries.filterMap InterfaceEntry.function? }

/-! ## Type aliases -/

/-- The record of a type alias; without a type it stands for the sentinel. -/
def collectAlias (src : Source) (limit : Nat) (n : Node) : Logged AliasRecord := do
  let type ← typeIn src limit n "value"
  pure {
    identifier := (src.fieldText? n "name").getD ""
    filepath := src.path
    typeParameters := typeParameterNames src n
    type := type.getD TypeTerm.unknown }

end DeclCatalog
