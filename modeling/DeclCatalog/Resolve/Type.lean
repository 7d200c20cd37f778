import DeclCatalog.Term.Basic
import DeclCatalog.Tree.Source

/-!
# Resolving types

A type expression becomes a `TypeTerm`. What its node asks for is read off first, as a `TypeForm`;
resolving then only has to go through the parts of that form.

- `TypeForm`: a leaf, a literal, a composite of further nodes, or something not recognized.
- `typeForm`: the form of a node.
- `resolveType`: the term of a node within a number of levels. At zero levels the nesting limit is
  passed, and the sentinel stands for the rest.
-/

namespace DeclCatalog

/-- What a type expression is made of. -/
inductive TypeForm where
  | leaf (kind : Kind)
  | literal (raw : String)
  | composite (kind : Kind) (parts : List Node)
  | unrecognized

/-- The type that an annotation holds; any other node is the type itself. -/
def bareType (n : Node) : Node :=
  match n.kind with
  | "type_annotation" => n.firstNamedChild?.getD n
  | "opting_type_annotation" => n.firstNamedChild?.getD n
  | _ => n

/-- The kind of a keyword type. -/
def keywordKind? : String → Option Kind
  | "any" => some .any
  | "boolean" => some .boolean
  | "number" => some .number
  | "string" => some .string
  | "void" => some .void
  | "never" => some .never
  | "undefined" => some .undefined
  | "unknown" => some .unknownKeyword
  | "symbol" => some .symbol
  | "unique symbol" => some .symbol
  | "bigint" => some .bigint
  | "object" => some .object
  | _ => none

/-- The form of a literal type: `null` and `undefined` are kinds of their own. -/
def literalForm (src : Source) (n : Node) : TypeForm :=
  match n.firstNamedChild?.map Node.kind with
  | some "null" => .leaf .null
  | some "undefined" => .leaf .undefined
  | _ => .literal (src.text n)

/-- The type of a member of a tuple, without its name or its mark. -/
def tupleElement (n : Node) : Node :=
  match n.kind with
  | "required_parameter" => (n.child? "type").getD n
  | "optional_parameter" => (n.child? "type").getD n
  | "optional_type" => n.firstNamedChild?.getD n
  | "rest_type" => n.firstNamedChild?.getD n
  | _ => n

/-- The form of a type expression. -/
def typeForm (src : Source) (n : Node) : TypeForm :=
  match n.kind with
  | "predefined_type" =>
    match keywordKind? (src.text n) with
    | some kind => .leaf kind
    | none => .unrecognized
  | "function_type" => .leaf .function
  | "constructor_type" => .leaf .function
  | "this_type" => .leaf .this
  | "union_type" => .composite .union n.operands
  | "intersection_type" => .composite .intersection n.operands
  | "parenthesized_type" => .composite .parenthesized n.namedChildren
  | "literal_type" => literalForm src n
  | "array_type" => .composite .array n.namedChildren
  | "object_type" => .leaf .object
  | "tuple_type" => .composite .tuple (n.namedChildren.map tupleElement)
  | "type_identifier" => .leaf (Kind.ofText (src.text n))
  | "nested_type_identifier" => .leaf (Kind.ofText (src.text n))
  | "identifier" => .leaf (Kind.ofText (src.text n))
  | "generic_type" =>
    match n.child? "name" with
    | some name => .composite (Kind.ofText (src.text name)) (n.childrenIn "type_arguments")
    | none => .unrecognized
  | _ => .unrecognized

/-- Resolves a type within a number of levels; `limit` is the limit that the message names. -/
def resolveType (src : Source) (limit : Nat) : Nat → Node → Logged TypeTerm
  | 0, n => do
    src.report .depthLimit n ("type nesting deeper than " ++ limit.repr)
    pure TypeTerm.unknown
  | levels + 1, n =>
    let n := bareType n
    match typeForm src n with
    | .leaf kind => pure (TypeTerm.leaf kind)
    | .literal raw => pure (TypeTerm.scalar .literal (.text raw))
    | .composite kind parts => do
      let args ← Logged.traverse (resolveType src limit levels) parts
      pure (TypeTerm.composite kind args)
    | .unrecognized => do
      src.report .unknownType n ("unrecognized type node `" ++ n.kind ++ "`")
      pure TypeTerm.unknown

/-- Resolves a type at the outermost level: `limit` further levels are entered. -/
def typeOf (src : Source) (limit : Nat) (n : Node) : Logged TypeTerm :=
  resolveType src limit (limit + 1) n

end DeclCatalog
