import DeclCatalog.Resolve.Type
import DeclCatalog.Text.IntPrefix
import DeclCatalog.Text.Quote

/-!
# Resolving values

A value expression becomes a `ValueTerm`. As with types, the form of a node is read off first.

- `objectPairs`: the `key: value` members of an object literal; any other member is reported.
- `ValueForm`, `valueForm`: what a value expression is made of.
- `resolveValue`: the term of a node within a number of levels.
-/

namespace DeclCatalog

/-- The `key: value` members of an object literal among its members, in source order. -/
def pairsOf (src : Source) : List Node → Logged (List (String × Node))
  | [] => pure []
  | member :: rest =>
    if member.kind == "pair" then
      match member.child? "key", member.child? "value" with
      | some key, some value => do
        let pairs ← pairsOf src rest
        pure ((Text.stripQuotes (src.text key), value) :: pairs)
      | _, _ => pairsOf src rest
    else do
      src.report .skippedObjectMember member
        ("object member `" ++ member.kind ++ "` is not a key/value pair")
      pairsOf src rest

/-- The `key: value` members of an object literal. -/
def objectPairs (src : Source) (object : Node) : Logged (List (String × Node)) :=
  pairsOf src object.namedChildren

/-- What a value expression is made of. -/
inductive ValueForm where
  | term (term : TypeTerm)
  | access (operand : String) (name : String)
  | array (elements : List Node)
  | object (pairs : List (String × Node))
  | call (callee : Option Node) (args : List Node)
  | construct (target : TypeTerm) (typeArgs : List Node) (args : List Node)
  | unrecognized

/-- The form of a number: the integer it begins with, if it has one. -/
def numberForm (src : Source) (n : Node) : Logged ValueForm :=
  let raw := src.text n
  match Text.intPrefix? raw with
  | some value => pure (.term (TypeTerm.scalar .number (.integer value)))
  | none => do
    src.report .unparsableNumber n ("`" ++ raw ++ "` has no base-10 integer prefix")
    pure (.term (TypeTerm.leaf .number))

/-- What a construction constructs: a plain name, or else the sentinel. -/
def constructTarget (src : Source) (n : Node) : TypeTerm :=
  match n.child? "constructor" with
  | some name =>
    if name.kind == "identifier" then TypeTerm.identifier (src.text name) else TypeTerm.unknown
  | none => TypeTerm.unknown

/-- The form of a value expression. -/
def valueForm (src : Source) (n : Node) : Logged ValueForm :=
  match n.kind with
  | "array" => pure (.array n.namedChildren)
  | "object" => do
    let pairs ← objectPairs src n
    pure (.object pairs)
  | "as_expression" => pure (.term (TypeTerm.scalar .castAs (.text (src.text n))))
  | "type_assertion" => pure (.term (TypeTerm.scalar .castAs (.text (src.text n))))
  | "call_expression" => pure (.call (n.child? "function") (n.childrenIn "arguments"))
  | "new_expression" =>
    pure (.construct (constructTarget src n) (n.childrenIn "type_arguments")
      (n.childrenIn "arguments"))
  | "member_expression" =>
    pure (.access ((src.fieldText? n "object").getD "") ((src.fieldText? n "property").getD ""))
  | "true" => pure (.term (TypeTerm.scalar .boolean (.boolean true)))
  | "false" => pure (.term (TypeTerm.scalar .boolean (.boolean false)))
  | "number" => numberForm src n
  | "string" => pure (.term (TypeTerm.scalar .string (.text (src.text n))))
  | "template_string" => pure (.term (TypeTerm.scalar .string (.text (src.text n))))
  | "identifier" => pure (.term (TypeTerm.identifier (src.text n)))
  | "null" => pure (.term (TypeTerm.leaf .null))
  | "undefined" => pure (.term (TypeTerm.leaf .undefined))
  | "this" => pure (.term (TypeTerm.leaf .this))
  | _ => pure .unrecognized

/-- What the sentinel names when the nesting limit cuts a value off. -/
def depthLimitKind : String :=
  "depth-limit"

/-- Resolves a value within a number of levels; `limit` is the limit that the message names. -/
def resolveValue (src : Source) (limit : Nat) : Nat → Node → Logged ValueTerm
  | 0, n => do
    src.report .depthLimit n ("expression nesting deeper than " ++ limit.repr)
    pure (ValueTerm.unknown depthLimitKind)
  | levels + 1, n => do
    let form ← valueForm src n
    match form with
    | .term term => pure (.plain term)
    | .access operand name => pure (.access operand name)
    | .array elements => do
      let members ← Logged.traverse
        (fun element => Member.element <$> resolveValue src limit levels element) elements
      pure (.group .array members)
    | .object pairs => do
      let members ← Logged.traverse
        (fun (key, value) => Member.property key <$> resolveValue src limit levels value) pairs
      pure (.group .object members)
    | .call callee args => do
      let callee ← Logged.traverse? (resolveValue src limit levels) callee
      let args ← Logged.traverse (resolveValue src limit levels) args
      pure (.call (callee.getD (ValueTerm.unknown n.kind)) args)
    | .construct target typeArgs args => do
      let typeArgs ← Logged.traverse (resolveType src limit levels) typeArgs
      let args ← Logged.traverse (resolveValue src limit levels) args
      pure (.construct target typeArgs args)
    | .unrecognized => do
      src.report .unknownExpression n ("unrecognized expression `" ++ n.kind ++ "`")
      pure (ValueTerm.unknown n.kind)

/-- Resolves a value at the outermost level: `limit` further levels are entered. -/
def valueOf (src : Source) (limit : Nat) (n : Node) : Logged ValueTerm :=
  resolveValue src limit (limit + 1) n

end DeclCatalog
