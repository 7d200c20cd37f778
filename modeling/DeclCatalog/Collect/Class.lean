import DeclCatalog.Collect.Members
import DeclCatalog.Record.Class

/-!
# Collecting classes

- `HeritageClause`, `heritageOf`: what `extends` and `implements` say.
- `collectClass`: the record of a class declaration or class expression.
-/

namespace DeclCatalog

/-- The name recorded for a class without one. -/
def anonymousClass : String :=
  "(anonymous)"

/-- What one clause of a class heading says. -/
inductive HeritageClause where
  | superclass (target : Option TypeTerm)
  | interfaces (targets : List TypeTerm)
  | other

namespace HeritageClause

/-- The target of an `extends` clause. -/
def superclass? : HeritageClause → Option (Option TypeTerm)
  | .superclass target => some target
  | _ => none

/-- The targets of an `implements` clause. -/
def interfaceList : HeritageClause → List TypeTerm
  | .interfaces targets => targets
  | _ => []

end HeritageClause

/-- The kind of what a class extends: a name, plain or qualified, or else the sentinel. -/
def superclassKind (src : Source) (value : Node) : Kind :=
  match value.kind with
  | "identifier" => Kind.ofText (src.text value)
  | "member_expression" => Kind.ofText (src.text value)
  | _ => .unknown

/-- The target of an `extends` clause: an expression, with type arguments if it has any. -/
def extendsTarget (src : Source) (limit : Nat) (clause : Node) : Logged (Option TypeTerm) :=
  match clause.child? "value" with
  | none => pure none
  | some value => do
    let kind := superclassKind src value
    let args ← Logged.traverse (typeOf src limit) (clause.childrenIn "type_arguments")
    pure (some (if args.isEmpty then TypeTerm.leaf kind else TypeTerm.composite kind args))

/-- What a clause says. -/
def heritageClause (src : Source) (limit : Nat) (clause : Node) : Logged HeritageClause :=
  match clause.kind with
  | "extends_clause" => .superclass <$> extendsTarget src limit clause
  | "implements_clause" =>
    .interfaces <$> Logged.traverse (typeOf src limit) clause.namedChildren
  | _ => pure .other

/-- What the clauses of a class heading say, in source order. -/
def heritageOf (src : Source) (limit : Nat) (n : Node) : Logged (List HeritageClause) :=
  Logged.traverse (heritageClause src limit)
    ((n.childrenOfKind "class_heritage").flatMap Node.namedChildren)

/-- The members of a class; one without a body has none. -/
def membersOf (src : Source) (limit : Nat) (n : Node) : Logged Members :=
  match n.child? "body" with
  | some body => distribute src limit body
  | none => pure Members.empty

/-- The record of a class. -/
def collectClass (src : Source) (limit : Nat) (site : Site) : Logged ClassRecord := do
  let n := site.node
  let clauses ← heritageOf src limit n
  let members ← membersOf src limit n
  pure {
    identifier := (src.fieldText? n "name").getD anonymousClass
    filepath := src.path
    typeParameters := typeParameterNames src n
    superclass := (clauses.filterMap HeritageClause.superclass?).getLast?.join
    interfaces := clauses.flatMap HeritageClause.interfaceList
    decorators := decoratorNames src site
    constructorParameters := members.constructorParameters
    properties := members.properties
    methods := members.methods
    getters := members.getters
    setters := members.setters }

end DeclCatalog
