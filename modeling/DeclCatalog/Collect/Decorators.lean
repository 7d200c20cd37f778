import DeclCatalog.Config.Basic
import DeclCatalog.Tree.Source

/-!
# Decorators

Decorators that are written before `export` hang below the export statement, so both places are
searched, that of the export statement first.

- `decoratorNodes`: the decorators of a declaration, in source order.
- `decoratorName?`: the name of a decorator; `@Foo`, `@Foo()` and `@ns.Foo()` are all named `Foo`.
- `locate?`: the last decorator of a name.
- `decoratorOfRole?`, `frameworkDecorator?`: the decorator that gives a class its role.
- `firstArgument?`, `configObject?`: what a decorator is called with.
-/

namespace DeclCatalog

/-- The decorators of a declaration, in source order. -/
def decoratorNodes (site : Site) : List Node :=
  let outer := match site.parent with
    | some parent =>
      if parent.kind == "export_statement" then parent.childrenOfKind "decorator" else []
    | none => []
  outer ++ site.node.childrenOfKind "decorator"

/-- The name of a decorator, when it is called by a name or by a member of something. -/
def decoratorName? (src : Source) (decorator : Node) : Option String := do
  let expression ← decorator.firstNamedChild?
  let target ←
    if expression.kind == "call_expression" then expression.child? "function" else some expression
  match target.kind with
  | "identifier" => some (src.text target)
  | "member_expression" => (target.child? "property").map src.text
  | _ => none

/-- The names of decorators, in order; a decorator without a name is passed over. -/
def decoratorNamesOf (src : Source) (decorators : List Node) : List String :=
  decorators.filterMap (decoratorName? src)

/-- The names of the decorators of a declaration, in source order. -/
def decoratorNames (src : Source) (site : Site) : List String :=
  decoratorNamesOf src (decoratorNodes site)

/-- The decorators of a declaration that have a name, with it. -/
def namedDecorators (src : Source) (site : Site) : List (String × Node) :=
  (decoratorNodes site).filterMap fun d => (decoratorName? src d).map fun name => (name, d)

/-- The last decorator of a name. -/
def locate? (src : Source) (site : Site) (name : String) : Option Node :=
  (namedDecorators src site).reverse.lookup name

/-- Every name with the last decorator that has it. -/
def locateAll (src : Source) (site : Site) : List (String × Node) :=
  (decoratorNames src site).eraseDups.filterMap fun name =>
    (locate? src site name).map fun d => (name, d)

/-- The decorator that gives a declaration a role: the last one with the framework's name, or else
the last one with an alias of the role. -/
def decoratorOfRole? (src : Source) (aliases : Aliases) (site : Site) (role : Role) : Option Node :=
  match locate? src site role.decorator with
  | some d => some d
  | none => (decoratorNodes site).reverse.find? fun d =>
      (decoratorName? src d).bind aliases.get? == some role

/-- The role of a class, and the decorator that gives it. -/
def frameworkDecorator? (src : Source) (aliases : Aliases) (site : Site) : Option (Role × Node) :=
  Role.byPriority.findSome? fun role =>
    (decoratorOfRole? src aliases site role).map fun d => (role, d)

/-- The first argument of a decorator that is called. -/
def firstArgument? (decorator : Node) : Option Node := do
  let call ← decorator.firstNamedChild?
  if call.kind == "call_expression" then (← call.child? "arguments").firstNamedChild? else none

/-- The object literal that a decorator is called with. -/
def configObject? (decorator : Node) : Option Node :=
  (firstArgument? decorator).filter fun argument => argument.kind == "object"

end DeclCatalog
