import DeclCatalog.Term.Kind
import DeclCatalog.Text.Blank

/-!
# Terms

The normal forms of type expressions and of value expressions.

- `Literal`: a scalar that a term carries.
- `TypeTerm`: a kind with resolved arguments or a literal.
- `ValueTerm`: a plain term, an array or object literal, a call, a construction or a member access.
- `ValueTerm.isUnknown`, `ValueTerm.keyName?`: what readers of a value ask for.
-/

namespace DeclCatalog

/-- A scalar that a term carries. -/
inductive Literal where
  | boolean (value : Bool)
  | integer (value : Int64)
  /-- Text as it stands in the source, with its quotes. -/
  | text (raw : String)
  deriving DecidableEq

/-- The normal form of a type expression. -/
inductive TypeTerm where
  | mk (kind : Kind) (args : Option (List TypeTerm)) (literal : Option Literal)

namespace TypeTerm

/-- The kind of a term. -/
def kind : TypeTerm → Kind
  | .mk kind _ _ => kind

/-- The arguments of a term, when it has a list of them. -/
def args? : TypeTerm → Option (List TypeTerm)
  | .mk _ args _ => args

/-- The literal of a term. -/
def literal? : TypeTerm → Option Literal
  | .mk _ _ literal => literal

/-- The arguments of a term; a leaf has none. -/
def args (t : TypeTerm) : List TypeTerm :=
  t.args?.getD []

/-- A term with neither arguments nor a literal. -/
def leaf (kind : Kind) : TypeTerm :=
  .mk kind none none

/-- A term with arguments. -/
def composite (kind : Kind) (args : List TypeTerm) : TypeTerm :=
  .mk kind (some args) none

/-- A term with a literal. -/
def scalar (kind : Kind) (value : Literal) : TypeTerm :=
  .mk kind none (some value)

/-- An identifier, without blanks around it. -/
def identifier (name : String) : TypeTerm :=
  leaf (Kind.ofText (Text.trim name))

/-- The sentinel for a type that was not understood. -/
def unknown : TypeTerm :=
  leaf .unknown

mutual

/-- Equality of terms can be decided. -/
def decEq : (s t : TypeTerm) → Decidable (s = t)
  | .mk k none l, .mk k' none l' =>
    if h : k = k' ∧ l = l' then isTrue (by rw [h.1, h.2])
    else isFalse fun e => by
      cases e
      exact h ⟨rfl, rfl⟩
  | .mk _ none _, .mk _ (some _) _ => isFalse (by intro e; cases e)
  | .mk _ (some _) _, .mk _ none _ => isFalse (by intro e; cases e)
  | .mk k (some as) l, .mk k' (some as') l' =>
    match decEqList as as' with
    | isTrue ha =>
      if h : k = k' ∧ l = l' then isTrue (by rw [h.1, h.2, ha])
      else isFalse fun e => by
        cases e
        exact h ⟨rfl, rfl⟩
    | isFalse ha => isFalse fun e => by
        cases e
        exact ha rfl

/-- Equality of lists of terms can be decided. -/
def decEqList : (ss ts : List TypeTerm) → Decidable (ss = ts)
  | [], [] => isTrue rfl
  | [], _ :: _ => isFalse (by intro e; cases e)
  | _ :: _, [] => isFalse (by intro e; cases e)
  | s :: ss, t :: ts =>
    match decEq s t with
    | isFalse h => isFalse fun e => h (List.cons.inj e).1
    | isTrue h =>
      match decEqList ss ts with
      | isFalse hs => isFalse fun e => hs (List.cons.inj e).2
      | isTrue hs => isTrue (by rw [h, hs])

end

instance : DecidableEq TypeTerm :=
  decEq

end TypeTerm

/-- The normal form of a value expression. -/
inductive ValueTerm where
  /-- A literal, an identifier, a keyword, a cast or a sentinel. -/
  | plain (term : TypeTerm)
  /-- An array or object literal; the members of an object have keys. -/
  | group (kind : Kind) (members : List (Option TypeTerm × ValueTerm))
  | call (callee : ValueTerm) (args : List ValueTerm)
  | construct (target : TypeTerm) (typeArgs : List TypeTerm) (args : List ValueTerm)
  /-- `operand.name`, with the operand as text. -/
  | access (operand : String) (name : String)

/-- A member of an array or object literal: its key, if it has one, and its value. -/
abbrev Member := Option TypeTerm × ValueTerm

namespace Member

/-- The text of a member's key. -/
def keyName? (member : Member) : Option String := do
  let key ← member.1
  match key.literal? with
  | some (.text name) => some name
  | _ => none

/-- An element of an array. -/
def element (value : ValueTerm) : Member :=
  (none, value)

/-- A property of an object. -/
def property (name : String) (value : ValueTerm) : Member :=
  (some (TypeTerm.scalar .string (.text name)), value)

end Member

namespace ValueTerm

/-- The sentinel for a value that was not understood. -/
def unknown (nodeKind : String) : ValueTerm :=
  .plain (TypeTerm.leaf (.unknownValue nodeKind))

/-- An identifier. -/
def identifier (name : String) : ValueTerm :=
  .plain (TypeTerm.identifier name)

/-- The term of a plain value. -/
def asType? : ValueTerm → Option TypeTerm
  | .plain term => some term
  | _ => none

/-- Whether a value is a plain sentinel. -/
def isUnknown (value : ValueTerm) : Bool :=
  match value.asType? with
  | some term => term.kind.isUnknown
  | none => false

mutual

/-- Equality of values can be decided. -/
def decEq : (a b : ValueTerm) → Decidable (a = b)
  | .plain s, .plain t =>
    if h : s = t then isTrue (by rw [h]) else isFalse fun e => h (ValueTerm.plain.inj e)
  | .group k ms, .group k' ms' =>
    match decEqMembers ms ms' with
    | isFalse hm => isFalse fun e => hm (ValueTerm.group.inj e).2
    | isTrue hm =>
      if h : k = k' then isTrue (by rw [h, hm]) else isFalse fun e => h (ValueTerm.group.inj e).1
  | .call f as, .call f' as' =>
    match decEq f f' with
    | isFalse hf => isFalse fun e => hf (ValueTerm.call.inj e).1
    | isTrue hf =>
      match decEqList as as' with
      | isFalse ha => isFalse fun e => ha (ValueTerm.call.inj e).2
      | isTrue ha => isTrue (by rw [hf, ha])
  | .construct t ts as, .construct t' ts' as' =>
    match decEqList as as' with
    | isFalse ha => isFalse fun e => ha (ValueTerm.construct.inj e).2.2
    | isTrue ha =>
      if h : t = t' ∧ ts = ts' then isTrue (by rw [h.1, h.2, ha])
      else isFalse fun e => h ⟨(ValueTerm.construct.inj e).1, (ValueTerm.construct.inj e).2.1⟩
  | .access o n, .access o' n' =>
    if h : o = o' ∧ n = n' then isTrue (by rw [h.1, h.2])
    else isFalse fun e => h (ValueTerm.access.inj e)
  | .plain _, .group _ _ => isFalse (by intro e; cases e)
  | .plain _, .call _ _ => isFalse (by intro e; cases e)
  | .plain _, .construct _ _ _ => isFalse (by intro e; cases e)
  | .plain _, .access _ _ => isFalse (by intro e; cases e)
  | .group _ _, .plain _ => isFalse (by intro e; cases e)
  | .group _ _, .call _ _ => isFalse (by intro e; cases e)
  | .group _ _, .construct _ _ _ => isFalse (by intro e; cases e)
  | .group _ _, .access _ _ => isFalse (by intro e; cases e)
  | .call _ _, .plain _ => isFalse (by intro e; cases e)
  | .call _ _, .group _ _ => isFalse (by intro e; cases e)
  | .call _ _, .construct _ _ _ => isFalse (by intro e; cases e)
  | .call _ _, .access _ _ => isFalse (by intro e; cases e)
  | .construct _ _ _, .plain _ => isFalse (by intro e; cases e)
  | .construct _ _ _, .group _ _ => isFalse (by intro e; cases e)
  | .construct _ _ _, .call _ _ => isFalse (by intro e; cases e)
  | .construct _ _ _, .access _ _ => isFalse (by intro e; cases e)
  | .access _ _, .plain _ => isFalse (by intro e; cases e)
  | .access _ _, .group _ _ => isFalse (by intro e; cases e)
  | .access _ _, .call _ _ => isFalse (by intro e; cases e)
  | .access _ _, .construct _ _ _ => isFalse (by intro e; cases e)

/-- Equality of lists of values can be decided. -/
def decEqList : (as bs : List ValueTerm) → Decidable (as = bs)
  | [], [] => isTrue rfl
  | [], _ :: _ => isFalse (by intro e; cases e)
  | _ :: _, [] => isFalse (by intro e; cases e)
  | a :: as, b :: bs =>
    match decEq a b with
    | isFalse h => isFalse fun e => h (List.cons.inj e).1
    | isTrue h =>
      match decEqList as bs with
      | isFalse hs => isFalse fun e => hs (List.cons.inj e).2
      | isTrue hs => isTrue (by rw [h, hs])

/-- Equality of lists of members can be decided. -/
def decEqMembers : (as bs : List (Option TypeTerm × ValueTerm)) → Decidable (as = bs)
  | [], [] => isTrue rfl
  | [], _ :: _ => isFalse (by intro e; cases e)
  | _ :: _, [] => isFalse (by intro e; cases e)
  | (k, a) :: as, (k', b) :: bs =>
    match decEq a b with
    | isFalse h => isFalse fun e => h (Prod.mk.inj (List.cons.inj e).1).2
    | isTrue h =>
      match decEqMembers as bs with
      | isFalse hs => isFalse fun e => hs (List.cons.inj e).2
      | isTrue hs =>
        if hk : k = k' then isTrue (by rw [h, hs, hk])
        else isFalse fun e => hk (Prod.mk.inj (List.cons.inj e).1).1

end

instance : DecidableEq ValueTerm :=
  decEq

end ValueTerm

end DeclCatalog
