import DeclCatalog.Proofs.MemberDistribution

/-!
# The list of a member by its syntax

The keywords of a member and its name say what it is: an accessor by `get` or `set`, a constructor
by its name if it is not static, and otherwise a method. The distribution of a class body asks these
questions of definitions alone, and it does not ask whether a constructor is static. So an abstract
accessor is taken for a method, and a static method called `constructor` for a constructor. All
other members go where their syntax says.

- `value_entriesOf_split`: the entries of a class body around one of its members.
- `isInstanceConstructor`, `LandsBySyntax`: what the syntax of a member says, and a class body that
  is distributed accordingly around it.
- `IsPlainMember`, `memberSort_of_isPlainMember`: the members of which the right questions are
  asked.
- `plain_member_lands_by_syntax`: **a plain member goes where its syntax says**.
- `member_may_land_elsewhere`: other members need not, neither abstract ones nor definitions.
-/

namespace DeclCatalog

/-! ## A class body around a member -/

section

variable {src : Source} {limit : Nat} {body : Node} {before after : List Node} {m : Node}

/-- Around a member that is no decorator, a class body falls into three parts, and no decorator
waits at the beginning of the last one. -/
theorem value_entriesOf_split (hbody : body.namedChildren = before ++ m :: after)
    (hm : ¬ m.isDecorator = true) :
    (entriesOf src limit body).value =
      (entriesFrom src limit body [] before).value ++
      ((entryAs src limit body { before, node := m } (memberSort src m)).toList ++
      (entriesFrom src limit body [] after).value) := by
  have hearlier := (@entriesFrom_eq src limit body [] before).1
  have hlater := (@entriesFrom_eq src limit body (before ++ [m]) after).1
  rw [waitingAfter_of_not_isDecorator hm] at hlater
  have hall := (@entriesFrom_eq src limit body [] body.namedChildren).1
  rw [hbody, childrenFrom_append, childrenFrom_cons, List.filterMap_append,
    List.filterMap_cons, List.nil_append, ← hlater] at hall
  rw [entriesOf, hbody]
  refine hall.trans ?_
  rw [value_entryOf?, ← hearlier]
  cases entryAs src limit body { before, node := m } (memberSort src m) <;> rfl

/-- The entries of one kind around a member, which is among them if it plays the part. -/
theorem filterMap_entriesOf_split (hbody : body.namedChildren = before ++ m :: after)
    (hm : ¬ m.isDecorator = true) {β : Type} {part? : MemberEntry → Option β} {sort : MemberSort}
    {given : β}
    (hpart : ∀ s, (entryAs src limit body { before, node := m } s).bind part? =
      if s = sort then some given else none) :
    (entriesOf src limit body).value.filterMap part? =
      (entriesFrom src limit body [] before).value.filterMap part? ++
      (if memberSort src m = sort then [given] else []) ++
      (entriesFrom src limit body [] after).value.filterMap part? := by
  have hself : (entryAs src limit body { before, node := m } (memberSort src m)).toList.filterMap
      part? = if memberSort src m = sort then [given] else [] := by
    have h := hpart (memberSort src m)
    generalize entryAs src limit body { before, node := m } (memberSort src m) = entry at h
    by_cases hsort : memberSort src m = sort
    · rw [if_pos hsort] at h
      obtain ⟨e, rfl, he⟩ := Option.bind_eq_some_iff.1 h
      rw [if_pos hsort, Option.toList_some, List.filterMap_cons_some he, List.filterMap_nil]
    · rw [if_neg hsort] at h
      rw [if_neg hsort]
      cases entry with
      | none => rfl
      | some e =>
        rw [Option.bind_some] at h
        rw [Option.toList_some, List.filterMap_cons_none h, List.filterMap_nil]
  rw [value_entriesOf_split hbody hm, List.filterMap_append, List.filterMap_append, hself,
    List.append_assoc]

end

/-! ## What the syntax says -/

/-- Whether a member is a constructor by its syntax: no accessor, not static, and called
`constructor`. -/
def isInstanceConstructor (src : Source) (m : Node) : Bool :=
  isConstructor src m && !m.hasToken "static"

/-- What children of a class body give, where no decorator waits before them. -/
def membersOfChildren (src : Source) (limit : Nat) (body : Node) (children : List Node) : Members :=
  Members.ofEntries (entriesFrom src limit body [] children).value

/-- A class body is distributed around a member as the syntax of the member says: it is among the
getters if it has a `get`, among the setters if it has a `set`, is used for the constructor if it is
one, and is among the methods otherwise. What the other children give stays as it is, and of several
constructors the last one counts. -/
structure LandsBySyntax (src : Source) (limit : Nat) (body : Node) (before : List Node) (m : Node)
    (after : List Node) : Prop where
  getters : (distribute src limit body).value.getters =
    (membersOfChildren src limit body before).getters ++
    (if m.hasToken "get" then [getterOf src limit m (waitingAfter src before)] else []) ++
    (membersOfChildren src limit body after).getters
  setters : (distribute src limit body).value.setters =
    (membersOfChildren src limit body before).setters ++
    (if m.hasToken "set" then [setterOf src limit m (waitingAfter src before)] else []) ++
    (membersOfChildren src limit body after).setters
  methods : (distribute src limit body).value.methods =
    (membersOfChildren src limit body before).methods ++
    (if m.hasToken "get" || m.hasToken "set" || isInstanceConstructor src m then []
      else [(methodOf src limit m (waitingAfter src before)).value]) ++
    (membersOfChildren src limit body after).methods
  properties : (distribute src limit body).value.properties =
    (membersOfChildren src limit body before).properties ++
    (membersOfChildren src limit body after).properties
  constructorParameters : (distribute src limit body).value.constructorParameters =
    ((entriesFrom src limit body [] after).value.filterMap
      MemberEntry.construction?).getLast?.getD
      (if isInstanceConstructor src m then (parametersOf src limit m).value
        else (membersOfChildren src limit body before).constructorParameters)

/-- A member of which the distribution asks the right questions. -/
structure IsPlainMember (src : Source) (m : Node) : Prop where
  /-- It is not both accessors at once. -/
  accessor : ¬ (m.hasToken "get" = true ∧ m.hasToken "set" = true)
  /-- If it is abstract, it is a method. -/
  abstract : m.kind = "abstract_method_signature" → m.hasToken "get" = false ∧
    m.hasToken "set" = false ∧ isInstanceConstructor src m = false
  /-- If it is a definition called `constructor`, it is not static. -/
  definition : m.kind = "method_definition" → isConstructor src m = true →
    m.hasToken "static" = false

section

variable {src : Source} {m : Node}

/-- The part that a plain member plays is the one that its syntax says. -/
theorem memberSort_of_isPlainMember (h : IsPlainMember src m)
    (hkind : m.kind = "method_definition" ∨ m.kind = "abstract_method_signature") :
    memberSort src m =
      if m.hasToken "get" then .getter
      else if m.hasToken "set" then .setter
      else if isInstanceConstructor src m then .constructor
      else .method := by
  rcases hkind with hkind | hkind
  · have hstatic := h.definition hkind
    rw [memberSort_of_definition hkind]
    simp only [isInstanceConstructor, isConstructor_eq] at hstatic ⊢
    cases hget : m.hasToken "get" with
    | true => rfl
    | false =>
      cases hset : m.hasToken "set" with
      | true => rfl
      | false =>
        cases hname : memberName src m == "constructor" with
        | false => rfl
        | true =>
          rw [hget, hset, hname] at hstatic
          rw [hstatic rfl]
          rfl
  · obtain ⟨hget, hset, hconstructor⟩ := h.abstract hkind
    rw [hget, hset, hconstructor, memberSort_of_signature hkind]
    rfl

theorem memberSort_eq_iff_of_isPlainMember (h : IsPlainMember src m)
    (hkind : m.kind = "method_definition" ∨ m.kind = "abstract_method_signature") :
    (memberSort src m = .getter ↔ m.hasToken "get" = true) ∧
    (memberSort src m = .setter ↔ m.hasToken "set" = true) ∧
    (memberSort src m = .method ↔
      ¬ (m.hasToken "get" || m.hasToken "set" || isInstanceConstructor src m) = true) ∧
    memberSort src m ≠ .field ∧
    (memberSort src m = .constructor ↔ isInstanceConstructor src m = true) := by
  have haccessor := h.accessor
  rw [memberSort_of_isPlainMember h hkind]
  rw [isInstanceConstructor, isConstructor_eq]
  cases hget : m.hasToken "get" with
  | true =>
    have hset : m.hasToken "set" = false := by
      rw [Bool.eq_false_iff]
      exact fun hset => haccessor ⟨hget, hset⟩
    simp [hset]
  | false =>
    cases hset : m.hasToken "set" with
    | true => simp
    | false =>
      by_cases hname : memberName src m = "constructor" ∧ m.hasToken "static" = false <;>
        simp [hname]

end

/-- **A member goes where its syntax says**, if it is a plain one. -/
theorem plain_member_lands_by_syntax (src : Source) (limit : Nat) (body : Node)
    (before : List Node) (m : Node) (after : List Node)
    (hbody : body.namedChildren = before ++ m :: after)
    (hkind : m.kind = "method_definition" ∨ m.kind = "abstract_method_signature")
    (hplain : IsPlainMember src m) : LandsBySyntax src limit body before m after := by
  have hm : ¬ m.isDecorator = true := by
    intro hdecorator
    have hsort : m.kind = "decorator" := beq_iff_eq.1 hdecorator
    rcases hkind with hkind | hkind
    · exact absurd (hkind.symm.trans hsort) (by decide)
    · exact absurd (hkind.symm.trans hsort) (by decide)
  obtain ⟨hgetter, hsetter, hmethod, hfield, hconstructor⟩ :=
    memberSort_eq_iff_of_isPlainMember hplain hkind
  constructor
  · refine (filterMap_entriesOf_split hbody hm (bind_getter?_entryAs _)).trans ?_
    rw [if_congr hgetter rfl rfl]
    rfl
  · refine (filterMap_entriesOf_split hbody hm (bind_setter?_entryAs _)).trans ?_
    rw [if_congr hsetter rfl rfl]
    rfl
  · refine (filterMap_entriesOf_split hbody hm (bind_method?_entryAs _)).trans ?_
    rw [if_congr hmethod rfl rfl, ite_not]
    rfl
  · refine (filterMap_entriesOf_split hbody hm (bind_property?_entryAs _)).trans ?_
    rw [if_neg hfield, List.append_nil]
    rfl
  · have hall := @filterMap_entriesOf_split src limit body before after m hbody hm _ _ _ _
      (bind_construction?_entryAs _)
    show ((entriesOf src limit body).value.filterMap MemberEntry.construction?).getLast?.getD [] = _
    rw [hall, if_congr hconstructor rfl rfl, List.getLast?_append]
    cases hlast : ((entriesFrom src limit body [] after).value.filterMap
        MemberEntry.construction?).getLast? with
    | some parameters => rfl
    | none =>
      by_cases hself : isInstanceConstructor src m = true
      · rw [if_pos hself, if_pos hself, List.getLast?_append]
        rfl
      · rw [if_neg hself, if_neg hself, List.append_nil]
        rfl

/-- The source `class A { @Log() static get constructor() {} }`. -/
def accessorSource : Source :=
  Source.ofText "accessor.ts" "class A \x7b @Log() static get constructor() \x7b\x7d \x7d"

/-- The decorator `@Log()`. -/
def logDecorator : Node :=
  .named "decorator" none 10 16 [
    .token "@" 10 11,
    .named "call_expression" none 11 16 [
      .named "identifier" (some "function") 11 14 [],
      .named "arguments" (some "arguments") 14 16 [.token "(" 14 15, .token ")" 15 16]]]

/-- The member `static get constructor() {}`. -/
def constructorGetter : Node :=
  .named "method_definition" none 17 44 [
    .token "static" 17 23, .token "get" 24 27,
    .named "property_identifier" (some "name") 28 39 [],
    .named "formal_parameters" (some "parameters") 39 41 [.token "(" 39 40, .token ")" 40 41],
    .named "statement_block" (some "body") 42 44 [.token "\x7b" 42 43, .token "\x7d" 43 44]]

/-- The body of `class A { @Log() static get constructor() {} }`. -/
def accessorBody : Node :=
  .named "class_body" (some "body") 8 46 [
    .token "\x7b" 8 9, logDecorator, constructorGetter, .token "\x7d" 45 46]

/-- A static getter is a getter, also if it is called `constructor`, and has the decorator before
it. -/
theorem plain_member_lands_by_syntax_getter :
    IsPlainMember accessorSource constructorGetter ∧
    LandsBySyntax accessorSource 1 accessorBody [logDecorator] constructorGetter [] ∧
    (distribute accessorSource 1 accessorBody).value.getters =
      [{ name := "constructor", type := none, isStatic := true, decorators := ["Log"] }] := by
  have hplain : IsPlainMember accessorSource constructorGetter := by
    refine ⟨by decide, fun habstract => absurd habstract (by decide), fun _ hconstructor => ?_⟩
    exact absurd hconstructor (by decide)
  refine ⟨hplain, ?_, by rfl⟩
  exact plain_member_lands_by_syntax accessorSource 1 accessorBody [logDecorator] constructorGetter
    [] rfl (.inl rfl) hplain

/-- The source `abstract class A { abstract get x(): string; }`. -/
def abstractSource : Source :=
  Source.ofText "abstract.ts" "abstract class A \x7b abstract get x(): string; \x7d"

/-- The member `abstract get x(): string`. -/
def abstractGetter : Node :=
  .named "abstract_method_signature" none 19 43 [
    .token "abstract" 19 27, .token "get" 28 31,
    .named "property_identifier" (some "name") 32 33 [],
    .named "formal_parameters" (some "parameters") 33 35 [.token "(" 33 34, .token ")" 34 35],
    .named "type_annotation" (some "return_type") 35 43 [
      .token ":" 35 36, .named "predefined_type" none 37 43 [.token "string" 37 43]]]

/-- The body of `abstract class A { abstract get x(): string; }`. -/
def abstractBody : Node :=
  .named "class_body" (some "body") 17 46 [
    .token "\x7b" 17 18, abstractGetter, .token ";" 43 44, .token "\x7d" 45 46]

/-- The source `class A { static constructor(a: string) {} }`. -/
def staticSource : Source :=
  Source.ofText "static.ts" "class A \x7b static constructor(a: string) \x7b\x7d \x7d"

/-- The member `static constructor(a: string) {}`. -/
def staticConstructor : Node :=
  .named "method_definition" none 10 42 [
    .token "static" 10 16, .named "property_identifier" (some "name") 17 28 [],
    .named "formal_parameters" (some "parameters") 28 39 [
      .token "(" 28 29,
      .named "required_parameter" none 29 38 [
        .named "identifier" (some "pattern") 29 30 [],
        .named "type_annotation" (some "type") 30 38 [
          .token ":" 30 31, .named "predefined_type" none 32 38 [.token "string" 32 38]]],
      .token ")" 38 39],
    .named "statement_block" (some "body") 40 42 [.token "\x7b" 40 41, .token "\x7d" 41 42]]

/-- The body of `class A { static constructor(a: string) {} }`. -/
def staticBody : Node :=
  .named "class_body" (some "body") 8 44 [
    .token "\x7b" 8 9, staticConstructor, .token "\x7d" 43 44]

/-- An abstract getter is not among the getters, and the parameters of a static method that is
called `constructor` are those of the constructor. -/
theorem member_may_land_elsewhere :
    (¬ ∀ (src : Source) (limit : Nat) (body : Node) (before : List Node) (m : Node)
      (after : List Node), body.namedChildren = before ++ m :: after →
      m.kind = "abstract_method_signature" → LandsBySyntax src limit body before m after) ∧
    ¬ ∀ (src : Source) (limit : Nat) (body : Node) (before : List Node) (m : Node)
      (after : List Node), body.namedChildren = before ++ m :: after →
      m.kind = "method_definition" → LandsBySyntax src limit body before m after := by
  constructor
  · intro h
    have hgetters := (h abstractSource 1 abstractBody [] abstractGetter [] rfl rfl).getters
    exact absurd (congrArg List.length hgetters) (by decide)
  · intro h
    have hparameters :=
      (h staticSource 1 staticBody [] staticConstructor [] rfl rfl).constructorParameters
    exact absurd (congrArg List.length hparameters) (by decide)

end DeclCatalog
