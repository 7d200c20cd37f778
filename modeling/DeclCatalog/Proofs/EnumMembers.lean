import DeclCatalog.Collect.Declaration
import DeclCatalog.Proofs.Subtree

/-!
# The members of an enum

A child of an enum body is a member if it has a name: it is one by itself, or it assigns a value to
one. A computed name does not count as a name by itself, and neither does what error recovery leaves
in a body. Such a child is passed over, and unlike with classes and interfaces, nothing is said of
it.

- `enumName?`, `enumGiven?`, `enumSaid`: the name of a child, what is recorded of it, and what is
  said of its value.
- `enumMember?_eq`: the step lemma, what one child gives and what is said of it.
- `members_collectEnum`, `log_collectEnum`: the same for the whole body.
- `KeepsOrReports`: an enum none of whose children is lost without a word.
- `enum_keeps_every_named_child`: **every child with a name is one member**, in source order, so an
  enum keeps all its children if they have names.
- `enum_child_may_be_silent`: a child without one may be lost without a word.
-/

namespace DeclCatalog

open Logged

/-! ## What a child gives -/

/-- The kinds of nodes that are a member of an enum by themselves. -/
def enumNameKinds : List String :=
  ["property_identifier", "string", "number"]

/-- The name of a child of an enum body: what is assigned to, or the child itself. -/
def enumName? (child : Node) : Option Node :=
  if child.kind = "enum_assignment" then child.firstNamedChild?
  else if child.kind ∈ enumNameKinds then some child
  else none

section

variable (src : Source) (limit : Nat) (child : Node)

/-- The value that a child assigns; a name by itself assigns none. -/
def enumValue : Logged (Option ValueTerm) :=
  if child.kind = "enum_assignment" then valueIn src limit child "value" else pure none

/-- What is recorded of a child of an enum body: its name without quotes, and its value. -/
def enumGiven? : Option EnumMember :=
  (enumName? child).map fun name =>
    { name := Text.stripQuotes (src.text name), value := (enumValue src limit child).value }

/-- What is said of a child of an enum body: what is said of its value, if it has a name. -/
def enumSaid : List Diagnostic :=
  if (enumName? child).isSome then (enumValue src limit child).log else []

end

section

variable (src : Source) (limit : Nat) {child : Node}

/-- A name by itself is recorded without a value, and nothing is said of it. -/
theorem enumGiven?_of_name (h : child.kind ∈ enumNameKinds) :
    enumGiven? src limit child =
      some { name := Text.stripQuotes (src.text child), value := none } ∧
    enumSaid src limit child = [] := by
  have hkind : child.kind ≠ "enum_assignment" := by
    intro hassignment
    rw [hassignment] at h
    exact absurd h (by decide)
  have hname : enumName? child = some child := by
    rw [enumName?, if_neg hkind, if_pos h]
  have hvalue : enumValue src limit child = pure none := by
    rw [enumValue, if_neg hkind]
  rw [enumGiven?, enumSaid, hname, hvalue]
  exact ⟨rfl, rfl⟩

/-- An assignment is recorded with its value if there is a name to assign to. -/
theorem enumGiven?_of_assignment (h : child.kind = "enum_assignment") :
    enumGiven? src limit child =
      child.firstNamedChild?.map (fun name =>
        { name := Text.stripQuotes (src.text name)
          value := (valueIn src limit child "value").value }) ∧
    enumSaid src limit child =
      if child.firstNamedChild?.isSome then (valueIn src limit child "value").log else [] := by
  have hname : enumName? child = child.firstNamedChild? := by
    rw [enumName?, if_pos h]
  have hvalue : enumValue src limit child = valueIn src limit child "value" := by
    rw [enumValue, if_pos h]
  rw [enumGiven?, enumSaid, hname, hvalue]
  exact ⟨rfl, rfl⟩

/-- A child of any other kind is passed over without a word. -/
theorem enumMember?_of_other (hassignment : child.kind ≠ "enum_assignment")
    (hname : child.kind ∉ enumNameKinds) : enumMember? src limit child = pure none := by
  simp only [enumNameKinds, List.mem_cons, List.not_mem_nil, or_false, not_or] at hname
  unfold enumMember?
  split
  · exact absurd ‹_› hassignment
  · exact absurd ‹_› hname.1
  · exact absurd ‹_› hname.2.1
  · exact absurd ‹_› hname.2.2
  · rfl

theorem enumMember?_of_name (h : child.kind ∈ enumNameKinds) :
    enumMember? src limit child =
      pure (some { name := Text.stripQuotes (src.text child), value := none }) := by
  simp only [enumNameKinds, List.mem_cons, List.not_mem_nil, or_false] at h
  rcases h with hkind | hkind | hkind <;> simp only [enumMember?, hkind]

/-- One child gives what its name and its value say, and nothing else is said of it. -/
theorem enumMember?_eq (child : Node) :
    (enumMember? src limit child).value = enumGiven? src limit child ∧
    (enumMember? src limit child).log = enumSaid src limit child := by
  by_cases hassignment : child.kind = "enum_assignment"
  · obtain ⟨hentry, hsaid⟩ := enumGiven?_of_assignment src limit hassignment
    rw [hentry, hsaid]
    simp only [enumMember?, hassignment]
    cases child.firstNamedChild? with
    | none => exact ⟨rfl, rfl⟩
    | some name => exact ⟨rfl, List.append_nil _⟩
  by_cases hname : child.kind ∈ enumNameKinds
  · obtain ⟨hentry, hsaid⟩ := enumGiven?_of_name src limit hname
    rw [hentry, hsaid, enumMember?_of_name src limit hname]
    exact ⟨rfl, rfl⟩
  · have hnone : enumName? child = none := by
      rw [enumName?, if_neg hassignment, if_neg hname]
    rw [enumGiven?, enumSaid, hnone, enumMember?_of_other src limit hassignment hname]
    exact ⟨rfl, rfl⟩

/-! ## The whole body -/

/-- The members of an enum are what its children give, in order. -/
theorem members_collectEnum (n : Node) :
    (collectEnum src limit n).value.members =
      (n.childrenIn "body").filterMap (enumGiven? src limit) := by
  show (Logged.traverse (enumMember? src limit) (n.childrenIn "body")).value.filterMap id = _
  have hstep : (fun child => (enumMember? src limit child).value) = enumGiven? src limit :=
    funext fun child => (enumMember?_eq src limit child).1
  rw [value_traverse, hstep, List.filterMap_map, Function.id_comp]

/-- What is said of an enum is what is said of its children, in order. -/
theorem log_collectEnum (n : Node) :
    (collectEnum src limit n).log = (n.childrenIn "body").flatMap (enumSaid src limit) := by
  show (Logged.traverse (enumMember? src limit) (n.childrenIn "body")).log ++ [] = _
  have hstep : (fun child => (enumMember? src limit child).log) = enumSaid src limit :=
    funext fun child => (enumMember?_eq src limit child).2
  rw [List.append_nil, log_traverse, hstep]

end

/-- Every child of an enum body becomes one member, in source order, or there is a diagnostic at its
place. -/
def KeepsOrReports (src : Source) (limit : Nat) (n : Node) : Prop :=
  ∃ given? : Node → Option EnumMember,
    (collectEnum src limit n).value.members = (n.childrenIn "body").filterMap given? ∧
    ∀ child ∈ n.childrenIn "body", (given? child).isSome = true ∨
      ∃ d ∈ (collectEnum src limit n).log, d.location = src.location child

/-- **Every child of an enum that has a name is one member of it.** The members are those of the
children that have names, one for each of them and in source order. What is said is what is said of
their values, and nothing is said of any other child. So if all children have names, none of them is
lost without a word. -/
theorem enum_keeps_every_named_child (src : Source) (limit : Nat) (n : Node) :
    let result := collectEnum src limit n
    let children := n.childrenIn "body"
    result.value.members = children.filterMap (enumGiven? src limit) ∧
    (∀ child, (enumGiven? src limit child).isSome = (enumName? child).isSome) ∧
    result.log = children.flatMap (enumSaid src limit) ∧
    ((∀ child ∈ children, (enumName? child).isSome = true) →
      result.value.members.length = children.length ∧ KeepsOrReports src limit n) := by
  intro result children
  have hmembers : result.value.members = children.filterMap (enumGiven? src limit) :=
    members_collectEnum src limit n
  have hentry : ∀ child, (enumGiven? src limit child).isSome = (enumName? child).isSome := by
    intro child
    rw [enumGiven?, Option.isSome_map]
  refine ⟨hmembers, hentry, log_collectEnum src limit n, ?_⟩
  intro hnamed
  have hgiven : ∀ child ∈ children, (enumGiven? src limit child).isSome = true := by
    intro child hchild
    rw [hentry, hnamed child hchild]
  refine ⟨?_, enumGiven? src limit, hmembers, fun child hchild => .inl (hgiven child hchild)⟩
  rw [hmembers]
  exact List.filterMap_length_eq_length.2 hgiven

/-- The source `enum E { A = 1, 'b', 3 }`. -/
def namedEnumSource : Source :=
  Source.ofText "named.ts" "enum E \x7b A = 1, 'b', 3 \x7d"

/-- The tree of `enum E { A = 1, 'b', 3 }`. -/
def namedEnum : Node :=
  .named "enum_declaration" none 0 24 [
    .token "enum" 0 4, .named "identifier" (some "name") 5 6 [],
    .named "enum_body" (some "body") 7 24 [
      .token "\x7b" 7 8,
      .named "enum_assignment" none 9 14 [
        .named "property_identifier" (some "name") 9 10 [], .token "=" 11 12,
        .named "number" (some "value") 13 14 []],
      .token "," 14 15,
      .named "string" (some "name") 16 19 [
        .token "\x27" 16 17, .named "string_fragment" none 17 18 [], .token "\x27" 18 19],
      .token "," 19 20, .named "number" none 21 22 [], .token "\x7d" 23 24]]

/-- An assignment and two names by themselves are three members. -/
theorem enum_keeps_every_named_child_three :
    (∀ child ∈ namedEnum.childrenIn "body", (enumName? child).isSome = true) ∧
    KeepsOrReports namedEnumSource 1 namedEnum ∧
    (collectEnum namedEnumSource 1 namedEnum).value.members = [
      { name := "A", value := some (.plain (TypeTerm.scalar .number (.integer 1))) },
      { name := "b", value := none }, { name := "3", value := none }] := by
  have hnamed : ∀ child ∈ namedEnum.childrenIn "body", (enumName? child).isSome = true := by
    decide
  obtain ⟨-, -, -, hall⟩ := enum_keeps_every_named_child namedEnumSource 1 namedEnum
  exact ⟨hnamed, (hall hnamed).2, by rfl⟩

/-- The source `enum E { A, ['b'] }`. -/
def computedEnumSource : Source :=
  Source.ofText "computed.ts" "enum E \x7b A, ['b'] \x7d"

/-- The tree of `enum E { A, ['b'] }`. -/
def computedEnum : Node :=
  .named "enum_declaration" none 0 19 [
    .token "enum" 0 4, .named "identifier" (some "name") 5 6 [],
    .named "enum_body" (some "body") 7 19 [
      .token "\x7b" 7 8, .named "property_identifier" (some "name") 9 10 [], .token "," 10 11,
      .named "computed_property_name" none 12 17 [
        .token "[" 12 13,
        .named "string" none 13 16 [
          .token "\x27" 13 14, .named "string_fragment" none 14 15 [], .token "\x27" 15 16],
        .token "]" 16 17],
      .token "\x7d" 18 19]]

/-- Of two children one is a member, and nothing is said. -/
theorem enum_child_may_be_silent :
    ¬ ∀ (src : Source) (limit : Nat) (n : Node), n.kind = "enum_declaration" →
      (n.child? "body").isSome = true → KeepsOrReports src limit n := by
  intro h
  obtain ⟨given?, hmembers, hall⟩ := h computedEnumSource 1 computedEnum rfl rfl
  have hlog : (collectEnum computedEnumSource 1 computedEnum).log = [] := by rfl
  have hgiven : ∀ child ∈ computedEnum.childrenIn "body", (given? child).isSome = true := by
    intro child hchild
    obtain hsome | ⟨d, hd, -⟩ := hall child hchild
    · exact hsome
    · rw [hlog] at hd
      cases hd
  have hlength := List.filterMap_length_eq_length.2 hgiven
  rw [← hmembers] at hlength
  exact absurd hlength (by decide)

end DeclCatalog
