import DeclCatalog.Proofs.ChildrenBySort
import DeclCatalog.Proofs.ReportRules
import DeclCatalog.Proofs.Subtree
import Mathlib.Data.List.DropRight

/-!
# The distribution of the members of a class

A class body is read in one pass, in which the decorators of a method wait until the method comes.
Here the pass is compared with what the children say by themselves: each child is looked at together
with the children before it, and nothing is carried from one to the next.

- `BodyChild`, `bodyChildren`, `BodyChild.ownDecorators`: a child with those before it; its own
  decorators are the ones directly before it.
- `MemberSort`, `memberSort`: the part that a child plays, one for each child. There is one equation
  for each kind of child, and `childKind_cases` tells the kinds apart.
- `entryOf?`, `entriesFrom_eq`: the pass gives what the children give one by one. The invariant is
  that the decorators which wait are those at the end of the children read so far.
- `entryAs`, `value_entryOf?`, `filter_log_entryOf?`: what a child gives, and what is said of it, by
  the part it plays.
- `flatMap_ownDecorators_sublist`: the decorators of different children are different ones.
- `distribute_keeps_every_member`: **every child goes to the list of its part, with its own
  decorators, or is reported once**.
-/

namespace DeclCatalog

/-! ## Children and the decorators before them -/

/-- Whether a node is a decorator. -/
def Node.isDecorator (n : Node) : Bool :=
  n.kind == "decorator"

/-- A child of a class body, with the children before it. -/
structure BodyChild where
  before : List Node
  node : Node

/-- Each child of a list with those before it, where some children came before the list. -/
def childrenFrom (before children : List Node) : List BodyChild :=
  children.mapIdx fun i n => { before := before ++ children.take i, node := n }

/-- The named children of a class body, comments left out, each with those before it. -/
def bodyChildren (body : Node) : List BodyChild :=
  childrenFrom [] body.namedChildren

namespace BodyChild

/-- The decorators directly before a child: those after the last child before it that is none. -/
def ownDecorators (c : BodyChild) : List Node :=
  c.before.rtakeWhile Node.isDecorator

/-- The names of the decorators directly before a child. -/
def decorators (src : Source) (c : BodyChild) : List String :=
  decoratorNamesOf src c.ownDecorators

end BodyChild

theorem childrenFrom_cons (before : List Node) (n : Node) (rest : List Node) :
    childrenFrom before (n :: rest) =
      { before, node := n } :: childrenFrom (before ++ [n]) rest := by
  unfold childrenFrom
  rw [List.mapIdx_cons, List.take_zero, List.append_nil]
  simp only [List.take_succ_cons, List.append_assoc, List.singleton_append]

theorem childrenFrom_append (before children rest : List Node) :
    childrenFrom before (children ++ rest) =
      childrenFrom before children ++ childrenFrom (before ++ children) rest := by
  induction children generalizing before with
  | nil => simp [childrenFrom]
  | cons n children ih =>
    rw [List.cons_append, childrenFrom_cons, childrenFrom_cons, ih, List.append_assoc]
    rfl

theorem map_node_childrenFrom (before children : List Node) :
    (childrenFrom before children).map BodyChild.node = children := by
  induction children generalizing before with
  | nil => rfl
  | cons n rest ih => rw [childrenFrom_cons, List.map_cons, ih]

/-! ## The parts that children play -/

/-- The part that a child of a class body plays. -/
inductive MemberSort where
  | decorator
  | field
  | constructor
  | getter
  | setter
  | method
  /-- None that is recorded. -/
  | other
  deriving DecidableEq

/-- Whether a definition is a constructor: no accessor, and called `constructor`, with or without
quotes. -/
def isConstructor (src : Source) (n : Node) : Bool :=
  !n.hasToken "get" && !n.hasToken "set" &&
    (src.fieldText? n "name").map Text.stripQuotes == some "constructor"

/-- The part that a child of a class body plays. -/
def memberSort (src : Source) (n : Node) : MemberSort :=
  match n.kind with
  | "decorator" => .decorator
  | "public_field_definition" => .field
  | "abstract_method_signature" => .method
  | "method_definition" =>
    if n.hasToken "get" then .getter
    else if n.hasToken "set" then .setter
    else if isConstructor src n then .constructor
    else .method
  | _ => .other

/-- The kinds of children that play a part. -/
def childKinds : List String :=
  ["decorator", "public_field_definition", "abstract_method_signature", "method_definition"]

/-- A child is of one of these kinds, or plays no part. -/
theorem childKind_cases (n : Node) :
    n.kind = "decorator" ∨ n.kind = "public_field_definition" ∨
      n.kind = "abstract_method_signature" ∨ n.kind = "method_definition" ∨
      n.kind ∉ childKinds := by
  simp only [childKinds, List.mem_cons, List.not_mem_nil, or_false]
  tauto

/-- A `get` accessor. -/
def getterOf (src : Source) (limit : Nat) (n : Node) (decorators : List String) : Accessor where
  name := memberName src n
  type := (typeIn src limit n "return_type").value
  isStatic := n.hasToken "static"
  decorators := decorators

/-- A `set` accessor. -/
def setterOf (src : Source) (limit : Nat) (n : Node) (decorators : List String) : Accessor where
  name := memberName src n
  type := (parametersOf src limit n).value.head?.bind Parameter.type
  isStatic := n.hasToken "static"
  decorators := decorators

/-- That a child of a class body is passed over. -/
def skipReport (src : Source) (n : Node) : Diagnostic :=
  Diagnostic.ofRule .skippedMember (src.location n)
    ("class member `" ++ n.kind ++ "` is not bucketed")

section

variable (src : Source) (limit : Nat) (body : Node)

/-- What a child of a class body gives by itself. -/
def entryOf? (c : BodyChild) : Logged (Option MemberEntry) :=
  match c.node.kind with
  | "decorator" => pure none
  | "method_definition" => some <$> definitionEntry src limit c.node (c.decorators src)
  | "abstract_method_signature" =>
    (some ∘ .method) <$> methodOf src limit c.node (c.decorators src)
  | "public_field_definition" =>
    (some ∘ .property) <$> propertyOf src limit { parent := some body, node := c.node }
  | other => do
    src.report .skippedMember c.node ("class member `" ++ other ++ "` is not bucketed")
    pure none

/-- What a child of a class body gives, by the part it plays. -/
def entryAs (c : BodyChild) : MemberSort → Option MemberEntry
  | .decorator => none
  | .field => some (.property (propertyOf src limit { parent := some body, node := c.node }).value)
  | .constructor => some (.construction (parametersOf src limit c.node).value)
  | .getter => some (.getter (getterOf src limit c.node (c.decorators src)))
  | .setter => some (.setter (setterOf src limit c.node (c.decorators src)))
  | .method => some (.method (methodOf src limit c.node (c.decorators src)).value)
  | .other => none

end

section

variable {src : Source} {limit : Nat} {body : Node}

theorem memberSort_of_decorator {n : Node} (hkind : n.kind = "decorator") :
    memberSort src n = .decorator := by
  rw [memberSort, hkind]
  rfl

theorem memberSort_of_field {n : Node} (hkind : n.kind = "public_field_definition") :
    memberSort src n = .field := by
  rw [memberSort, hkind]
  rfl

theorem memberSort_of_signature {n : Node} (hkind : n.kind = "abstract_method_signature") :
    memberSort src n = .method := by
  rw [memberSort, hkind]
  rfl

theorem memberSort_of_definition {n : Node} (hkind : n.kind = "method_definition") :
    memberSort src n =
      if n.hasToken "get" then .getter
      else if n.hasToken "set" then .setter
      else if isConstructor src n then .constructor
      else .method := by
  rw [memberSort, hkind]
  rfl

theorem memberSort_of_notMem {n : Node} (hkind : n.kind ∉ childKinds) :
    memberSort src n = .other := by
  unfold memberSort
  split <;> simp_all [childKinds]

theorem entryOf?_of_notMem {c : BodyChild} (hkind : c.node.kind ∉ childKinds) :
    entryOf? src limit body c = (do
      src.report .skippedMember c.node ("class member `" ++ c.node.kind ++ "` is not bucketed")
      pure none) := by
  unfold entryOf?
  split <;> simp_all [childKinds]

/-- The name of a member, without its quotes, tells a constructor. -/
theorem isConstructor_eq (src : Source) (n : Node) :
    isConstructor src n =
      (!n.hasToken "get" && !n.hasToken "set" && memberName src n == "constructor") := by
  unfold isConstructor memberName
  cases (src.fieldText? n "name").map Text.stripQuotes <;> rfl

theorem value_definitionEntry {n : Node} (hkind : n.kind = "method_definition")
    (before : List Node) :
    some (definitionEntry src limit n (BodyChild.decorators src { before, node := n })).value =
      entryAs src limit body { before, node := n } (memberSort src n) := by
  rw [memberSort_of_definition hkind]
  unfold definitionEntry
  dsimp only
  by_cases hget : n.hasToken "get" = true
  · rw [if_pos hget, if_pos hget]
    rfl
  by_cases hset : n.hasToken "set" = true
  · rw [if_neg hget, if_neg hget, if_pos hset, if_pos hset]
    rfl
  have hname : isConstructor src n = (memberName src n == "constructor") := by
    rw [isConstructor_eq, eq_false_of_ne_true hget, eq_false_of_ne_true hset]
    rfl
  rw [if_neg hget, if_neg hget, if_neg hset, if_neg hset, hname]
  by_cases hconstructor : (memberName src n == "constructor") = true
  · rw [if_pos hconstructor, if_pos hconstructor]
    rfl
  · rw [if_neg hconstructor, if_neg hconstructor]
    rfl

/-- What a child gives is decided by the part it plays. -/
theorem value_entryOf? (c : BodyChild) :
    (entryOf? src limit body c).value = entryAs src limit body c (memberSort src c.node) := by
  obtain ⟨before, n⟩ := c
  rcases childKind_cases n with hkind | hkind | hkind | hkind | hkind
  · rw [memberSort_of_decorator hkind]
    simp only [entryOf?, hkind]
    rfl
  · rw [memberSort_of_field hkind]
    simp only [entryOf?, hkind]
    rfl
  · rw [memberSort_of_signature hkind]
    simp only [entryOf?, hkind]
    rfl
  · simp only [entryOf?, hkind, Logged.value_map]
    exact value_definitionEntry hkind before
  · rw [memberSort_of_notMem hkind, entryOf?_of_notMem hkind]
    rfl

/-- That a child is passed over is said of those that play no part, and of no others. -/
theorem filter_log_entryOf? (c : BodyChild) :
    ((entryOf? src limit body c).log.filter fun d => d.rule = .skippedMember) =
      if memberSort src c.node = .other then [skipReport src c.node] else [] := by
  have hrule : Rule.skippedMember ∉ resolverRules := by decide
  obtain ⟨before, n⟩ := c
  dsimp only
  rcases childKind_cases n with hkind | hkind | hkind | hkind | hkind
  · rw [memberSort_of_decorator hkind, if_neg (by decide)]
    simp only [entryOf?, hkind]
    rfl
  · rw [memberSort_of_field hkind, if_neg (by decide)]
    simp only [entryOf?, hkind]
    exact ((raisesOnly_propertyOf _).map _).filter_eq_nil hrule
  · rw [memberSort_of_signature hkind, if_neg (by decide)]
    simp only [entryOf?, hkind]
    exact ((raisesOnly_methodOf n _).map _).filter_eq_nil hrule
  · have hsort : memberSort src n ≠ .other := by
      rw [memberSort_of_definition hkind]
      split_ifs <;> decide
    rw [if_neg hsort]
    simp only [entryOf?, hkind]
    exact ((raisesOnly_definitionEntry n _).map _).filter_eq_nil hrule
  · rw [memberSort_of_notMem hkind, if_pos rfl, entryOf?_of_notMem hkind]
    rfl

/-! ## The pass -/

/-- The names of the decorators at the end of the children read so far. -/
def waitingAfter (src : Source) (before : List Node) : List String :=
  decoratorNamesOf src (before.rtakeWhile Node.isDecorator)

theorem waitingAfter_of_isDecorator {n : Node} (h : n.isDecorator = true) (before : List Node) :
    waitingAfter src (before ++ [n]) =
      waitingAfter src before ++ (decoratorName? src n).toList := by
  unfold waitingAfter decoratorNamesOf
  rw [List.rtakeWhile_concat_pos _ _ _ h, List.filterMap_append]
  cases hname : decoratorName? src n <;> simp [hname]

theorem waitingAfter_of_not_isDecorator {n : Node} (h : ¬ n.isDecorator = true)
    (before : List Node) : waitingAfter src (before ++ [n]) = [] := by
  rw [waitingAfter, List.rtakeWhile_concat_neg _ _ _ h]
  rfl

/-- One step of the pass: what the child gives by itself, and then the rest, where the decorators
that wait are again those at the end of the children read. -/
theorem entriesFrom_cons (before : List Node) (n : Node) (rest : List Node) :
    let entry := entryOf? src limit body { before, node := n }
    let next := entriesFrom src limit body (waitingAfter src (before ++ [n])) rest
    (entriesFrom src limit body (waitingAfter src before) (n :: rest)).value =
      entry.value.toList ++ next.value ∧
    (entriesFrom src limit body (waitingAfter src before) (n :: rest)).log =
      entry.log ++ next.log := by
  intro entry next
  by_cases hdecorator : n.isDecorator = true
  · have hkind : n.kind = "decorator" := beq_iff_eq.1 hdecorator
    have hentry : entry = pure none := by
      simp only [entry, entryOf?, hkind]
    have hnext : next = entriesFrom src limit body (waitingAfter src before) (n :: rest) := by
      simp only [next, waitingAfter_of_isDecorator hdecorator, entriesFrom, hkind]
    rw [hentry, ← hnext]
    exact ⟨rfl, rfl⟩
  · have hnext : next = entriesFrom src limit body [] rest := by
      simp only [next, waitingAfter_of_not_isDecorator hdecorator]
    have hdecorators : BodyChild.decorators src { before, node := n } = waitingAfter src before :=
      rfl
    rw [hnext, entriesFrom]
    simp only [entry, entryOf?, hdecorators]
    have hkind : n.kind ≠ "decorator" := fun hkind => hdecorator (beq_iff_eq.2 hkind)
    generalize n.kind = kind at hkind ⊢
    split
    · exact absurd rfl hkind
    · simp
    · simp
    · simp
    · simp

/-- The whole pass: what the children give one by one, and what is said of them one by one. -/
theorem entriesFrom_eq (before children : List Node) :
    (entriesFrom src limit body (waitingAfter src before) children).value =
      (childrenFrom before children).filterMap (fun c => (entryOf? src limit body c).value) ∧
    (entriesFrom src limit body (waitingAfter src before) children).log =
      (childrenFrom before children).flatMap fun c => (entryOf? src limit body c).log := by
  induction children generalizing before with
  | nil => exact ⟨rfl, rfl⟩
  | cons n rest ih =>
    obtain ⟨hvalue, hlog⟩ := @entriesFrom_cons src limit body before n rest
    obtain ⟨ihvalue, ihlog⟩ := ih (before ++ [n])
    rw [hvalue, hlog, ihvalue, ihlog, childrenFrom_cons, List.filterMap_cons, List.flatMap_cons]
    refine ⟨?_, rfl⟩
    cases (entryOf? src limit body { before, node := n }).value <;> rfl

theorem value_entriesOf :
    (entriesOf src limit body).value =
      (bodyChildren body).filterMap fun c => entryAs src limit body c (memberSort src c.node) := by
  have h := (@entriesFrom_eq src limit body [] body.namedChildren).1
  simp only [value_entryOf?] at h
  exact h

theorem log_entriesOf :
    (entriesOf src limit body).log =
      (bodyChildren body).flatMap fun c => (entryOf? src limit body c).log :=
  (@entriesFrom_eq src limit body [] body.namedChildren).2

end

/-! ## One list for each part -/

/-- The children of a class body that play a part, in source order. -/
def childrenOfSort (src : Source) (body : Node) (sort : MemberSort) : List BodyChild :=
  (bodyChildren body).filter fun c => memberSort src c.node = sort

section

variable {src : Source} {limit : Nat} {body : Node}

theorem bind_property?_entryAs (c : BodyChild) (s : MemberSort) :
    (entryAs src limit body c s).bind MemberEntry.property? =
      if s = .field then
        some (propertyOf src limit { parent := some body, node := c.node }).value
      else none := by
  cases s <;> rfl

theorem bind_method?_entryAs (c : BodyChild) (s : MemberSort) :
    (entryAs src limit body c s).bind MemberEntry.method? =
      if s = .method then some (methodOf src limit c.node (c.decorators src)).value else none := by
  cases s <;> rfl

theorem bind_getter?_entryAs (c : BodyChild) (s : MemberSort) :
    (entryAs src limit body c s).bind MemberEntry.getter? =
      if s = .getter then some (getterOf src limit c.node (c.decorators src)) else none := by
  cases s <;> rfl

theorem bind_setter?_entryAs (c : BodyChild) (s : MemberSort) :
    (entryAs src limit body c s).bind MemberEntry.setter? =
      if s = .setter then some (setterOf src limit c.node (c.decorators src)) else none := by
  cases s <;> rfl

theorem bind_construction?_entryAs (c : BodyChild) (s : MemberSort) :
    (entryAs src limit body c s).bind MemberEntry.construction? =
      if s = .constructor then some (parametersOf src limit c.node).value else none := by
  cases s <;> rfl

/-- The entries of one kind are those of the children that play one part. -/
theorem filterMap_entriesOf {β : Type} {part? : MemberEntry → Option β} {sort : MemberSort}
    {given : BodyChild → β}
    (h : ∀ c s, (entryAs src limit body c s).bind part? =
      if s = sort then some (given c) else none) :
    (entriesOf src limit body).value.filterMap part? =
      (childrenOfSort src body sort).map given := by
  rw [value_entriesOf]
  exact filterMap_parts_eq h (bodyChildren body)

/-- Of several constructors the last one counts. -/
theorem constructorParameters_distribute :
    (distribute src limit body).value.constructorParameters =
      ((childrenOfSort src body .constructor).getLast?.map
        fun c => (parametersOf src limit c.node).value).getD [] := by
  have hentries : (entriesOf src limit body).value.filterMap MemberEntry.construction? =
      (childrenOfSort src body .constructor).map (fun c => (parametersOf src limit c.node).value) :=
    filterMap_entriesOf bind_construction?_entryAs
  show ((entriesOf src limit body).value.filterMap MemberEntry.construction?).getLast?.getD [] = _
  rw [hentries, List.getLast?_map]

/-- That a child is passed over is said of the children that play no part, once and in order. -/
theorem filter_log_distribute :
    ((distribute src limit body).log.filter fun d => d.rule = .skippedMember) =
      (childrenOfSort src body .other).map fun c => skipReport src c.node := by
  rw [distribute, Logged.log_map, log_entriesOf]
  exact filter_flatMap_parts_eq filter_log_entryOf? (bodyChildren body)

end

/-! ## Decorators of different children -/

/-- Whether a part is that of a member that takes decorators from the body. -/
def MemberSort.isCallable (sort : MemberSort) : Bool :=
  sort = .method || sort = .getter || sort = .setter

/-- No decorator is that of two children: read in order, the decorators of the members are some of
the decorators that are still waiting or still to come. -/
theorem flatMap_ownDecorators_sublist (src : Source) (before children : List Node) :
    (((childrenFrom before children).filter fun c => (memberSort src c.node).isCallable).flatMap
      BodyChild.ownDecorators).Sublist
      (before.rtakeWhile Node.isDecorator ++ children.filter Node.isDecorator) := by
  induction children generalizing before with
  | nil => exact List.nil_sublist _
  | cons n rest ih =>
    have htail := ih (before ++ [n])
    rw [childrenFrom_cons]
    by_cases hdecorator : n.isDecorator = true
    · -- the decorator joins those that wait
      rw [List.rtakeWhile_concat_pos _ _ _ hdecorator, List.append_assoc] at htail
      rw [List.filter_cons_of_neg, List.filter_cons_of_pos hdecorator]
      · exact htail
      · rw [memberSort_of_decorator (beq_iff_eq.1 hdecorator)]
        decide
    · -- whatever the child is, no decorator waits any longer
      rw [List.rtakeWhile_concat_neg _ _ _ hdecorator, List.nil_append] at htail
      rw [List.filter_cons_of_neg hdecorator]
      by_cases hcallable : (memberSort src n).isCallable = true
      · rw [List.filter_cons, if_pos hcallable, List.flatMap_cons]
        exact htail.append_left _
      · rw [List.filter_cons, if_neg hcallable]
        exact htail.trans (List.sublist_append_right _ _)

/-! ## The whole -/

/-- The members that take decorators from the body are abstract methods, and definitions that are no
constructors. -/
theorem isCallable_memberSort (src : Source) (n : Node) :
    (memberSort src n).isCallable =
      (n.kind == "abstract_method_signature" ||
        n.kind == "method_definition" && !isConstructor src n) := by
  rcases childKind_cases n with hkind | hkind | hkind | hkind | hkind
  · rw [memberSort_of_decorator hkind, hkind]
    rfl
  · rw [memberSort_of_field hkind, hkind]
    rfl
  · rw [memberSort_of_signature hkind, hkind]
    rfl
  · rw [memberSort_of_definition hkind, hkind]
    unfold isConstructor
    cases n.hasToken "get" <;> cases n.hasToken "set" <;>
      cases (src.fieldText? n "name").map Text.stripQuotes == some "constructor" <;> rfl
  · rw [memberSort_of_notMem hkind]
    simp only [childKinds, List.mem_cons, not_or] at hkind
    rw [beq_eq_false_iff_ne.2 hkind.2.2.1, beq_eq_false_iff_ne.2 hkind.2.2.2.1]
    rfl

theorem memberSort_eq_constructor_iff {src : Source} {n : Node} :
    memberSort src n = .constructor ↔
      n.kind = "method_definition" ∧ isConstructor src n = true := by
  rcases childKind_cases n with hkind | hkind | hkind | hkind | hkind
  · simp [memberSort_of_decorator hkind, hkind]
  · simp [memberSort_of_field hkind, hkind]
  · simp [memberSort_of_signature hkind, hkind]
  · rw [memberSort_of_definition hkind]
    unfold isConstructor
    cases n.hasToken "get" <;> cases n.hasToken "set" <;>
      cases (src.fieldText? n "name").map Text.stripQuotes == some "constructor" <;> simp [hkind]
  · have hdefinition : n.kind ≠ "method_definition" := by
      rintro hdefinition
      exact hkind (by rw [hdefinition]; decide)
    simp [memberSort_of_notMem hkind, hdefinition]

theorem map_node_childrenOfSort (src : Source) (body : Node) (sort : MemberSort) :
    (childrenOfSort src body sort).map BodyChild.node =
      body.namedChildren.filter fun n => memberSort src n = sort := by
  have hnodes := map_node_childrenFrom [] body.namedChildren
  rw [childrenOfSort, ← hnodes, List.filter_map]
  rfl

theorem length_childrenOfSort (src : Source) (body : Node) (sort : MemberSort) :
    (childrenOfSort src body sort).length =
      (body.namedChildren.map (memberSort src)).countP (· = sort) := by
  rw [← List.length_map BodyChild.node, map_node_childrenOfSort, ← List.countP_eq_length_filter,
    List.countP_map]
  rfl

theorem countP_isCallable (sorts : List MemberSort) :
    sorts.countP (· = .method) + sorts.countP (· = .getter) + sorts.countP (· = .setter) =
      sorts.countP MemberSort.isCallable := by
  induction sorts with
  | nil => rfl
  | cons sort sorts ih =>
    simp only [List.countP_cons]
    cases sort <;> simp [MemberSort.isCallable] <;> omega

/-- **Every child of a class body goes to the list of its part, or is reported once.** The fields,
methods, getters and setters of a class are those of the children that are one, in source order, and
its constructor is the last child that is one. An abstract method, or a definition that is no
constructor, is in just one of three lists. That a member is passed over is reported of every child
that plays no part, once, and of no others. The decorators of a method or accessor are those
directly before it in the body, and no decorator is that of two members. -/
theorem distribute_keeps_every_member (src : Source) (limit : Nat) (body : Node) :
    let members := (distribute src limit body).value
    let ofSort := childrenOfSort src body
    members.properties = (ofSort .field).map
      (fun c => (propertyOf src limit { parent := some body, node := c.node }).value) ∧
    members.methods = (ofSort .method).map
      (fun c => (methodOf src limit c.node (c.decorators src)).value) ∧
    members.getters = (ofSort .getter).map
      (fun c => getterOf src limit c.node (c.decorators src)) ∧
    members.setters = (ofSort .setter).map
      (fun c => setterOf src limit c.node (c.decorators src)) ∧
    members.methods.length + members.getters.length + members.setters.length =
      body.namedChildren.countP (fun n => n.kind == "abstract_method_signature" ||
        n.kind == "method_definition" && !isConstructor src n) ∧
    members.constructorParameters =
      ((ofSort .constructor).getLast?.map fun c => (parametersOf src limit c.node).value).getD [] ∧
    ((distribute src limit body).log.filter fun d => d.rule = .skippedMember) =
      (ofSort .other).map (fun c => skipReport src c.node) ∧
    members.methods.map Method.decorators = (ofSort .method).map (BodyChild.decorators src) ∧
    members.getters.map Accessor.decorators = (ofSort .getter).map (BodyChild.decorators src) ∧
    members.setters.map Accessor.decorators = (ofSort .setter).map (BodyChild.decorators src) ∧
    (((bodyChildren body).filter fun c => (memberSort src c.node).isCallable).flatMap
      BodyChild.ownDecorators).Sublist (body.namedChildren.filter Node.isDecorator) := by
  intro members ofSort
  have hfields : members.properties = (ofSort .field).map
      (fun c => (propertyOf src limit { parent := some body, node := c.node }).value) :=
    filterMap_entriesOf bind_property?_entryAs
  have hmethods : members.methods = (ofSort .method).map
      (fun c => (methodOf src limit c.node (c.decorators src)).value) :=
    filterMap_entriesOf bind_method?_entryAs
  have hgetters : members.getters = (ofSort .getter).map
      (fun c => getterOf src limit c.node (c.decorators src)) :=
    filterMap_entriesOf bind_getter?_entryAs
  have hsetters : members.setters = (ofSort .setter).map
      (fun c => setterOf src limit c.node (c.decorators src)) :=
    filterMap_entriesOf bind_setter?_entryAs
  refine ⟨hfields, hmethods, hgetters, hsetters, ?_, constructorParameters_distribute,
    filter_log_distribute, ?_, ?_, ?_, ?_⟩
  · rw [hmethods, hgetters, hsetters, List.length_map, List.length_map, List.length_map,
      length_childrenOfSort, length_childrenOfSort, length_childrenOfSort, countP_isCallable,
      List.countP_map]
    exact List.countP_congr fun n _ => by rw [Function.comp_apply, isCallable_memberSort]
  · rw [hmethods, List.map_map]
    rfl
  · rw [hgetters, List.map_map]
    rfl
  · rw [hsetters, List.map_map]
    rfl
  · exact flatMap_ownDecorators_sublist src [] body.namedChildren

/-- The source of a class with a constructor, whose name is in quotes, a field, two accessors, a
decorated method and an index signature. -/
def sixMembersSource : Source :=
  .ofText "members.ts"
    ("class A \x7b 'constructor'(a) \x7b\x7d p; get x() \x7b\x7d set x(v) \x7b\x7d " ++
      "@D() m(b) \x7b\x7d [k: string]: E \x7d")

/-- The constructor `'constructor'(a) {}`. -/
def quotedConstructor : Node :=
  .named "method_definition" none 10 29 [
    .named "string" (some "name") 10 23 [
      .token "\x27" 10 11, .named "string_fragment" none 11 22 [], .token "\x27" 22 23],
    .oneParameter 23 26, .emptyBlock 27]

/-- The accessor `get x() {}`. -/
def plainGetter : Node :=
  .named "method_definition" none 33 43 [
    .token "get" 33 36, .named "property_identifier" (some "name") 37 38 [],
    .named "formal_parameters" (some "parameters") 38 40 [.token "(" 38 39, .token ")" 39 40],
    .emptyBlock 41]

/-- The accessor `set x(v) {}`. -/
def plainSetter : Node :=
  .named "method_definition" none 44 55 [
    .token "set" 44 47, .named "property_identifier" (some "name") 48 49 [],
    .oneParameter 49 52, .emptyBlock 53]

/-- The decorator `@D()`. -/
def methodDecorator : Node :=
  .named "decorator" none 56 60 [
    .token "@" 56 57,
    .named "call_expression" none 57 60 [
      .named "identifier" (some "function") 57 58 [],
      .named "arguments" (some "arguments") 58 60 [.token "(" 58 59, .token ")" 59 60]]]

/-- The method `m(b) {}`. -/
def decoratedMethod : Node :=
  .named "method_definition" none 61 68 [
    .named "property_identifier" (some "name") 61 62 [], .oneParameter 62 65, .emptyBlock 66]

/-- The body with these members. -/
def sixMembersBody : Node :=
  .named "class_body" (some "body") 8 85 [
    .token "\x7b" 8 9, quotedConstructor,
    .named "public_field_definition" none 30 31 [
      .named "property_identifier" (some "name") 30 31 []],
    .token ";" 31 32, plainGetter, plainSetter, methodDecorator, decoratedMethod,
    .named "index_signature" none 69 83 [], .token "\x7d" 84 85]

/-- What a parameter without a type, a default or decorators gives. -/
def plainParameter (identifier : String) : Parameter where
  identifier := identifier
  type := none
  optional := false
  decorators := []

/-- The members of that class. -/
def sixMembers : Members where
  constructorParameters := [plainParameter "a"]
  properties := [{
    name := "p", type := none, optional := false, isStatic := false, initializer := none
    decorators := [] }]
  methods := [{
    name := "m", parameters := [plainParameter "b"], returnType := none, isStatic := false
    decorators := ["D"] }]
  getters := [{ name := "x", type := none, isStatic := false, decorators := [] }]
  setters := [{ name := "x", type := none, isStatic := false, decorators := [] }]

/-- The constructor gives its parameters and is no method, only the method has the decorator, and
only the index signature is passed over. -/
theorem distribute_keeps_every_member_sixMembers :
    let result := distribute sixMembersSource 8 sixMembersBody
    result.value = sixMembers ∧
    result.log.map (fun d => (d.rule, d.location.offset, d.location.length)) =
      [(.skippedMember, 69, 14)] ∧
    sixMembersBody.namedChildren.countP (fun n => n.kind == "abstract_method_signature" ||
      n.kind == "method_definition" && !isConstructor sixMembersSource n) = 3 ∧
    (bodyChildren sixMembersBody).map (fun c => c.ownDecorators.length) = [0, 0, 0, 0, 0, 1, 0] := by
  intro result
  have hvalue : result.value = sixMembers := by
    decide +kernel
  obtain ⟨-, -, -, -, hlength, -⟩ :=
    distribute_keeps_every_member sixMembersSource 8 sixMembersBody
  change result.value.methods.length + result.value.getters.length +
    result.value.setters.length = _ at hlength
  rw [hvalue] at hlength
  exact ⟨hvalue, by decide +kernel, hlength.symm, by decide +kernel⟩

end DeclCatalog
