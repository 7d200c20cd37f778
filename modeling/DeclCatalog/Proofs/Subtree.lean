import DeclCatalog.Proofs.Forms

/-!
# Nodes of a subtree

A reader that is given a node looks at children, at the operands of a chain and at the parts of a
form, and then at theirs. It never leaves the subtree of the node it was given, so what is asked of
every node of a subtree is also known where the reader goes.

- `Node.preorder_subset`: a subtree of a subtree is part of it.
- `Node.mem_preorder_of_child?` and its neighbours: what a reader asks a node for.
- `TypeForm.parts`, `ValueForm.values`, `ValueForm.types`: the nodes that a form hands on.
- `mem_preorder_of_mem_parts`, `mem_preorder_of_mem_values`, `mem_preorder_of_mem_types`: **a form
  hands on nodes of the subtree only**.
- `Node.CallsHaveCallee`: what the grammar grants of every call of a tree.
- `log_resolveType_subset_of_mem_parts` and its neighbours: what is said of a node that a form hands
  on is said of the form's node too.
-/

namespace DeclCatalog

namespace Node

/-- A named node without errors. -/
def named (kind : String) (field : Option String) (start stop : Nat) (children : List Node) :
    Node :=
  .mk {
    id := 0, kind, field, isNamed := true, isError := false, isMissing := false, hasError := false
    start, stop } children

/-- A keyword or a mark. -/
def token (kind : String) (start stop : Nat) : Node :=
  .mk {
    id := 0, kind, field := none, isNamed := false, isError := false, isMissing := false
    hasError := false, start, stop } []

/-- A list with one parameter that is a plain name. -/
def oneParameter (start stop : Nat) : Node :=
  .named "formal_parameters" (some "parameters") start stop [
    .token "(" start (start + 1),
    .named "required_parameter" none (start + 1) (stop - 1) [
      .named "identifier" (some "pattern") (start + 1) (stop - 1) []],
    .token ")" (stop - 1) stop]

/-- The body of a function that does nothing. -/
def emptyBlock (start : Nat) : Node :=
  .named "statement_block" (some "body") start (start + 2) [
    .token "\x7b" start (start + 1), .token "\x7d" (start + 1) (start + 2)]

/-! ## Subtrees -/

theorem self_mem_preorder (n : Node) : n ∈ n.preorder := by
  rw [preorder_eq]
  exact List.mem_cons_self

theorem mem_preorderAll_iff {m : Node} {ns : List Node} :
    m ∈ preorderAll ns ↔ ∃ n ∈ ns, m ∈ n.preorder := by
  induction ns with
  | nil => simp [preorderAll]
  | cons n ns ih => simp [preorderAll, ih]

mutual

theorem preorder_subset {m n : Node} (h : m ∈ n.preorder) : m.preorder ⊆ n.preorder := by
  obtain ⟨head, children⟩ := n
  rw [preorder] at h ⊢
  obtain rfl | h := List.mem_cons.1 h
  · rw [preorder]
    exact List.Subset.refl _
  · exact List.subset_cons_of_subset _ (preorder_subset_preorderAll h)

theorem preorder_subset_preorderAll {m : Node} {ns : List Node} (h : m ∈ preorderAll ns) :
    m.preorder ⊆ preorderAll ns := by
  cases ns with
  | nil => cases h
  | cons n ns =>
    rw [preorderAll] at h ⊢
    obtain h | h := List.mem_append.1 h
    · exact List.subset_append_of_subset_left _ (preorder_subset h)
    · exact List.subset_append_of_subset_right _ (preorder_subset_preorderAll h)

end

/-! ## What a reader asks a node for -/

theorem mem_preorder_of_mem_children {m n : Node} (h : m ∈ n.children) : m ∈ n.preorder := by
  rw [preorder_eq]
  exact List.mem_cons_of_mem _ (mem_preorderAll_iff.2 ⟨m, h, m.self_mem_preorder⟩)

theorem mem_preorder_of_child? {m n : Node} {field : String} (h : n.child? field = some m) :
    m ∈ n.preorder :=
  mem_preorder_of_mem_children (List.mem_of_find?_eq_some h)

theorem mem_preorder_of_mem_childrenOfKind {m n : Node} {kind : String}
    (h : m ∈ n.childrenOfKind kind) : m ∈ n.preorder :=
  mem_preorder_of_mem_children (List.mem_filter.1 h).1

theorem mem_preorder_of_mem_namedChildren {m n : Node} (h : m ∈ n.namedChildren) :
    m ∈ n.preorder :=
  mem_preorder_of_mem_children (List.mem_filter.1 h).1

/-- The named children of the children of a kind, such as the clauses of a heading. -/
theorem mem_preorder_of_mem_flatMap_namedChildren {m n : Node} {kind : String}
    (h : m ∈ (n.childrenOfKind kind).flatMap namedChildren) : m ∈ n.preorder := by
  obtain ⟨c, hc, hm⟩ := List.mem_flatMap.1 h
  exact preorder_subset (mem_preorder_of_mem_childrenOfKind hc)
    (mem_preorder_of_mem_namedChildren hm)

theorem mem_preorder_of_mem_childrenIn {m n : Node} {field : String}
    (h : m ∈ n.childrenIn field) : m ∈ n.preorder := by
  unfold childrenIn at h
  cases hc : n.child? field with
  | none =>
    rw [hc] at h
    cases h
  | some c =>
    rw [hc] at h
    exact preorder_subset (mem_preorder_of_child? hc) (mem_preorder_of_mem_namedChildren h)

/-- The first named child, or the node where there is none. -/
theorem firstNamedChild?_getD_mem_preorder (n : Node) :
    n.firstNamedChild?.getD n ∈ n.preorder := by
  cases h : n.firstNamedChild? with
  | none => exact n.self_mem_preorder
  | some m => exact mem_preorder_of_mem_namedChildren (List.mem_of_head? h)

/-- The child in a field, or the node where there is none. -/
theorem child?_getD_mem_preorder (n : Node) (field : String) :
    (n.child? field).getD n ∈ n.preorder := by
  cases h : n.child? field with
  | none => exact n.self_mem_preorder
  | some m => exact mem_preorder_of_child? h

theorem exists_mem_preorder_of_mem_operandsOf {kind : String} {pending : List Node} {m : Node}
    (h : m ∈ operandsOf kind pending) : ∃ n ∈ pending, m ∈ n.preorder := by
  fun_induction operandsOf kind pending with
  | case1 => cases h
  | case2 n pending _ ih =>
    -- a link of the chain gave way to its named children
    obtain ⟨c, hc, hm⟩ := ih h
    obtain hc | hc := List.mem_append.1 hc
    · exact ⟨n, List.mem_cons_self, preorder_subset (mem_preorder_of_mem_namedChildren hc) hm⟩
    · exact ⟨c, List.mem_cons_of_mem n hc, hm⟩
  | case3 n pending _ ih =>
    obtain rfl | h := List.mem_cons.1 h
    · exact ⟨m, List.mem_cons_self, m.self_mem_preorder⟩
    · obtain ⟨c, hc, hm⟩ := ih h
      exact ⟨c, List.mem_cons_of_mem n hc, hm⟩

theorem mem_preorder_of_mem_operands {m n : Node} (h : m ∈ n.operands) : m ∈ n.preorder := by
  obtain ⟨c, hc, hm⟩ := exists_mem_preorder_of_mem_operandsOf h
  obtain rfl := List.mem_singleton.1 hc
  exact hm

end Node

open Node

/-! ## Forms of types -/

theorem bareType_mem_preorder (n : Node) : bareType n ∈ n.preorder := by
  unfold bareType
  split
  · exact n.firstNamedChild?_getD_mem_preorder
  · exact n.firstNamedChild?_getD_mem_preorder
  · exact n.self_mem_preorder

theorem tupleElement_mem_preorder (n : Node) : tupleElement n ∈ n.preorder := by
  unfold tupleElement
  split
  · exact n.child?_getD_mem_preorder "type"
  · exact n.child?_getD_mem_preorder "type"
  · exact n.firstNamedChild?_getD_mem_preorder
  · exact n.firstNamedChild?_getD_mem_preorder
  · exact n.self_mem_preorder

/-- The nodes that a form hands on, to be resolved as types. -/
def TypeForm.parts : TypeForm → List Node
  | .composite _ parts => parts
  | _ => []

theorem mem_preorder_of_mem_parts {src : Source} {n m : Node} (h : m ∈ (typeForm src n).parts) :
    m ∈ n.preorder := by
  have hspec := spec_typeForm src n
  generalize typeForm src n = form at h hspec
  cases hspec with
  | chain => exact mem_preorder_of_mem_operands h
  | list => exact mem_preorder_of_mem_namedChildren h
  | tuple =>
    obtain ⟨c, hc, rfl⟩ := List.mem_map.1 h
    exact preorder_subset (mem_preorder_of_mem_namedChildren hc) (tupleElement_mem_preorder c)
  | generic => exact mem_preorder_of_mem_childrenIn h
  | _ => cases h

/-! ## Forms of values -/

theorem exists_mem_preorder_of_mem_pairsOf {src : Source} {members : List Node}
    {pair : String × Node} (h : pair ∈ (pairsOf src members).value) :
    ∃ member ∈ members, pair.2 ∈ member.preorder := by
  have hlater : ∀ {member : Node} {rest : List Node}, (∃ m ∈ rest, pair.2 ∈ m.preorder) →
      ∃ m ∈ member :: rest, pair.2 ∈ m.preorder :=
    fun ⟨m, hm, hvalue⟩ => ⟨m, List.mem_cons_of_mem _ hm, hvalue⟩
  fun_induction pairsOf src members with
  | case1 => cases h
  | case2 member rest hpair key value hvalue hkey ih =>
    obtain rfl | h := List.mem_cons.1 h
    · exact ⟨member, List.mem_cons_self, mem_preorder_of_child? hvalue⟩
    · exact hlater (ih h)
  | case3 member rest hpair hincomplete ih => exact hlater (ih h)
  | case4 member rest hother ih => exact hlater (ih h)

/-- The nodes that a form hands on, to be resolved as values. -/
def ValueForm.values : ValueForm → List Node
  | .array elements => elements
  | .object pairs => pairs.map Prod.snd
  | .call callee args => callee.toList ++ args
  | .construct _ _ args => args
  | _ => []

/-- The nodes that a form hands on, to be resolved as types. -/
def ValueForm.types : ValueForm → List Node
  | .construct _ typeArgs _ => typeArgs
  | _ => []

theorem mem_preorder_of_mem_values {src : Source} {n m : Node}
    (h : m ∈ (valueForm src n).value.values) : m ∈ n.preorder := by
  have hspec := spec_valueForm src n
  generalize (valueForm src n).value = form at h hspec
  cases hspec with
  | array => exact mem_preorder_of_mem_namedChildren h
  | object =>
    obtain ⟨pair, hpair, rfl⟩ := List.mem_map.1 h
    obtain ⟨member, hmember, hvalue⟩ := exists_mem_preorder_of_mem_pairsOf hpair
    exact preorder_subset (mem_preorder_of_mem_namedChildren hmember) hvalue
  | call =>
    obtain hcallee | harg := List.mem_append.1 h
    · exact mem_preorder_of_child? (Option.mem_toList.1 hcallee)
    · exact mem_preorder_of_mem_childrenIn harg
  | construct => exact mem_preorder_of_mem_childrenIn h
  | _ => cases h

theorem mem_preorder_of_mem_types {src : Source} {n m : Node}
    (h : m ∈ (valueForm src n).value.types) : m ∈ n.preorder := by
  have hspec := spec_valueForm src n
  generalize (valueForm src n).value = form at h hspec
  cases hspec with
  | construct => exact mem_preorder_of_mem_childrenIn h
  | _ => cases h

/-! ## Calls and constructions -/

/-- A tree in which every call has a callee. -/
def Node.CallsHaveCallee (n : Node) : Prop :=
  ∀ m ∈ n.preorder, m.kind = "call_expression" → (m.child? "function").isSome

instance (n : Node) : Decidable n.CallsHaveCallee :=
  inferInstanceAs (Decidable (∀ m ∈ n.preorder, m.kind = "call_expression" →
    (m.child? "function").isSome))

theorem Node.CallsHaveCallee.of_mem_preorder {n m : Node} (h : n.CallsHaveCallee)
    (hm : m ∈ n.preorder) : m.CallsHaveCallee :=
  fun c hc => h c (Node.preorder_subset hm hc)

/-- Where every call has a callee, so has the form of a call. -/
theorem Node.CallsHaveCallee.exists_callee {src : Source} {n : Node} {callee : Option Node}
    {args : List Node} (h : n.CallsHaveCallee)
    (hform : (valueForm src n).value = .call callee args) : ∃ f, callee = some f := by
  have hspec := spec_valueForm src n
  rw [hform] at hspec
  cases hspec with
  | call hkind => exact Option.isSome_iff_exists.1 (h n n.self_mem_preorder hkind)

/-- Only a construction has the form of one, and its target is what it constructs. -/
theorem eq_constructTarget_of_valueForm_eq_construct {src : Source} {n : Node} {target : TypeTerm}
    {typeArgs args : List Node} (h : (valueForm src n).value = .construct target typeArgs args) :
    n.kind = "new_expression" ∧ target = constructTarget src n := by
  have hspec := spec_valueForm src n
  rw [h] at hspec
  cases hspec with
  | construct hkind => exact ⟨hkind, rfl⟩

/-! ## What is said of a part is said of the whole -/

section

variable {src : Source} {limit levels : Nat} {n m : Node}

theorem log_resolveType_subset_of_mem_parts (h : m ∈ (typeForm src (bareType n)).parts) :
    (resolveType src limit levels m).log ⊆ (resolveType src limit (levels + 1) n).log := by
  rw [resolveType]
  cases hform : typeForm src (bareType n) with
  | composite kind parts =>
    rw [hform] at h
    exact List.subset_append_of_subset_left _ (Logged.log_subset_traverse _ h)
  | _ =>
    rw [hform] at h
    cases h

theorem log_resolveValue_subset_of_mem_values (h : m ∈ (valueForm src n).value.values) :
    (resolveValue src limit levels m).log ⊆ (resolveValue src limit (levels + 1) n).log := by
  rw [resolveValue, Logged.log_bind]
  refine List.subset_append_of_subset_right _ ?_
  cases hform : (valueForm src n).value with
  | array elements =>
    rw [hform] at h
    have hstep := Logged.log_subset_traverse
      (fun element => Member.element <$> resolveValue src limit levels element) h
    rw [Logged.log_map] at hstep
    exact List.subset_append_of_subset_left _ hstep
  | object pairs =>
    rw [hform] at h
    obtain ⟨⟨key, value⟩, hpair, rfl⟩ := List.mem_map.1 h
    refine List.subset_append_of_subset_left _ ?_
    refine List.Subset.trans ?_ (Logged.log_subset_traverse _ hpair)
    rw [Logged.log_map]
    exact List.Subset.refl _
  | call callee args =>
    rw [hform] at h
    obtain hcallee | harg := List.mem_append.1 h
    · obtain rfl := Option.mem_toList.1 hcallee
      refine List.subset_append_of_subset_left _ ?_
      rw [Logged.log_traverse?]
      exact List.Subset.refl _
    · refine List.subset_append_of_subset_right _ ?_
      exact List.subset_append_of_subset_left _ (Logged.log_subset_traverse _ harg)
  | construct target typeArgs args =>
    rw [hform] at h
    refine List.subset_append_of_subset_right _ ?_
    exact List.subset_append_of_subset_left _ (Logged.log_subset_traverse _ h)
  | _ =>
    rw [hform] at h
    cases h

theorem log_resolveType_subset_of_mem_types (h : m ∈ (valueForm src n).value.types) :
    (resolveType src limit levels m).log ⊆ (resolveValue src limit (levels + 1) n).log := by
  rw [resolveValue, Logged.log_bind]
  refine List.subset_append_of_subset_right _ ?_
  cases hform : (valueForm src n).value with
  | construct target typeArgs args =>
    rw [hform] at h
    exact List.subset_append_of_subset_left _ (Logged.log_subset_traverse _ h)
  | _ =>
    rw [hform] at h
    cases h

end

end DeclCatalog
