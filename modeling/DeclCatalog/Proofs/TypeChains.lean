import DeclCatalog.Proofs.Subtree

/-!
# Chains of types

A union of several types is a chain of unions, which may be nested to the left, to the right or both
ways, and so is an intersection. The operands of a chain are searched for with a list of nodes that
are still to be looked at. Here the search is compared with plain recursion over the tree, and a
chain with what its operands give.

- `Node.chainOperands`: the operands of a chain, by recursion from left to right.
- `Node.operandsOf_eq_flatMap`: the search finds, for all pending nodes together, what the recursion
  finds for each of them. This is the invariant of the search: a link on top of the pending nodes
  gives way to children which have the same operands.
- `Node.IsReached`, `Node.mem_chainOperands_iff`: the operands are the nodes where the links end.
- `Node.chainOperands_sublist_preorder`: they stand in source order, and each of them once.
- `typeAt`, `FlattensAt`: a type at a depth, and a chain that is resolved as one composite.
- `chain_costs_one_level`: **a chain is one composite of its operands, one level deeper**, whatever
  their number and however they are nested.
-/

namespace DeclCatalog

namespace Node

/-! ## The operands by recursion -/

mutual

/-- The operands of a chain of a kind, from left to right: a link has those of its named children,
and any other node is the only one. -/
def chainOperands (kind : String) : Node → List Node
  | .mk head children =>
    if head.kind = kind then chainOperandsAll kind children else [.mk head children]

/-- The operands at the named children among the children of a link; comments have none. -/
def chainOperandsAll (kind : String) : List Node → List Node
  | [] => []
  | c :: rest =>
    (if c.head.isNamed && c.kind != "comment" then chainOperands kind c else []) ++
      chainOperandsAll kind rest

end

theorem chainOperandsAll_eq (kind : String) (children : List Node) :
    chainOperandsAll kind children =
      (children.filter fun c => c.head.isNamed && c.kind != "comment").flatMap
        (chainOperands kind) := by
  induction children with
  | nil => rfl
  | cons c rest ih =>
    rw [chainOperandsAll, ih]
    by_cases hnamed : (c.head.isNamed && c.kind != "comment") = true
    · rw [if_pos hnamed, List.filter_cons, if_pos hnamed, List.flatMap_cons]
    · rw [if_neg hnamed, List.filter_cons, if_neg hnamed, List.nil_append]

theorem chainOperands_of_kind {kind : String} {n : Node} (h : n.kind = kind) :
    n.chainOperands kind = n.namedChildren.flatMap (chainOperands kind) := by
  obtain ⟨head, children⟩ := n
  have hlink : head.kind = kind := h
  rw [chainOperands, if_pos hlink]
  exact chainOperandsAll_eq kind children

theorem chainOperands_of_ne {kind : String} {n : Node} (h : n.kind ≠ kind) :
    n.chainOperands kind = [n] := by
  obtain ⟨head, children⟩ := n
  have hend : head.kind ≠ kind := h
  rw [chainOperands, if_neg hend]

/-- The search finds the operands of the pending nodes, those of the first one first. -/
theorem operandsOf_eq_flatMap (kind : String) (pending : List Node) :
    operandsOf kind pending = pending.flatMap (chainOperands kind) := by
  fun_induction operandsOf kind pending with
  | case1 => rfl
  | case2 n pending hkind ih =>
    -- the children of a link stand where the link stood, before what was pending with it
    rw [ih, List.flatMap_append, List.flatMap_cons, chainOperands_of_kind (beq_iff_eq.1 hkind)]
  | case3 n pending hkind ih =>
    have hne : n.kind ≠ kind := fun h => hkind (beq_iff_eq.2 h)
    rw [ih, List.flatMap_cons, chainOperands_of_ne hne, List.singleton_append]

theorem operands_eq_chainOperands (n : Node) : n.operands = n.chainOperands n.kind := by
  rw [operands, operandsOf_eq_flatMap, List.flatMap_singleton]

/-! ## Which nodes are operands -/

/-- A node that is reached from another one through links of a kind: each step goes from a link to
one of its named children. -/
inductive IsReached (kind : String) : Node → Node → Prop
  | refl (n : Node) : IsReached kind n n
  | step {n c m : Node} (link : n.kind = kind) (child : c ∈ n.namedChildren)
      (rest : IsReached kind c m) : IsReached kind n m

theorem isReached_of_mem_operandsOf {kind : String} {pending : List Node} {m : Node}
    (h : m ∈ operandsOf kind pending) : ∃ n ∈ pending, IsReached kind n m ∧ m.kind ≠ kind := by
  fun_induction operandsOf kind pending with
  | case1 => cases h
  | case2 n pending hkind ih =>
    obtain ⟨c, hc, hreached, hm⟩ := ih h
    obtain hc | hc := List.mem_append.1 hc
    · exact ⟨n, List.mem_cons_self, .step (beq_iff_eq.1 hkind) hc hreached, hm⟩
    · exact ⟨c, List.mem_cons_of_mem n hc, hreached, hm⟩
  | case3 n pending hkind ih =>
    obtain rfl | h := List.mem_cons.1 h
    · exact ⟨m, List.mem_cons_self, .refl m, fun h => hkind (beq_iff_eq.2 h)⟩
    · obtain ⟨c, hc, hreached⟩ := ih h
      exact ⟨c, List.mem_cons_of_mem n hc, hreached⟩

theorem mem_chainOperands_of_isReached {kind : String} {n m : Node} (h : IsReached kind n m)
    (hm : m.kind ≠ kind) : m ∈ n.chainOperands kind := by
  induction h with
  | refl n =>
    rw [chainOperands_of_ne hm]
    exact List.mem_singleton_self n
  | step link child _ ih =>
    rw [chainOperands_of_kind link]
    exact List.mem_flatMap.2 ⟨_, child, ih hm⟩

/-- The operands are the nodes at which the links end. -/
theorem mem_chainOperands_iff {kind : String} {n m : Node} :
    m ∈ n.chainOperands kind ↔ IsReached kind n m ∧ m.kind ≠ kind := by
  constructor
  · intro h
    have hsearch : m ∈ operandsOf kind [n] := by
      rw [operandsOf_eq_flatMap, List.flatMap_singleton]
      exact h
    obtain ⟨c, hc, hm⟩ := isReached_of_mem_operandsOf hsearch
    obtain rfl := List.mem_singleton.1 hc
    exact hm
  · rintro ⟨hreached, hm⟩
    exact mem_chainOperands_of_isReached hreached hm

mutual

/-- The operands are in source order, and no place of the tree is among them twice. -/
theorem chainOperands_sublist_preorder (kind : String) (n : Node) :
    (n.chainOperands kind).Sublist n.preorder := by
  obtain ⟨head, children⟩ := n
  rw [chainOperands, preorder]
  split
  · exact (chainOperandsAll_sublist_preorderAll kind children).cons _
  · exact List.singleton_sublist.2 List.mem_cons_self

theorem chainOperandsAll_sublist_preorderAll (kind : String) (children : List Node) :
    (chainOperandsAll kind children).Sublist (preorderAll children) := by
  cases children with
  | nil => exact List.Sublist.refl []
  | cons c rest =>
    rw [chainOperandsAll, preorderAll]
    refine List.Sublist.append ?_ (chainOperandsAll_sublist_preorderAll kind rest)
    split
    · exact chainOperands_sublist_preorder kind c
    · exact List.nil_sublist _

end

end Node

open Node

/-! ## Chains as types -/

/-- The kind of term that the chains of a node kind become. -/
def chainKind? : String → Option Kind
  | "union_type" => some .union
  | "intersection_type" => some .intersection
  | _ => none

/-- A type that is met at a depth. Up to the limit there are levels left, beyond it there are
none. -/
def typeAt (src : Source) (limit depth : Nat) (n : Node) : Logged TypeTerm :=
  resolveType src limit (limit + 1 - depth) n

/-- A chain that is resolved as one composite: its arguments are its operands, met one level deeper,
and nothing else is said of it than what is said of these. -/
structure FlattensAt (src : Source) (limit depth : Nat) (n : Node) (kind : Kind) : Prop where
  value : (typeAt src limit depth n).value =
    TypeTerm.composite kind
      ((n.chainOperands n.kind).map fun m => (typeAt src limit (depth + 1) m).value)
  log : (typeAt src limit depth n).log =
    (n.chainOperands n.kind).flatMap fun m => (typeAt src limit (depth + 1) m).log

section

variable {src : Source} {limit depth : Nat} {n m : Node} {kind : Kind}

theorem chainKind?_eq_some_iff {s : String} :
    chainKind? s = some kind ↔
      s = "union_type" ∧ kind = .union ∨ s = "intersection_type" ∧ kind = .intersection := by
  unfold chainKind?
  split
  · simp [eq_comm]
  · simp [eq_comm]
  · simp_all

/-- Different chains become terms of different kinds. -/
theorem ne_of_chainKind? {s s' : String} {kind' : Kind} (h : chainKind? s = some kind)
    (h' : chainKind? s' = some kind') (hne : s' ≠ s) : kind' ≠ kind := by
  rintro rfl
  obtain ⟨rfl, rfl⟩ | ⟨rfl, rfl⟩ := chainKind?_eq_some_iff.1 h
  · obtain ⟨rfl, -⟩ | ⟨-, hkind⟩ := chainKind?_eq_some_iff.1 h'
    · exact hne rfl
    · cases hkind
  · obtain ⟨-, hkind⟩ | ⟨rfl, -⟩ := chainKind?_eq_some_iff.1 h'
    · cases hkind
    · exact hne rfl

theorem typeForm_bareType_of_chain (h : chainKind? n.kind = some kind) :
    typeForm src (bareType n) = .composite kind (n.chainOperands n.kind) := by
  have hoperands := operands_eq_chainOperands n
  obtain ⟨hkind, rfl⟩ | ⟨hkind, rfl⟩ := chainKind?_eq_some_iff.1 h
  · have hbare : bareType n = n := by
      rw [bareType, hkind]
      rfl
    rw [hbare, ← hoperands, typeForm, hkind]
    rfl
  · have hbare : bareType n = n := by
      rw [bareType, hkind]
      rfl
    rw [hbare, ← hoperands, typeForm, hkind]
    rfl

theorem typeAt_of_le (hdepth : depth ≤ limit) :
    typeAt src limit depth n = resolveType src limit (limit - depth + 1) n := by
  rw [typeAt, Nat.sub_add_comm hdepth]

theorem typeAt_succ : typeAt src limit (depth + 1) m = resolveType src limit (limit - depth) m := by
  rw [typeAt, Nat.add_sub_add_right]

/-- A chain is resolved as the composite of its operands. -/
theorem typeAt_of_chain (hchain : chainKind? n.kind = some kind) (hdepth : depth ≤ limit) :
    typeAt src limit depth n =
      Logged.traverse (typeAt src limit (depth + 1)) (n.chainOperands n.kind) >>= fun args =>
        pure (TypeTerm.composite kind args) := by
  have hstep : typeAt src limit (depth + 1) = resolveType src limit (limit - depth) := by
    funext m
    exact typeAt_succ
  rw [typeAt_of_le hdepth, hstep, resolveType, typeForm_bareType_of_chain hchain]

theorem flattensAt_of_chain (hchain : chainKind? n.kind = some kind) (hdepth : depth ≤ limit) :
    FlattensAt src limit depth n kind := by
  constructor
  · rw [typeAt_of_chain hchain hdepth, Logged.value_bind, Logged.value_traverse]
    rfl
  · rw [typeAt_of_chain hchain hdepth, Logged.log_bind, Logged.log_traverse]
    exact List.append_nil _

/-- Within the limit, a type that has no parts is not cut off. -/
theorem rule_ne_depthLimit_of_parts_eq_nil (hdepth : depth ≤ limit)
    (hparts : (typeForm src (bareType n)).parts = []) :
    ∀ d ∈ (typeAt src limit depth n).log, d.rule ≠ .depthLimit := by
  rw [typeAt_of_le hdepth, resolveType]
  cases hform : typeForm src (bareType n) with
  | leaf kind => intro d hd; cases hd
  | literal raw => intro d hd; cases hd
  | composite kind parts =>
    rw [hform] at hparts
    obtain rfl : parts = [] := hparts
    intro d hd
    cases hd
  | unrecognized =>
    intro d hd
    obtain rfl := List.mem_singleton.1 hd
    show Rule.unknownType ≠ Rule.depthLimit
    decide

end

/-- **A chain is one composite of its operands, one level deeper.** A union or an intersection that
is met within the limit becomes one term, whose arguments are its operands from left to right. The
search for them finds what recursion over the tree finds: the nodes at which the links of the chain
end, in source order and each of them once. So two chains with the same operands are resolved alike,
however they are nested, and a chain of types without parts is not cut off if there is a level left
for these. A chain of the other kind is one operand, with a composite of its own. -/
theorem chain_costs_one_level (src : Source) (limit depth : Nat) (n : Node) (kind : Kind)
    (hchain : chainKind? n.kind = some kind) (hdepth : depth ≤ limit) :
    let operands := n.chainOperands n.kind
    FlattensAt src limit depth n kind ∧
    (∀ pending, operandsOf n.kind pending = pending.flatMap (chainOperands n.kind)) ∧
    operands.Sublist n.preorder ∧
    (∀ m, m ∈ operands ↔ IsReached n.kind n m ∧ m.kind ≠ n.kind) ∧
    (∀ other : Node, other.kind = n.kind → other.chainOperands n.kind = operands →
      typeAt src limit depth other = typeAt src limit depth n) ∧
    (depth < limit → (∀ m ∈ operands, (typeForm src (bareType m)).parts = []) →
      ∀ d ∈ (typeAt src limit depth n).log, d.rule ≠ .depthLimit) ∧
    ∀ m ∈ operands, ∀ kind', chainKind? m.kind = some kind' →
      kind' ≠ kind ∧ (depth < limit → FlattensAt src limit (depth + 1) m kind') := by
  intro operands
  have hflat : FlattensAt src limit depth n kind := flattensAt_of_chain hchain hdepth
  refine ⟨hflat, operandsOf_eq_flatMap n.kind, chainOperands_sublist_preorder n.kind n,
    fun m => mem_chainOperands_iff, ?_, ?_, ?_⟩
  · intro other hkind hsame
    have hother : chainKind? other.kind = some kind := by rw [hkind, hchain]
    rw [typeAt_of_chain hother hdepth, typeAt_of_chain hchain hdepth, hkind, hsame]
  · intro hroom hparts d hd
    rw [hflat.log] at hd
    obtain ⟨m, hm, hd⟩ := List.mem_flatMap.1 hd
    exact rule_ne_depthLimit_of_parts_eq_nil hroom (hparts m hm) d hd
  · intro m hm kind' hkind'
    have hends : m.kind ≠ n.kind := (mem_chainOperands_iff.1 hm).2
    exact ⟨ne_of_chainKind? hchain hkind' hends, fun hroom => flattensAt_of_chain hkind' hroom⟩

/-- The source `A | B & C | D`. -/
def mixedSource : Source :=
  Source.ofText "mixed.ts" "A | B & C | D"

/-- The name of one letter at an offset. -/
def letterType (i : Nat) : Node :=
  .named "type_identifier" none i (i + 1) []

/-- The type `B & C`. -/
def innerChain : Node :=
  .named "intersection_type" none 4 9 [letterType 4, .token "&" 6 7, letterType 8]

/-- The type `A | B & C | D`, which is nested to the left. -/
def mixedChain : Node :=
  .named "union_type" none 0 13 [
    .named "union_type" none 0 9 [letterType 0, .token "|" 2 3, innerChain],
    .token "|" 10 11, letterType 12]

/-- Three operands of one union, and the intersection among them is not part of it. -/
theorem chain_costs_one_level_mixed :
    mixedChain.chainOperands "union_type" = [letterType 0, innerChain, letterType 12] ∧
    (typeAt mixedSource 2 0 mixedChain).value =
      TypeTerm.composite .union [
        TypeTerm.leaf (.named "A"),
        TypeTerm.composite .intersection [TypeTerm.leaf (.named "B"), TypeTerm.leaf (.named "C")],
        TypeTerm.leaf (.named "D")] := by
  have hoperands : mixedChain.chainOperands "union_type" =
      [letterType 0, innerChain, letterType 12] := rfl
  have hinside : innerChain ∈ mixedChain.chainOperands "union_type" := by
    rw [hoperands]
    exact List.mem_cons_of_mem _ List.mem_cons_self
  obtain ⟨hflat, -, -, -, -, -, hother⟩ :=
    chain_costs_one_level mixedSource 2 0 mixedChain .union rfl (by decide)
  have hinner : FlattensAt mixedSource 2 1 innerChain .intersection :=
    (hother innerChain hinside .intersection rfl).2 (by decide)
  have hargs : mixedChain.chainOperands mixedChain.kind =
      [letterType 0, innerChain, letterType 12] := hoperands
  refine ⟨hoperands, ?_⟩
  rw [hflat.value, hargs, List.map_cons, List.map_cons, hinner.value]
  rfl

end DeclCatalog
