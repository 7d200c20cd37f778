import DeclCatalog.Proofs.PreorderWalk
import DeclCatalog.Proofs.Subtree

/-!
# The search for the first error

The search for an error goes through a tree as a walk does, but it does not enter a node that has
no error at it or below it. So it may pass over many nodes at once. What it passes over is free of
errors as long as the marks of the nodes tell the truth.

- `Node.IsMarked`: the mark that lets the search pass over a subtree is not missing where it is
  needed.
- `Cursor.find?_remaining_eq_seek?`: the step lemma, **one step of the search passes over no
  error**.
- `Cursor.firstFault?_eq_find?`: the run lemma, the search gives the first error of what remains.
- `firstError_mem_preorder`: whatever the marks say, what is found is a node of the tree.
- `Node.MarksErrors`, `firstError_eq_find?_preorder`: **the first error in pre-order is found**.
-/

namespace DeclCatalog

open Node

/-- Whether a node without the mark of an error has none in its subtree. -/
def Node.IsMarked (n : Node) : Prop :=
  n.head.hasError = false → ∀ m ∈ n.preorder, m.isFault = false

namespace Cursor

variable {c : Cursor}

/-- The search goes forward only. -/
theorem remainingOf_seek?_subset : remainingOf c.seek? ⊆ c.remaining := by
  unfold seek?
  split
  · rw [remaining_eq]
    exact List.subset_cons_self _ _
  · rw [remainingOf_climb?, remaining]
    exact List.subset_append_right _ _

/-- The step lemma: what the search leaves behind in one step has no error. -/
theorem find?_remaining_eq_seek? (hfault : c.site.node.isFault = false)
    (hmarked : c.site.node.IsMarked) :
    (c.remaining.map Site.node).find? isFault =
      ((remainingOf c.seek?).map Site.node).find? isFault := by
  unfold seek?
  by_cases herror : c.site.node.head.hasError = true
  · -- only the node itself is left behind
    rw [if_pos herror, remaining_eq, List.map_cons, List.find?_cons_of_neg (by simp [hfault])]
  · -- the whole subtree is left behind
    have hfree : c.site.node.preorder.find? isFault = none := by
      rw [List.find?_eq_none]
      intro m hm
      rw [hmarked (by simpa using herror) m hm]
      exact Bool.false_ne_true
    rw [if_neg herror, remainingOf_climb?, remaining, List.map_append, Site.map_node_preorder,
      List.find?_append, hfree, Option.none_or]

theorem site_mem_remaining (c : Cursor) : c.site ∈ c.remaining := by
  rw [remaining_eq]
  exact List.mem_cons_self

/-- The run lemma: the search gives the first error of what remains. -/
theorem firstFault?_eq_find? (hmarked : ∀ s ∈ c.remaining, s.node.IsMarked) :
    c.firstFault? = (c.remaining.map Site.node).find? isFault := by
  fun_induction firstFault? c with
  | case1 c hfault => rw [remaining_eq, List.map_cons, List.find?_cons_of_pos hfault]
  | case2 c hfault next hnext ih =>
    have hsubset : next.remaining ⊆ c.remaining := by
      have hseek := @remainingOf_seek?_subset c
      rwa [hnext] at hseek
    have hhere := hmarked c.site c.site_mem_remaining
    rw [find?_remaining_eq_seek? (by simpa using hfault) hhere, hnext]
    exact ih fun s hs => hmarked s (hsubset hs)
  | case3 c hfault hnext =>
    have hhere := hmarked c.site c.site_mem_remaining
    rw [find?_remaining_eq_seek? (by simpa using hfault) hhere, hnext]
    rfl

/-- What the search finds is one of the nodes that remain, whatever the marks say. -/
theorem mem_of_firstFault? {m : Node} (h : c.firstFault? = some m) :
    m ∈ c.remaining.map Site.node := by
  fun_induction firstFault? c with
  | case1 c _ =>
    obtain rfl := Option.some.inj h
    exact List.mem_map_of_mem c.site_mem_remaining
  | case2 c _ next hnext ih =>
    have hseek := @remainingOf_seek?_subset c
    rw [hnext] at hseek
    exact List.map_subset Site.node hseek (ih h)
  | case3 c _ _ => cases h

theorem nodes_start (n : Node) : (start (Site.root n)).remaining.map Site.node = n.preorder := by
  rw [remaining_start, Site.map_node_preorder, Site.root]

end Cursor

theorem firstError_mem_preorder (root : Node) : root.firstError ∈ root.preorder := by
  unfold firstError
  cases h : (Cursor.start (Site.root root)).firstFault? with
  | none => exact root.self_mem_preorder
  | some m =>
    rw [← Cursor.nodes_start root]
    exact Cursor.mem_of_firstFault? h

/-! ## Trees with true marks -/

/-- Whether the marks of a tree tell the truth: a node is marked exactly when it, or a node below
it, is an error or missing. -/
def Node.MarksErrors (root : Node) : Prop :=
  ∀ n ∈ root.preorder, n.head.hasError = true ↔ ∃ m ∈ n.preorder, m.isFault = true

theorem Node.MarksErrors.isMarked {root n : Node} (h : root.MarksErrors) (hn : n ∈ root.preorder) :
    n.IsMarked := by
  intro hunmarked m hm
  cases hfault : m.isFault with
  | false => rfl
  | true =>
    have hmarked : n.head.hasError = true := (h n hn).2 ⟨m, hm, hfault⟩
    rw [hunmarked] at hmarked
    cases hmarked

/-- **The first error in pre-order is found, although most of the tree may be passed over.** In a
tree with true marks, the search from a node gives the first node of its subtree, in pre-order, that
is an error or missing. It gives the node where it started when there is none. -/
theorem firstError_eq_find?_preorder (root : Node) (hmarks : root.MarksErrors) (n : Node)
    (hn : n ∈ root.preorder) : n.firstError = (n.preorder.find? isFault).getD n := by
  have hmarked : ∀ s ∈ (Cursor.start (Site.root n)).remaining, s.node.IsMarked := by
    intro s hs
    have hnode : s.node ∈ n.preorder := by
      rw [← Cursor.nodes_start n]
      exact List.mem_map_of_mem hs
    exact hmarks.isMarked (preorder_subset hn hnode)
  rw [firstError, Cursor.firstFault?_eq_find? hmarked, Cursor.nodes_start]

/-- A named node with an error below it. -/
def Node.broken (kind : String) (field : Option String) (start stop : Nat)
    (children : List Node) : Node :=
  .mk {
    id := 0, kind, field, isNamed := true, isError := false, isMissing := false, hasError := true
    start, stop } children

/-- The mark that is missing in `a; f(b;`. -/
def missingMark : Node :=
  .mk {
    id := 0, kind := ")", field := none, isNamed := false, isError := false, isMissing := true
    hasError := true, start := 6, stop := 6 } []

/-- The tree of `a; f(b;`. -/
def unclosedCall : Node :=
  .broken "program" none 0 7 [
    .named "expression_statement" none 0 2 [
      .named "identifier" none 0 1 [], .token ";" 1 2],
    .broken "expression_statement" none 3 7 [
      .broken "call_expression" none 3 6 [
        .named "identifier" (some "function") 3 4 [],
        .broken "arguments" (some "arguments") 4 6 [
          .token "(" 4 5, .named "identifier" none 5 6 [], missingMark]],
      .token ";" 6 7]]

/-- The first statement of `a; f(b;` is passed over, and the missing mark in the second is found. -/
theorem firstError_eq_find?_preorder_unclosedCall :
    unclosedCall.MarksErrors ∧ unclosedCall.firstError = missingMark := by
  have hmarks : unclosedCall.MarksErrors := by
    unfold MarksErrors
    decide
  refine ⟨hmarks, ?_⟩
  rw [firstError_eq_find?_preorder unclosedCall hmarks unclosedCall unclosedCall.self_mem_preorder]
  rfl

end DeclCatalog
