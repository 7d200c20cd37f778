import DeclCatalog.Tree.Node

/-!
# Cursors

A cursor stands at a node and moves from node to node without ever leaving the tree it was set on.
It keeps what is still to the right of it at every level up to the node where it started.

- `Cursor`: a site, the siblings after it, and the levels above.
- `Cursor.firstChild?`, `Cursor.nextSibling?`, `Cursor.parent?`: the three moves.
- `Cursor.climb?`, `Cursor.advance?`: up to the next sibling of the node or of a node above it; and
  down if there is a child, else up.
- `Cursor.remaining`: the sites from here on, in pre-order. **One step forward takes exactly the
  first of them away** (`Cursor.remaining_eq`).
- `Cursor.seek?`, `Cursor.firstFault?`: towards the next error, without going into parts that have
  none; and the first error from here on.
- `Node.firstError`: the first error in a tree.
-/

namespace DeclCatalog

/-- A node above a cursor, with the siblings that stand after it. -/
structure Level where
  site : Site
  later : List Node

/-- A place in a tree. -/
structure Cursor where
  site : Site
  /-- The siblings that stand after the node. -/
  later : List Node
  /-- The levels above, the nearest first; the last one is where the cursor started. -/
  above : List Level

namespace Cursor

/-- A cursor that starts at a site. The siblings of the site are out of its reach. -/
def start (site : Site) : Cursor where
  site := site
  later := []
  above := []

/-! ## Moves -/

/-- Down to the first child. -/
def firstChild? (c : Cursor) : Option Cursor :=
  match c.site.node.children with
  | [] => none
  | n :: later =>
    some {
      site := { parent := some c.site.node, node := n }
      later
      above := { site := c.site, later := c.later } :: c.above }

/-- On to the next sibling. -/
def nextSibling? (c : Cursor) : Option Cursor :=
  match c.later with
  | [] => none
  | n :: later => some { c with site := { c.site with node := n }, later }

/-- Up to the parent, unless the cursor is where it started. -/
def parent? (c : Cursor) : Option Cursor :=
  match c.above with
  | [] => none
  | level :: above => some { site := level.site, later := level.later, above }

theorem length_above_of_parent? {c up : Cursor} (h : c.parent? = some up) :
    up.above.length < c.above.length := by
  obtain ⟨site, later, above⟩ := c
  cases above with
  | nil => cases h
  | cons level above =>
    cases h
    exact Nat.lt_succ_self _

/-- On to the next sibling, of the node itself or of the nearest node above it that has one. -/
def climb? (c : Cursor) : Option Cursor :=
  match c.nextSibling? with
  | some next => some next
  | none =>
    match _h : c.parent? with
    | some up => up.climb?
    | none => none
termination_by c.above.length
decreasing_by exact length_above_of_parent? ‹_›

/-- Down if there is a child, else on and up. -/
def advance? (c : Cursor) : Option Cursor :=
  match c.firstChild? with
  | some child => some child
  | none => c.climb?

/-! ## What remains -/

/-- The sites after the node and what is below it: its later siblings, then what is to the right of
each level above. -/
def after (c : Cursor) : List Site :=
  Site.preorderAll c.site.parent c.later ++
    c.above.flatMap fun level => Site.preorderAll level.site.parent level.later

/-- The sites from the cursor on, in pre-order. -/
def remaining (c : Cursor) : List Site :=
  Site.preorder c.site.parent c.site.node ++ c.after

/-- What remains at a cursor that may have nowhere to go. -/
def remainingOf : Option Cursor → List Site
  | some c => c.remaining
  | none => []

theorem remaining_start (site : Site) :
    (start site).remaining = Site.preorder site.parent site.node := by
  simp [remaining, after, start, Site.preorderAll]

/-- Climbing skips nothing. -/
theorem remainingOf_climb? (c : Cursor) : remainingOf c.climb? = c.after := by
  fun_induction climb? c with
  | case1 c next hnext =>
    obtain ⟨site, later, above⟩ := c
    cases later with
    | nil => cases hnext
    | cons n later =>
      cases hnext
      simp [remainingOf, remaining, after, Site.preorderAll]
  | case2 c hnext up hup ih =>
    obtain ⟨site, later, above⟩ := c
    cases later with
    | cons n later => cases hnext
    | nil =>
      cases above with
      | nil => cases hup
      | cons level above =>
        cases hup
        rw [ih]
        simp [after, Site.preorderAll]
  | case3 c hnext hup =>
    obtain ⟨site, later, above⟩ := c
    cases later with
    | cons n later => cases hnext
    | nil =>
      cases above with
      | cons level above => cases hup
      | nil => simp [remainingOf, after, Site.preorderAll]

/-- The step lemma: the node itself comes first, and what remains after one step is the rest. -/
theorem remaining_eq (c : Cursor) : c.remaining = c.site :: remainingOf c.advance? := by
  obtain ⟨⟨parent, ⟨head, children⟩⟩, later, above⟩ := c
  cases children with
  | nil =>
    have hclimb := remainingOf_climb? ⟨⟨parent, .mk head []⟩, later, above⟩
    simp [advance?, firstChild?, Node.children, hclimb, remaining, Site.preorder,
      Site.preorderAll]
  | cons n ns =>
    simp [advance?, firstChild?, Node.children, remainingOf, remaining, after, Site.preorder,
      Site.preorderAll]

theorem length_remaining_of_advance? {c next : Cursor} (h : c.advance? = some next) :
    next.remaining.length < c.remaining.length := by
  rw [remaining_eq c, h]
  exact Nat.lt_succ_self _

theorem length_remaining_of_climb? {c next : Cursor} (h : c.climb? = some next) :
    next.remaining.length < c.remaining.length := by
  have hafter : next.remaining = c.after := by
    rw [← remainingOf_climb? c, h, remainingOf]
  rw [hafter, remaining, List.length_append]
  have hnode : 0 < (Site.preorder c.site.parent c.site.node).length := by
    rw [Site.preorder_eq]
    exact Nat.succ_pos _
  omega

/-! ## Searching for an error -/

/-- Towards the next error: down only if there is an error at the node or below it, else on and
up. -/
def seek? (c : Cursor) : Option Cursor :=
  if c.site.node.head.hasError then c.advance? else c.climb?

theorem length_remaining_of_seek? {c next : Cursor} (h : c.seek? = some next) :
    next.remaining.length < c.remaining.length := by
  unfold seek? at h
  split at h
  · exact length_remaining_of_advance? h
  · exact length_remaining_of_climb? h

/-- The first error or missing node from the cursor on. Nodes without an error are not entered. -/
def firstFault? (c : Cursor) : Option Node :=
  if c.site.node.isFault then some c.site.node
  else
    match _h : c.seek? with
    | some next => next.firstFault?
    | none => none
termination_by c.remaining.length
decreasing_by exact length_remaining_of_seek? ‹_›

end Cursor

/-- The first error or missing node of a tree; the root when there is none. -/
def Node.firstError (root : Node) : Node :=
  (Cursor.start (Site.root root)).firstFault?.getD root

end DeclCatalog
