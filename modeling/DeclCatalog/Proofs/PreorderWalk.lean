import DeclCatalog.Classify

/-!
# The walk is a pre-order traversal

A walk moves a cursor down, on and up. What it does is said here without a cursor: it goes through
the sites of the tree in pre-order, and stops before the first site at which the time is up.

- `visitInOrder`: visits the sites of a list under a deadline. A walk from a cursor is that over the
  sites that remain there (`walk_eq_visitInOrder`).
- `inTime`: the sites of a list that are visited before the time is up (`inTime_eq_take`).
- `stoppedAt_visitInOrder`, `records_visitInOrder`, `log_visitInOrder`: what a run over a list
  gives.
- `Declared`, `visit_eq_visitAs`: a visit by what its node declares, which no configuration decides.
- `Node.isDeclaration`, `isSome_visit`: the nodes that have a record.
- `visit_cases`, `filepath_visit`: what the record is, by what the node declares, and the path that
  every record carries.
- `classify_eq_preorder`: **a walk visits each site of the subtree once, in pre-order, up to the
  first one at which the time is up**.
-/

namespace DeclCatalog

/-! ## A walk goes through what remains -/

/-- Visits the sites of a list, where `visited` sites came before, until the time is up. -/
def visitInOrder (visit : Site → Logged (Option Record)) (expired : Deadline) (visited : Nat) :
    List Site → Logged WalkResult
  | [] => pure { records := [], stoppedAt := none }
  | site :: rest =>
    if expired visited then pure { records := [], stoppedAt := some visited }
    else do
      let record ← visit site
      let result ← visitInOrder visit expired (visited + 1) rest
      pure { result with records := record.toList ++ result.records }

/-- One step of the cursor is one site of the list. -/
theorem walk_eq_visitInOrder (visit : Site → Logged (Option Record)) (expired : Deadline)
    (visited : Nat) (cursor : Cursor) :
    walk visit expired visited cursor = visitInOrder visit expired visited cursor.remaining := by
  -- the induction is the walk's own: it ends at a site or goes on to the one that `advance?` gives
  fun_induction walk visit expired visited cursor with
  | case1 visited cursor hexpired =>
    rw [cursor.remaining_eq, visitInOrder, if_pos hexpired]
  | case2 visited cursor hexpired ih =>
    rw [cursor.remaining_eq, visitInOrder, if_neg hexpired]
    refine congrArg (visit cursor.site >>= ·) (funext fun record => ?_)
    cases hnext : cursor.advance? with
    | some next =>
      dsimp only
      rw [ih next hnext, Cursor.remainingOf]
    | none =>
      rw [Cursor.remainingOf, visitInOrder]
      simp [bind, pure]

/-! ## What a run over a list gives -/

section

variable (visit : Site → Logged (Option Record)) (expired : Deadline)

/-- The sites of a list that are visited, where `visited` sites came before: those before the first
one at which the time is up. -/
def inTime (visited : Nat) : List Site → List Site
  | [] => []
  | site :: rest => if expired visited then [] else site :: inTime (visited + 1) rest

theorem stoppedAt_visitInOrder (visited : Nat) (sites : List Site) :
    (visitInOrder visit expired visited sites).value.stoppedAt =
      (List.range' visited sites.length).find? expired := by
  induction sites generalizing visited with
  | nil => rfl
  | cons site rest ih =>
    rw [List.length_cons, List.range'_succ, visitInOrder]
    by_cases hexpired : expired visited
    · rw [if_pos hexpired, List.find?_cons_of_pos hexpired]
      rfl
    · rw [if_neg hexpired, List.find?_cons_of_neg hexpired, ← ih]
      rfl

theorem records_visitInOrder (visited : Nat) (sites : List Site) :
    (visitInOrder visit expired visited sites).value.records =
      (inTime expired visited sites).filterMap fun site => (visit site).value := by
  induction sites generalizing visited with
  | nil => rfl
  | cons site rest ih =>
    rw [visitInOrder, inTime]
    by_cases hexpired : expired visited
    · rw [if_pos hexpired, if_pos hexpired]
      rfl
    · rw [if_neg hexpired, if_neg hexpired, List.filterMap_cons, ← ih]
      cases hrecord : (visit site).value <;> simp [hrecord]

theorem log_visitInOrder (visited : Nat) (sites : List Site) :
    (visitInOrder visit expired visited sites).log =
      (inTime expired visited sites).flatMap fun site => (visit site).log := by
  induction sites generalizing visited with
  | nil => rfl
  | cons site rest ih =>
    rw [visitInOrder, inTime]
    by_cases hexpired : expired visited
    · rw [if_pos hexpired, if_pos hexpired]
      rfl
    · rw [if_neg hexpired, if_neg hexpired, List.flatMap_cons, ← ih]
      simp

/-- Stopping before a site leaves it and all that come after it out, and not stopping leaves out
none. -/
theorem inTime_eq_take (visited : Nat) (sites : List Site) :
    inTime expired visited sites =
      sites.take (((List.range' visited sites.length).find? expired).getD
        (visited + sites.length) - visited) := by
  induction sites generalizing visited with
  | nil => rw [inTime, List.take_nil]
  | cons site rest ih =>
    rw [List.length_cons, List.range'_succ, inTime]
    by_cases hexpired : expired visited
    · rw [if_pos hexpired, List.find?_cons_of_pos hexpired]
      simp
    · rw [if_neg hexpired, List.find?_cons_of_neg hexpired, ih, Nat.add_right_comm visited 1,
        Nat.add_assoc visited]
      -- the stop is at a later site, so the first one is among those that are taken
      have hlater : visited + 1 ≤ ((List.range' (visited + 1) rest.length).find? expired).getD
          (visited + (rest.length + 1)) := by
        cases hfind : (List.range' (visited + 1) rest.length).find? expired with
        | none => exact Nat.add_le_add_left (Nat.le_add_left 1 _) visited
        | some k => exact (List.mem_range'_1.1 (List.mem_of_find?_eq_some hfind)).1
      obtain ⟨d, hd⟩ := Nat.exists_eq_add_of_le hlater
      rw [hd, Nat.add_sub_cancel_left, Nat.add_assoc visited 1 d, Nat.add_sub_cancel_left,
        Nat.add_comm 1 d, List.take_succ_cons]

end

/-! ## The sites of a subtree -/

namespace Site

mutual

/-- The sites in pre-order are those of the nodes in pre-order. -/
theorem map_node_preorder (parent : Option Node) (n : Node) :
    (preorder parent n).map node = n.preorder := by
  obtain ⟨head, children⟩ := n
  rw [preorder, Node.preorder, List.map_cons, map_node_preorderAll]

theorem map_node_preorderAll (parent : Option Node) (ns : List Node) :
    (preorderAll parent ns).map node = Node.preorderAll ns := by
  cases ns with
  | nil => rfl
  | cons n ns =>
    rw [preorderAll, Node.preorderAll, List.map_append, map_node_preorder, map_node_preorderAll]

end

end Site

mutual

/-- A tree has as many places in its pre-order as it has nodes. -/
theorem Node.length_preorder (n : Node) : n.preorder.length = n.weight := by
  obtain ⟨head, children⟩ := n
  rw [Node.preorder, Node.weight, List.length_cons, Node.length_preorderAll]

theorem Node.length_preorderAll (ns : List Node) :
    (Node.preorderAll ns).length = Node.weightAll ns := by
  cases ns with
  | nil => rfl
  | cons n ns =>
    rw [Node.preorderAll, Node.weightAll, List.length_append, Node.length_preorder,
      Node.length_preorderAll]

end

/-! ## What a visit gives -/

/-- Whether a node declares something that is recorded. The keyword of a class has the kind of a
class expression, but is not a named node. -/
def Node.isDeclaration (n : Node) : Bool :=
  ["program", "class_declaration", "abstract_class_declaration", "interface_declaration",
    "enum_declaration", "type_alias_declaration"].contains n.kind ||
  n.kind == "class" && n.head.isNamed

/-- What a node can declare. A class may be a declaration or an expression. -/
inductive Declared where
  | file
  | classLike
  | interface
  | enum
  | typeAlias
  deriving DecidableEq

/-- What a node declares, if it declares something that is recorded. -/
def Node.declared? (n : Node) : Option Declared :=
  match n.kind with
  | "program" => some .file
  | "class_declaration" => some .classLike
  | "abstract_class_declaration" => some .classLike
  | "interface_declaration" => some .interface
  | "enum_declaration" => some .enum
  | "type_alias_declaration" => some .typeAlias
  -- an expression, or the keyword
  | "class" => if n.head.isNamed then some .classLike else none
  | _ => none

theorem Node.isSome_declared? (n : Node) : n.declared?.isSome = n.isDeclaration := by
  unfold declared? isDeclaration
  by_cases hclass : n.kind = "class"
  · rw [hclass]
    cases n.head.isNamed <;> rfl
  · -- the kind alone decides
    generalize n.kind = kind at hclass
    split <;> first | rfl | simp_all

/-- The record of a site, by what its node declares. -/
def visitAs (src : Source) (config : Config) (site : Site) :
    Option Declared → Logged (Option Record)
  | some .file => pure (some (.sourceFile (collectFile src site.node)))
  | some .classLike => some <$> classLike src config site
  | some .interface =>
    (some ∘ .interface) <$> collectInterface src config.limits.maxDepth site.node
  | some .enum => (some ∘ .enum) <$> collectEnum src config.limits.maxDepth site.node
  | some .typeAlias => (some ∘ .typeAlias) <$> collectAlias src config.limits.maxDepth site.node
  | none => pure none

/-- What a node declares is all that a visit asks of its kind. -/
theorem visit_eq_visitAs (src : Source) (config : Config) (site : Site) :
    visit src config site = visitAs src config site site.node.declared? := by
  unfold visit Node.declared?
  dsimp only
  by_cases hclass : site.node.kind = "class"
  · rw [hclass]
    cases site.node.head.isNamed <;> rfl
  · generalize site.node.kind = kind at hclass
    split <;> first | rfl | simp_all [visitAs]

/-- The declarations are the nodes that have a record. -/
theorem isSome_visit (src : Source) (config : Config) (site : Site) :
    (visit src config site).value.isSome = site.node.isDeclaration := by
  rw [visit_eq_visitAs, ← Node.isSome_declared?]
  rcases site.node.declared? with _ | (_ | _ | _ | _ | _) <;> rfl

/-- The record of a visit, by what the node declares. -/
theorem visit_cases {src : Source} {config : Config} {site : Site} {r : Record}
    (hr : (visit src config site).value = some r) :
    (site.node.declared? = some .file ∧ r = .sourceFile (collectFile src site.node)) ∨
    (site.node.declared? = some .classLike ∧ r = (classLike src config site).value) ∨
    (site.node.declared? = some .interface ∧
      r = .interface (collectInterface src config.limits.maxDepth site.node).value) ∨
    (site.node.declared? = some .enum ∧
      r = .enum (collectEnum src config.limits.maxDepth site.node).value) ∨
    (site.node.declared? = some .typeAlias ∧
      r = .typeAlias (collectAlias src config.limits.maxDepth site.node).value) := by
  rw [visit_eq_visitAs] at hr
  cases hdeclared : site.node.declared? with
  | none =>
    rw [hdeclared] at hr
    cases hr
  | some declared =>
    rw [hdeclared] at hr
    cases declared with
    | file => exact .inl ⟨rfl, (Option.some.inj hr).symm⟩
    | classLike => exact .inr (.inl ⟨rfl, (Option.some.inj hr).symm⟩)
    | interface => exact .inr (.inr (.inl ⟨rfl, (Option.some.inj hr).symm⟩))
    | enum => exact .inr (.inr (.inr (.inl ⟨rfl, (Option.some.inj hr).symm⟩)))
    | typeAlias => exact .inr (.inr (.inr (.inr ⟨rfl, (Option.some.inj hr).symm⟩)))

/-- A class lies in the file that it was read from, whatever its role. -/
theorem filepath_classLike (src : Source) (config : Config) (site : Site) :
    (classLike src config site).value.filepath = src.path := by
  unfold classLike
  cases frameworkDecorator? src config.aliases site with
  | none => rfl
  | some found =>
    obtain ⟨role, decorator⟩ := found
    cases role <;> rfl

/-- Every record carries the path of its file. -/
theorem filepath_visit {src : Source} {config : Config} {site : Site} {r : Record}
    (hr : (visit src config site).value = some r) : r.filepath = src.path := by
  obtain ⟨-, rfl⟩ | ⟨-, rfl⟩ | ⟨-, rfl⟩ | ⟨-, rfl⟩ | ⟨-, rfl⟩ := visit_cases hr
  · rfl
  · exact filepath_classLike src config site
  · rfl
  · rfl
  · rfl

/-- Visiting sites gives one record for each declaration among them, with the path of the file. -/
theorem map_filepath_filterMap_visit (src : Source) (config : Config) (sites : List Site) :
    (sites.filterMap fun s => (visit src config s).value).map Record.filepath =
      List.replicate (sites.countP fun s => s.node.isDeclaration) src.path := by
  induction sites with
  | nil => rfl
  | cons site rest ih =>
    have hdecl := isSome_visit src config site
    rw [List.filterMap_cons]
    cases hrecord : (visit src config site).value with
    | none =>
      rw [hrecord] at hdecl
      rw [List.countP_cons_of_neg (by simp [← hdecl])]
      exact ih
    | some r =>
      rw [hrecord] at hdecl
      rw [List.countP_cons_of_pos (by simp [← hdecl]), List.replicate_succ, ← ih,
        ← filepath_visit hrecord, List.map_cons]

/-! ## The walk of a tree -/

/-- The walk of a tree goes through its sites in pre-order. -/
theorem classify_eq_visitInOrder (src : Source) (config : Config) (expired : Deadline)
    (site : Site) :
    classify src config expired site =
      visitInOrder (visit src config) expired 0 (Site.preorder site.parent site.node) := by
  rw [← Cursor.remaining_start, ← walk_eq_visitInOrder, classify]

/-- **A walk is a pre-order traversal, cut where the time is up.** The sites are those of the nodes
of the subtree, in pre-order and each once. The walk stops at the first of them at which the time is
up, if there is one. What it gives, stopped or not, is what visiting the sites before that one gives
in their order: one record for each declaration among them, with the path of the file. -/
theorem classify_eq_preorder (src : Source) (config : Config) (expired : Deadline) (site : Site) :
    let sites := Site.preorder site.parent site.node
    let result := classify src config expired site
    let visited := sites.take (result.value.stoppedAt.getD sites.length)
    sites.map Site.node = site.node.preorder ∧ sites.length = site.node.weight ∧
    result.value.stoppedAt = (List.range sites.length).find? expired ∧
    result.value.records = visited.filterMap (fun s => (visit src config s).value) ∧
    result.log = visited.flatMap (fun s => (visit src config s).log) ∧
    (∀ s : Site, (visit src config s).value.isSome = s.node.isDeclaration) ∧
    result.value.records.map Record.filepath =
      List.replicate (visited.countP fun s => s.node.isDeclaration) src.path := by
  intro sites result visited
  have hresult : result = visitInOrder (visit src config) expired 0 sites :=
    classify_eq_visitInOrder src config expired site
  have hnodes : sites.map Site.node = site.node.preorder :=
    Site.map_node_preorder site.parent site.node
  have hstop : result.value.stoppedAt = (List.range sites.length).find? expired := by
    rw [hresult, stoppedAt_visitInOrder, List.range_eq_range']
  have hvisited : inTime expired 0 sites = visited := by
    rw [inTime_eq_take, ← List.range_eq_range', ← hstop, Nat.zero_add, Nat.sub_zero]
  have hrecords : result.value.records =
      visited.filterMap fun s => (visit src config s).value := by
    rw [hresult, records_visitInOrder, hvisited]
  refine ⟨hnodes, ?_, hstop, hrecords, ?_, isSome_visit src config, ?_⟩
  · rw [← List.length_map Site.node, hnodes, Node.length_preorder]
  · rw [hresult, log_visitInOrder, hvisited]
  · rw [hrecords]
    exact map_filepath_filterMap_visit src config visited

end DeclCatalog
