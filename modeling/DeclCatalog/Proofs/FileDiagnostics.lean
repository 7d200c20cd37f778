import DeclCatalog.Proofs.ErrorSearch
import DeclCatalog.Proofs.ReportPlaces
import DeclCatalog.Proofs.SourceLocation

/-!
# The diagnostics of a file

The diagnostics of a file come in three parts: that it has syntax errors, what was said at its
declarations in the order in which they were visited, and that it ran out of time.

- `visitedSites`: the sites of a tree before the first one at which the time is up.
- `stoppedAt_classify`, `records_classify`, `log_classify`: a walk from the root in terms of these.
- `Site.reach_subset`: all places are nodes of the tree.
- `log_visit_eq_nil`: only declarations have something said of them.
- `diagnostics_classifyUnder`: the three parts.
- `file_diagnostics_shape`: **what the parts are, and where each diagnostic stands**. Its place is
  said by the lines of the file, as in `StandsAt`.
-/

namespace DeclCatalog

open Node

/-! ## The sites that are visited -/

theorem Site.length_preorder (parent : Option Node) (n : Node) :
    (Site.preorder parent n).length = n.weight := by
  rw [← List.length_map Site.node, Site.map_node_preorder, Node.length_preorder]

/-- The sites of a tree before the first one at which the time is up. -/
def visitedSites (expired : Deadline) (root : Node) : List Site :=
  (Site.preorder none root).take (((List.range root.weight).find? expired).getD root.weight)

section

variable (src : Source) (config : Config) (expired : Deadline) (root : Node)

theorem inTime_eq_visitedSites :
    inTime expired 0 (Site.preorder none root) = visitedSites expired root := by
  rw [inTime_eq_take, ← List.range_eq_range', Site.length_preorder, Nat.zero_add, Nat.sub_zero,
    visitedSites]

theorem stoppedAt_classify :
    (classify src config expired (.root root)).value.stoppedAt =
      (List.range root.weight).find? expired := by
  rw [classify_eq_visitInOrder, stoppedAt_visitInOrder, ← List.range_eq_range',
    Site.length_preorder, Site.root]

theorem records_classify :
    (classify src config expired (.root root)).value.records =
      (visitedSites expired root).filterMap fun s => (visit src config s).value := by
  rw [classify_eq_visitInOrder, records_visitInOrder, ← inTime_eq_visitedSites, Site.root]

theorem log_classify :
    (classify src config expired (.root root)).log =
      (visitedSites expired root).flatMap fun s => (visit src config s).log := by
  rw [classify_eq_visitInOrder, log_visitInOrder, ← inTime_eq_visitedSites, Site.root]

end

/-! ## Places -/

namespace Site

mutual

/-- The parent of a site of a subtree is a node of it, unless the site is the first. -/
theorem parent_of_mem_preorder {s : Site} {parent : Option Node} {n : Node}
    (h : s ∈ preorder parent n) : s.parent = parent ∨ ∃ p ∈ n.preorder, s.parent = some p := by
  obtain ⟨head, children⟩ := n
  rw [preorder] at h
  rcases List.mem_cons.1 h with rfl | h
  · exact .inl rfl
  · right
    rcases parent_of_mem_preorderAll h with hparent | ⟨p, hp, hparent⟩
    · exact ⟨.mk head children, Node.self_mem_preorder _, hparent⟩
    · rw [Node.preorder]
      exact ⟨p, List.mem_cons_of_mem _ hp, hparent⟩

theorem parent_of_mem_preorderAll {s : Site} {parent : Option Node} {ns : List Node}
    (h : s ∈ preorderAll parent ns) :
    s.parent = parent ∨ ∃ p ∈ Node.preorderAll ns, s.parent = some p := by
  cases ns with
  | nil => cases h
  | cons n ns =>
    rw [preorderAll] at h
    rw [Node.preorderAll]
    rcases List.mem_append.1 h with h | h
    · rcases parent_of_mem_preorder h with hparent | ⟨p, hp, hparent⟩
      · exact .inl hparent
      · exact .inr ⟨p, List.mem_append_left _ hp, hparent⟩
    · rcases parent_of_mem_preorderAll h with hparent | ⟨p, hp, hparent⟩
      · exact .inl hparent
      · exact .inr ⟨p, List.mem_append_right _ hp, hparent⟩

end

theorem node_mem_preorder {s : Site} {parent : Option Node} {n : Node}
    (h : s ∈ preorder parent n) : s.node ∈ n.preorder := by
  rw [← map_node_preorder parent n]
  exact List.mem_map_of_mem h

/-- A declaration reaches its own subtree and those of the decorators before `export`. -/
theorem mem_reach_iff {site : Site} {m : Node} :
    m ∈ site.reach ↔ m ∈ site.node.preorder ∨
      ∃ parent, site.parent = some parent ∧ parent.kind = "export_statement" ∧
        ∃ decorator ∈ parent.childrenOfKind "decorator", m ∈ decorator.preorder := by
  rw [reach, List.mem_append, mem_preorderAll_iff]
  constructor
  · rintro (hm | ⟨decorator, hmem, hm⟩)
    · exact .inl hm
    · rcases mem_decoratorNodes_iff.1 hmem with ⟨parent, hparent, hkind, hdecorator⟩ | hown
      · exact .inr ⟨parent, hparent, hkind, decorator, hdecorator, hm⟩
      · exact .inl (preorder_subset (mem_preorder_of_mem_childrenOfKind hown) hm)
  · rintro (hm | ⟨parent, hparent, hkind, decorator, hdecorator, hm⟩)
    · exact .inl hm
    · exact .inr ⟨decorator, mem_decoratorNodes_iff.2 (.inl ⟨parent, hparent, hkind, hdecorator⟩),
        hm⟩

/-- What a declaration of a tree reaches is in the tree. -/
theorem reach_subset {s : Site} {root : Node} (h : s ∈ preorder none root) :
    s.reach ⊆ root.preorder := by
  intro m hm
  rcases mem_reach_iff.1 hm with hm | ⟨parent, hparent, -, decorator, hdecorator, hm⟩
  · exact preorder_subset (node_mem_preorder h) hm
  · rcases parent_of_mem_preorder h with hnone | ⟨p, hp, hsome⟩
    · rw [hparent] at hnone
      cases hnone
    · obtain rfl : p = parent := Option.some.inj (hsome.symm.trans hparent)
      exact preorder_subset hp
        (preorder_subset (mem_preorder_of_mem_childrenOfKind hdecorator) hm)

end Site

/-! ## The three parts -/

/-- Nothing is said of a node that declares nothing. -/
theorem log_visit_eq_nil {src : Source} {config : Config} {site : Site}
    (h : site.node.isDeclaration = false) : (visit src config site).log = [] := by
  have hnone : site.node.declared? = none := by
    rw [← Option.not_isSome_iff_eq_none, Node.isSome_declared?, h]
    exact Bool.false_ne_true
  rw [visit_eq_visitAs, hnone]
  rfl

theorem flatMap_filter_eq_flatMap {α β : Type} {f : α → List β} {p : α → Bool}
    (h : ∀ a, p a = false → f a = []) (as : List α) : (as.filter p).flatMap f = as.flatMap f := by
  induction as with
  | nil => rfl
  | cons a as ih =>
    by_cases hp : p a = true
    · rw [List.filter_cons_of_pos hp, List.flatMap_cons, List.flatMap_cons, ih]
    · rw [List.filter_cons_of_neg hp, List.flatMap_cons, ih, h a (by simpa using hp),
        List.nil_append]

/-- That a file has syntax errors, where the first one is. -/
def syntaxReport (src : Source) (root : Node) : List Diagnostic :=
  if root.head.hasError then
    [Diagnostic.ofRule .parseError (src.location root.firstError)
      "source contains syntax errors; records may be incomplete"]
  else []

/-- That a file ran out of time, at its root. -/
def timeoutReport (src : Source) (root : Node) : Option Timeout → List Diagnostic
  | some timeout => [Diagnostic.ofRule .fileTimeout (src.location root) timeout.message]
  | none => []

section

variable (expired : Deadline) (src : Source) (root : Node) (config : Config)

theorem timeout_classifyUnder :
    (classifyUnder expired src root config).timeout =
      ((List.range root.weight).find? expired).map fun visited =>
        { path := src.path, visited } := by
  unfold classifyUnder
  dsimp only
  rw [stoppedAt_classify]
  cases (List.range root.weight).find? expired <;> rfl

theorem records_classifyUnder :
    (classifyUnder expired src root config).records =
      if (classifyUnder expired src root config).timeout.isSome then []
      else (visitedSites expired root).filterMap fun s => (visit src config s).value := by
  rw [timeout_classifyUnder]
  unfold classifyUnder
  dsimp only
  rw [stoppedAt_classify, records_classify]
  cases (List.range root.weight).find? expired <;> rfl

theorem diagnostics_classifyUnder :
    (classifyUnder expired src root config).diagnostics =
      syntaxReport src root ++
      (visitedSites expired root).flatMap (fun s => (visit src config s).log) ++
      timeoutReport src root (classifyUnder expired src root config).timeout := by
  rw [timeout_classifyUnder]
  unfold classifyUnder
  dsimp only
  rw [stoppedAt_classify, log_classify]
  cases (List.range root.weight).find? expired with
  | none => exact (List.append_nil _).symm
  | some visited => rfl

end

/-! ## The whole -/

section

variable {expired : Deadline} {src : Source} {root : Node} {config : Config}

theorem mem_preorder_of_mem_visitedSites {s : Site} (h : s ∈ visitedSites expired root) :
    s ∈ Site.preorder none root :=
  List.mem_of_mem_take h

/-- Every diagnostic of a file has the severity of its rule and stands at a node of the tree. -/
theorem exists_place_of_mem_diagnostics {d : Diagnostic}
    (h : d ∈ (classifyUnder expired src root config).diagnostics) :
    d.severity = d.rule.severity ∧ ∃ m ∈ root.preorder, d.location = src.location m := by
  rw [diagnostics_classifyUnder] at h
  rcases List.mem_append.1 h with h | h
  · rcases List.mem_append.1 h with h | h
    · unfold syntaxReport at h
      split at h
      · obtain rfl := List.mem_singleton.1 h
        exact ⟨rfl, root.firstError, firstError_mem_preorder root, rfl⟩
      · cases h
    · obtain ⟨s, hs, hd⟩ := List.mem_flatMap.1 h
      obtain ⟨message, -, hn⟩ := stays_visit config s d hd
      exact ⟨rfl, _, Site.reach_subset (mem_preorder_of_mem_visitedSites hs) hn, rfl⟩
  · unfold timeoutReport at h
    split at h
    · obtain rfl := List.mem_singleton.1 h
      exact ⟨rfl, root, root.self_mem_preorder, rfl⟩
    · cases h

/-- Whatever is said at a visit is of no rule about the file as a whole. -/
theorem isOfFile_of_mem_log_visit {s : Site} {d : Diagnostic}
    (h : d ∈ (visit src config s).log) : d.rule.isOfFile = false := by
  obtain ⟨message, hrule, -⟩ := stays_visit config s d h
  exact hrule

theorem countP_visits_eq_zero {rule : Rule} (hrule : rule.isOfFile = true) (sites : List Site) :
    (sites.flatMap fun s => (visit src config s).log).countP (fun d => d.rule = rule) = 0 := by
  rw [List.countP_eq_zero]
  intro d hd hsame
  obtain ⟨s, -, hd⟩ := List.mem_flatMap.1 hd
  have hnot := isOfFile_of_mem_log_visit hd
  rw [of_decide_eq_true hsame, hrule] at hnot
  cases hnot

end

/-- **The diagnostics of a file, in order.** First that it has syntax errors, once and at the first
one, if it has any; then what was said at the declarations that were visited, in pre-order; and last
that it ran out of time, once and at the root, if it did, and then it gives no records. A
declaration is never reported by the rules of the first and the last part, and what is said of it
stands in its own subtree or in that of a decorator before its `export`. Every diagnostic has the
severity of its rule, the path of the file, and the place of one node of the tree. A node's place is
its offset and length, and the line and the column that the bytes before it make. -/
theorem file_diagnostics_shape (expired : Deadline) (src : Source) (root : Node) (config : Config) :
    let out := classifyUnder expired src root config
    let declarations := (visitedSites expired root).filter fun s => s.node.isDeclaration
    (∀ n l, StandsAt src n l ↔ l = src.location n) ∧
    out.diagnostics =
      (if root.head.hasError then
        [Diagnostic.ofRule .parseError (src.location root.firstError)
          "source contains syntax errors; records may be incomplete"]
      else []) ++
      declarations.flatMap (fun s => (visit src config s).log) ++
      (match out.timeout with
      | some timeout => [Diagnostic.ofRule .fileTimeout (src.location root) timeout.message]
      | none => []) ∧
    out.diagnostics.countP (fun d => d.rule = .parseError) = (if root.head.hasError then 1 else 0) ∧
    out.diagnostics.countP (fun d => d.rule = .fileTimeout) =
      (if out.timeout.isSome then 1 else 0) ∧
    out.timeout = ((List.range root.weight).find? expired).map
      (fun visited => { path := src.path, visited }) ∧
    (out.timeout.isSome → out.records = []) ∧
    (∀ s ∈ declarations, ∀ d ∈ (visit src config s).log,
      d.rule ≠ .parseError ∧ d.rule ≠ .fileTimeout ∧
      ∃ m, StandsAt src m d.location ∧ (m ∈ s.node.preorder ∨
        ∃ parent, s.parent = some parent ∧ parent.kind = "export_statement" ∧
          ∃ decorator ∈ parent.childrenOfKind "decorator", m ∈ decorator.preorder)) ∧
    ∀ d ∈ out.diagnostics, d.severity = d.rule.severity ∧ d.location.file = src.path ∧
      ∃ m ∈ root.preorder, StandsAt src m d.location := by
  intro out declarations
  have hparts : out.diagnostics = syntaxReport src root ++
      declarations.flatMap (fun s => (visit src config s).log) ++
      timeoutReport src root out.timeout := by
    rw [flatMap_filter_eq_flatMap fun s => log_visit_eq_nil]
    exact diagnostics_classifyUnder expired src root config
  have hcount : ∀ rule : Rule, rule.isOfFile = true →
      out.diagnostics.countP (fun d => d.rule = rule) =
        (syntaxReport src root).countP (fun d => d.rule = rule) +
        (timeoutReport src root out.timeout).countP (fun d => d.rule = rule) := by
    intro rule hrule
    rw [hparts, List.countP_append, List.countP_append, countP_visits_eq_zero hrule, Nat.add_zero]
  refine ⟨fun _ _ => standsAt_iff, hparts, ?_, ?_,
    timeout_classifyUnder expired src root config, fun htimeout => ?_, fun s _ d hd => ?_,
    fun d hd => ?_⟩
  · rw [hcount .parseError rfl, syntaxReport]
    cases out.timeout <;> split <;> rfl
  · rw [hcount .fileTimeout rfl, syntaxReport]
    cases out.timeout <;> split <;> rfl
  · show (classifyUnder expired src root config).records = []
    rw [records_classifyUnder, if_pos htimeout]
  · have hrule := isOfFile_of_mem_log_visit hd
    refine ⟨?_, ?_, ?_⟩
    · intro hparse
      rw [hparse] at hrule
      cases hrule
    · intro htimeout
      rw [htimeout] at hrule
      cases hrule
    · obtain ⟨message, -, hn⟩ := stays_visit config s d hd
      exact ⟨_, standsAt_iff.2 rfl, Site.mem_reach_iff.1 hn⟩
  · obtain ⟨hseverity, m, hm, hlocation⟩ := exists_place_of_mem_diagnostics hd
    have hplace : StandsAt src m d.location := standsAt_iff.2 hlocation
    exact ⟨hseverity, hplace.file, m, hm, hplace⟩

/-- The source `interface I {`, `  [k: string]: any`, `}` on three lines. -/
def threeLines : Source :=
  .ofText "lines.ts" "interface I \x7b\n  [k: string]: any\n\x7d"

/-- The tree of these lines. -/
def threeLinesTree : Node :=
  .named "program" none 0 34 [
    .named "interface_declaration" none 0 34 [
      .token "interface" 0 9, .named "type_identifier" (some "name") 10 11 [],
      .named "interface_body" (some "body") 12 34 [
        .token "\x7b" 12 13, .named "index_signature" none 16 32 [], .token "\x7d" 33 34]]]

/-- What these lines give when the time is up after two nodes. -/
def threeLinesOutput : FileOutput :=
  classifyUnder (fun visited => visited == 2) threeLines threeLinesTree Config.standard

/-- The member that is skipped stands on the second line, and the file ran out of time at its root.
-/
theorem file_diagnostics_shape_threeLines :
    threeLinesOutput.diagnostics.map (fun d => (d.rule, d.location)) =
      [(.skippedMember, ⟨"lines.ts", 2, 3, 16, 16⟩), (.fileTimeout, ⟨"lines.ts", 1, 1, 0, 34⟩)] ∧
    threeLinesOutput.records = [] ∧
    threeLinesOutput.diagnostics.countP (fun d => d.rule = .fileTimeout) = 1 ∧
    ∀ d ∈ threeLinesOutput.diagnostics,
      ∃ m ∈ threeLinesTree.preorder, StandsAt threeLines m d.location := by
  obtain ⟨-, -, -, hcount, -, hrecords, -, hplaces⟩ := file_diagnostics_shape
    (fun visited => visited == 2) threeLines threeLinesTree Config.standard
  have htimeout : threeLinesOutput.timeout.isSome = true := by decide +kernel
  refine ⟨by decide +kernel, hrecords htimeout, ?_, fun d hd => (hplaces d hd).2.2⟩
  exact hcount.trans (if_pos htimeout)

end DeclCatalog
