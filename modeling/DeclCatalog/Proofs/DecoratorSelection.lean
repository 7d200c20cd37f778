import DeclCatalog.Proofs.AliasEffect
import Mathlib.Data.List.Basic

/-!
# The decorator that decides on a class

A class can have any number of decorators, some before an `export` and some after it, with names
that repeat and aliases among them. One of them decides on the category of its record, and the
object that this one is called with is read. Which one it is can be said without the searches that
find it: it is the last of a list, and the role is the first that has one.

- `find?_reverse_eq`, `locate?_eq`, `decoratorOfRole?_eq`: the searches give the last decorator of a
  name, or of a role.
- `lookup_locateAll`, `keys_locateAll`: the names with their last decorators, each name once.
- `decoratorPairs`, `recordWith`, `recordFrom`: the record of a class by the decorator that decides.
- `classLike_eq_recordFrom`: no other decorator is read.
- `decorator_decides`: **the last decorator of the first role decides on a class**.
-/

namespace DeclCatalog

/-! ## The last decorator -/

theorem find?_reverse_eq {α : Type} (p : α → Bool) (as : List α) :
    as.reverse.find? p = (as.filter p).getLast? := by
  rw [← List.head?_filter, List.filter_reverse, List.getLast?_eq_head?_reverse]

/-- A name is looked up among nodes with their names as the nodes are searched for it. -/
theorem lookup_named_eq_find? (name? : Node → Option String) (ds : List Node) (name : String) :
    (ds.filterMap fun d => (name? d).map fun own => (own, d)).lookup name =
      ds.find? fun d => name? d = some name := by
  induction ds with
  | nil => rfl
  | cons d rest ih =>
    cases hname : name? d with
    | none =>
      rw [List.filterMap_cons_none (by rw [hname]; rfl), ih, List.find?_cons_of_neg]
      simp [hname]
    | some own =>
      rw [List.filterMap_cons_some (by rw [hname]; rfl), List.lookup_cons]
      by_cases hsame : own = name
      · subst hsame
        rw [List.find?_cons_of_pos (by simp [hname]), beq_self_eq_true]
      · rw [List.find?_cons_of_neg (by simpa [hname] using hsame), ih,
          beq_eq_false_iff_ne.2 (Ne.symm hsame)]

/-- What a name is looked up as, where every name of a list has the value that is found for it. -/
theorem lookup_found_eq (find? : String → Option Node) (names : List String) (name : String) :
    (names.filterMap fun own => (find? own).map fun d => (own, d)).lookup name =
      if name ∈ names then find? name else none := by
  induction names with
  | nil => rfl
  | cons own rest ih =>
    by_cases hsame : own = name
    · subst hsame
      rw [if_pos List.mem_cons_self]
      cases hfound : find? own with
      | none =>
        rw [List.filterMap_cons_none (by rw [hfound]; rfl), ih, hfound, ite_self]
      | some d =>
        rw [List.filterMap_cons_some (by rw [hfound]; rfl), List.lookup_cons, beq_self_eq_true]
    · have hmem : name ∈ own :: rest ↔ name ∈ rest := by
        rw [List.mem_cons, or_iff_right (Ne.symm hsame)]
      rw [if_congr hmem rfl rfl, ← ih]
      cases hfound : find? own with
      | none => rw [List.filterMap_cons_none (by rw [hfound]; rfl)]
      | some d =>
        rw [List.filterMap_cons_some (by rw [hfound]; rfl), List.lookup_cons,
          beq_eq_false_iff_ne.2 (Ne.symm hsame)]

theorem nodup_eraseDups (names : List String) : names.eraseDups.Nodup := by
  cases names with
  | nil => exact List.nodup_nil
  | cons name rest =>
    rw [List.eraseDups_cons, List.nodup_cons]
    constructor
    · rw [List.mem_eraseDups]
      simp
    · exact nodup_eraseDups _
termination_by names.length
decreasing_by exact Nat.lt_succ_of_le (List.length_filter_le _ _)

section

variable {src : Source} {config : Config} {site : Site}

/-- What is located for a name is the last decorator of the name. -/
theorem locate?_eq (name : String) :
    locate? src site name =
      ((decoratorNodes site).filter fun d => decoratorName? src d = some name).getLast? := by
  rw [locate?, namedDecorators, ← List.filterMap_reverse, lookup_named_eq_find?, find?_reverse_eq]

/-- The names that are located are those of the decorators. -/
theorem keys_locateAll :
    (locateAll src site).map Prod.fst = (decoratorNames src site).eraseDups := by
  rw [locateAll, List.map_filterMap]
  refine (List.filterMap_congr fun name hname => ?_).trans List.filterMap_some
  cases hfound : locate? src site name with
  | none => exact absurd (List.mem_eraseDups.1 hname) (locate?_eq_none_iff.1 hfound)
  | some d => rfl

/-- Among the names with their decorators, a name has the decorator that is located for it. -/
theorem lookup_locateAll (name : String) :
    (locateAll src site).lookup name = locate? src site name := by
  rw [locateAll, lookup_found_eq]
  by_cases hname : name ∈ (decoratorNames src site).eraseDups
  · rw [if_pos hname]
  · rw [if_neg hname, locate?_eq_none_iff.2 (mt List.mem_eraseDups.2 hname)]

/-- The decorator of a role is the last one with the framework's name, or else the last one with an
alias. -/
theorem decoratorOfRole?_eq {aliases : Aliases} (role : Role) :
    decoratorOfRole? src aliases site role =
      ((decoratorNodes site).filter fun d =>
        decoratorName? src d = some role.decorator).getLast?.or
      ((decoratorNodes site).filter fun d =>
        (decoratorName? src d).bind aliases.get? = some role).getLast? := by
  rw [decoratorOfRole?, ← locate?_eq, find?_reverse_eq]
  simp only [beq_eq_decide]
  cases locate? src site role.decorator with
  | none => rfl
  | some d => rfl

/-! ## The record by the decorator that decides -/

/-- The pairs of the object that a decorator is called with; none if it is called with another
value, or not called. -/
def decoratorPairs (src : Source) (d : Node) : Logged (List (String × Node)) :=
  match configObject? d with
  | some object => objectPairs src object
  | none => pure []

/-- The record of a class with a role, by its class part and the pairs of its decorator. -/
def recordWith (src : Source) (limit : Nat) (n : Node) (base : ClassRecord)
    (pairs : List (String × Node)) : Role → Logged Record
  | .component => (fun info => .component { base, info }) <$> componentInfo src limit pairs n
  | .directive => (fun info => .directive { base, info }) <$> directiveInfo src limit pairs n
  | .injectable => (fun info => .injectable { base, info }) <$> injectableInfo src limit pairs
  | .module => (fun info => .module { base, info }) <$> moduleInfo src limit pairs
  | .pipe => (fun info => .pipe { base, info }) <$> pipeInfo src pairs

/-- The record of a class, by the role and the decorator that decide. -/
def recordFrom (src : Source) (limit : Nat) (site : Site) :
    Option (Role × Node) → Logged Record
  | none => .class <$> collectClass src limit site
  | some (role, d) => do
    let base ← collectClass src limit site
    let pairs ← decoratorPairs src d
    recordWith src limit site.node base pairs role

theorem configPairs_eq {aliases : Aliases} {role : Role} {d : Node}
    (h : decoratorOfRole? src aliases site role = some d) :
    configPairs src aliases site role = decoratorPairs src d := by
  rw [configPairs, h]
  rfl

/-- What is searched for again when the record is read is the decorator that decides. -/
theorem classLike_eq_recordFrom :
    classLike src config site =
      recordFrom src config.limits.maxDepth site (frameworkDecorator? src config.aliases site) := by
  unfold classLike
  cases hfound : frameworkDecorator? src config.aliases site with
  | none => rfl
  | some found =>
    obtain ⟨role, d⟩ := found
    have hd := (frameworkDecorator?_eq_some_iff.1 hfound).1
    show collectDecorated src config site role = _
    unfold collectDecorated recordFrom
    rw [configPairs_eq hd]
    cases role <;> rfl

/-- The category of a record is that of the role, and without one that of plain classes. -/
theorem category_recordFrom {limit : Nat} (found : Option (Role × Node)) :
    (recordFrom src limit site found).value.category =
      (found.map fun p => p.1.category).getD .classes := by
  cases found with
  | none => rfl
  | some found =>
    obtain ⟨role, d⟩ := found
    cases role <;> rfl

/-- A file whose time is never up has what the visits of its sites give. -/
theorem mem_records_of_visit {expired : Deadline} {root : Node}
    (h : ∀ k < root.weight, expired k = false) (hsite : site ∈ Site.preorder none root) {r : Record}
    (hr : (visit src config site).value = some r) :
    r ∈ (classifyUnder expired src root config).records := by
  rw [classifyUnder_eq_of_inTime h]
  exact List.mem_filterMap.2 ⟨visit src config site, List.mem_map_of_mem hsite, hr⟩

end

theorem decoratorNodes_eq (site : Site) :
    decoratorNodes site =
      ((site.parent.filter fun parent => parent.kind == "export_statement").map
        fun parent => parent.childrenOfKind "decorator").getD [] ++
      site.node.childrenOfKind "decorator" := by
  unfold decoratorNodes
  cases site.parent with
  | none => rfl
  | some parent =>
    by_cases hexport : parent.kind = "export_statement"
    · simp [Option.filter, hexport]
    · simp [Option.filter, hexport]

/-- **The last decorator of the first role decides on a class.** The decorators are those of an
export statement around the class, and then its own. Each name is located once, as the last
decorator that has it. The decorator of a role is the last one with the framework's name, or else
the last one with an alias of the role. The one that decides is that of the first role which has
one, by priority. The record has the category of this role, and what it says beyond the class is
read from the object that this decorator is called with. A class without a role is a plain one. -/
theorem decorator_decides (src : Source) (config : Config) (site : Site)
    (hclass : site.node.isClass = true) :
    let ds := ((site.parent.filter fun parent => parent.kind == "export_statement").map
        fun parent => parent.childrenOfKind "decorator").getD [] ++
      site.node.childrenOfKind "decorator"
    let lastNamed := fun name =>
      (ds.filter fun d => decoratorName? src d = some name).getLast?
    let lastAliased := fun role =>
      (ds.filter fun d => (decoratorName? src d).bind config.aliases.get? = some role).getLast?
    let lastOf := fun role : Role => (lastNamed role.decorator).or (lastAliased role)
    let deciding := frameworkDecorator? src config.aliases site
    (∀ name, (locateAll src site).lookup name = lastNamed name) ∧
    ((locateAll src site).map Prod.fst).Nodup ∧
    (∀ name, name ∈ (locateAll src site).map Prod.fst ↔ name ∈ decoratorNames src site) ∧
    (∀ role, decoratorOfRole? src config.aliases site role = lastOf role) ∧
    (∀ role d, deciding = some (role, d) ↔
      lastOf role = some d ∧ ∀ other : Role, other.rank < role.rank → lastOf other = none) ∧
    (deciding = none ↔ ∀ role, lastOf role = none) ∧
    visit src config site = some <$> recordFrom src config.limits.maxDepth site deciding ∧
    ∃ r, (visit src config site).value = some r ∧
      r.category = (deciding.map fun p => p.1.category).getD .classes ∧
      ∀ (expired : Deadline) (root : Node), (∀ k < root.weight, expired k = false) →
        site ∈ Site.preorder none root → r ∈ (classifyUnder expired src root config).records := by
  intro ds lastNamed lastAliased lastOf deciding
  have hds : decoratorNodes site = ds := decoratorNodes_eq site
  have hrole : ∀ role, decoratorOfRole? src config.aliases site role = lastOf role := by
    intro role
    rw [decoratorOfRole?_eq, hds]
  have hvisit : visit src config site =
      some <$> recordFrom src config.limits.maxDepth site deciding := by
    rw [visit_of_isClass hclass, classLike_eq_recordFrom]
  refine ⟨?_, ?_, ?_, hrole, ?_, ?_, hvisit, ?_⟩
  · intro name
    rw [lookup_locateAll, locate?_eq, hds]
  · rw [keys_locateAll]
    exact nodup_eraseDups _
  · intro name
    rw [keys_locateAll, List.mem_eraseDups]
  · intro role d
    simp only [← hrole]
    exact frameworkDecorator?_eq_some_iff
  · simp only [← hrole]
    exact frameworkDecorator?_eq_none_iff
  · have hvalue : (visit src config site).value =
        some (recordFrom src config.limits.maxDepth site deciding).value := by
      rw [hvisit, Logged.value_map]
    refine ⟨_, hvalue, category_recordFrom deciding, ?_⟩
    intro expired root htime hsite
    exact mem_records_of_visit htime hsite hvalue

/-- The source `@Pipe({ name: 'a' }) export @Pipe({ name: 'b' }) class P {}`. -/
def twiceSource : Source :=
  Source.ofText "twice.ts"
    "@Pipe(\x7b name: 'a' \x7d) export @Pipe(\x7b name: 'b' \x7d) class P \x7b\x7d"

/-- The decorator `@Pipe({ name: '…' })` at an offset. -/
def pipeDecorator (i : Nat) : Node :=
  .named "decorator" none i (i + 20) [
    .token "@" i (i + 1),
    .named "call_expression" none (i + 1) (i + 20) [
      .named "identifier" (some "function") (i + 1) (i + 5) [],
      .named "arguments" (some "arguments") (i + 5) (i + 20) [
        .token "(" (i + 5) (i + 6),
        .named "object" none (i + 6) (i + 19) [
          .token "\x7b" (i + 6) (i + 7),
          .named "pair" none (i + 8) (i + 17) [
            .named "property_identifier" (some "key") (i + 8) (i + 12) [],
            .token ":" (i + 12) (i + 13),
            .named "string" (some "value") (i + 14) (i + 17) [
              .token "\x27" (i + 14) (i + 15), .named "string_fragment" none (i + 15) (i + 16) [],
              .token "\x27" (i + 16) (i + 17)]],
          .token "\x7d" (i + 18) (i + 19)],
        .token ")" (i + 19) (i + 20)]]]

/-- The class of `@Pipe({ name: 'a' }) export @Pipe({ name: 'b' }) class P {}`. -/
def twiceClass : Node :=
  .named "class_declaration" (some "declaration") 28 59 [
    pipeDecorator 28, .token "class" 49 54, .named "type_identifier" (some "name") 55 56 [],
    .named "class_body" (some "body") 57 59 [.token "\x7b" 57 58, .token "\x7d" 58 59]]

/-- The class below its export statement. -/
def twiceSite : Site where
  parent := some (.named "export_statement" none 0 59 [
    pipeDecorator 0, .token "export" 21 27, twiceClass])
  node := twiceClass

/-- Of two decorators of one name, the later one decides, and its object is read. -/
theorem decorator_decides_later :
    frameworkDecorator? twiceSource Config.standard.aliases twiceSite =
      some (.pipe, pipeDecorator 28) ∧
    (visit twiceSource Config.standard twiceSite).value =
      some (.pipe {
        base := (collectClass twiceSource 256 twiceSite).value
        info := { name := some "b", pure := none, standalone := none } }) := by
  obtain ⟨-, -, -, -, hdecides, -, hvisit, -⟩ :=
    decorator_decides twiceSource Config.standard twiceSite (by decide)
  have hfound : frameworkDecorator? twiceSource Config.standard.aliases twiceSite =
      some (.pipe, pipeDecorator 28) := by
    refine (hdecides .pipe (pipeDecorator 28)).2 ⟨by rfl, fun other hlt => ?_⟩
    cases other with
    | component => rfl
    | directive => rfl
    | _ => exact absurd hlt (by decide)
  refine ⟨hfound, ?_⟩
  rw [hvisit, hfound]
  rfl

end DeclCatalog
