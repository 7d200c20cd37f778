import DeclCatalog.Proofs.FileDiagnostics

/-!
# What aliases decide

Two configurations with the same depth limit can differ in the roles that they give to decorator
names. The runs over a file are compared here, site by site. A configuration reaches a visit in two
ways only: by the depth limit, and, at a class, by the roles of the names of its decorators. These
decide which category the class falls into and what is read from its decorator. The part that every
class has is read before that, and in the same way.

- `classifyUnder_eq_of_inTime`, `map_some_records`: what a file gives whose time is never up.
- `Node.isClass`, `visit_of_isClass`, `visit_congr`: only at a class does a visit depend on aliases.
- `base?_classLike`: the class part of the record of a class.
- `classLike_congr`: at a class, the aliases of the names of its decorators are all that counts.
- `aliases_decide_only_roles`: **aliases change nothing but the category of a class and what is read
  from its decorator**.
-/

namespace DeclCatalog

/-! ## A file whose time is never up -/

section

variable {expired : Deadline} {root : Node} (h : ∀ k < root.weight, expired k = false)

include h

theorem find?_expired_eq_none : (List.range root.weight).find? expired = none := by
  rw [List.find?_range_eq_none]
  intro k hk
  rw [h k hk]
  rfl

/-- Every site is visited. -/
theorem visitedSites_eq_preorder : visitedSites expired root = Site.preorder none root := by
  rw [visitedSites, find?_expired_eq_none h, Option.getD_none, ← Site.length_preorder none root,
    List.take_length]

/-- The file gives what the visits of all its sites give. -/
theorem classifyUnder_eq_of_inTime (src : Source) (config : Config) :
    classifyUnder expired src root config =
      let visits := (Site.preorder none root).map (visit src config)
      { path := src.path
        records := visits.filterMap Logged.value
        diagnostics := syntaxReport src root ++ visits.flatMap Logged.log
        timeout := none } := by
  unfold classifyUnder
  dsimp only
  rw [stoppedAt_classify, find?_expired_eq_none h, records_classify, log_classify,
    visitedSites_eq_preorder h, List.filterMap_map, List.flatMap_map]
  rfl

/-- The records are those of the declarations, one for each and in their order. -/
theorem map_some_records (src : Source) (config : Config) :
    (classifyUnder expired src root config).records.map some =
      ((Site.preorder none root).filter fun s => s.node.isDeclaration).map fun s =>
        (visit src config s).value := by
  rw [classifyUnder_eq_of_inTime h]
  dsimp only
  rw [List.map_filterMap_some_eq_filter_map_isSome, List.map_map, List.filter_map]
  refine congrArg (List.map _) (List.filter_congr fun s _ => ?_)
  exact isSome_visit src config s

/-- The record at a place is that of the declaration there. -/
theorem exists_record_of_declaration {src : Source} {config : Config} {i : Nat} {s : Site}
    (hs : ((Site.preorder none root).filter fun s => s.node.isDeclaration)[i]? = some s) :
    ∃ r, (classifyUnder expired src root config).records[i]? = some r ∧
      (visit src config s).value = some r := by
  have hi := congrArg (·[i]?) (map_some_records h src config)
  simp only [List.getElem?_map, hs, Option.map_some] at hi
  obtain ⟨r, hr, hvisit⟩ := Option.map_eq_some_iff.1 hi
  exact ⟨r, hr, hvisit.symm⟩

end

/-! ## Sites that are no classes -/

/-- Whether a node is a class. -/
def Node.isClass (n : Node) : Bool :=
  n.declared? = some .classLike

section

variable {src : Source} {config config' : Config} {site : Site}

/-- The visit of a class gives its record. -/
theorem visit_of_isClass (h : site.node.isClass = true) :
    visit src config site = some <$> classLike src config site := by
  rw [visit_eq_visitAs, of_decide_eq_true h]
  rfl

/-- Under one depth limit, only the visit of a class can tell two configurations apart. -/
theorem visit_congr (hdepth : config.limits.maxDepth = config'.limits.maxDepth)
    (h : site.node.isClass = true → classLike src config site = classLike src config' site) :
    visit src config site = visit src config' site := by
  rw [visit_eq_visitAs, visit_eq_visitAs]
  cases hdeclared : site.node.declared? with
  | none => rfl
  | some declared =>
    cases declared with
    | file => rfl
    | classLike => rw [visitAs, visitAs, h (decide_eq_true hdeclared)]
    | interface => rw [visitAs, visitAs, hdepth]
    | enum => rw [visitAs, visitAs, hdepth]
    | typeAlias => rw [visitAs, visitAs, hdepth]

/-! ## Classes -/

/-- The class part of the record of a class, whatever its role. -/
theorem base?_classLike :
    (classLike src config site).value.base? =
      some (collectClass src config.limits.maxDepth site).value := by
  unfold classLike
  cases frameworkDecorator? src config.aliases site with
  | none => rfl
  | some found =>
    -- every role reads the class part first, and hands it on unchanged
    obtain ⟨role, decorator⟩ := found
    cases role <;> rfl

theorem base?_visit (h : site.node.isClass = true) {r : Record}
    (hr : (visit src config site).value = some r) :
    r.base? = some (collectClass src config.limits.maxDepth site).value := by
  rw [visit_of_isClass h] at hr
  obtain rfl := Option.some.inj hr
  exact base?_classLike

/-- The decorator of a role depends on the aliases of the names of the decorators. -/
theorem decoratorOfRole?_congr {aliases aliases' : Aliases}
    (h : ∀ name ∈ decoratorNames src site, aliases.get? name = aliases'.get? name) (role : Role) :
    decoratorOfRole? src aliases site role = decoratorOfRole? src aliases' site role := by
  unfold decoratorOfRole?
  split
  · rfl
  · rw [← List.head?_filter, ← List.head?_filter]
    refine congrArg List.head? (List.filter_congr fun d hd => ?_)
    cases hname : decoratorName? src d with
    | none => rfl
    | some name =>
      rw [Option.bind_some, Option.bind_some,
        h name (mem_decoratorNames_iff.2 ⟨d, List.mem_reverse.1 hd, hname⟩)]

/-- The record of a class, and what is said on the way to it, depend on the aliases of the names of
its decorators. -/
theorem classLike_congr (hdepth : config.limits.maxDepth = config'.limits.maxDepth)
    (h : ∀ name ∈ decoratorNames src site, config.aliases.get? name = config'.aliases.get? name) :
    classLike src config site = classLike src config' site := by
  have hrole := decoratorOfRole?_congr h
  have hframework : frameworkDecorator? src config.aliases site =
      frameworkDecorator? src config'.aliases site := by
    unfold frameworkDecorator?
    simp only [hrole]
  have hdecorated : ∀ role,
      collectDecorated src config site role = collectDecorated src config' site role := by
    intro role
    unfold collectDecorated configPairs
    rw [hdepth, hrole]
  unfold classLike
  rw [hframework, hdepth]
  split
  · exact hdecorated _
  · rfl

end

/-! ## Two runs -/

/-- **Aliases change nothing but the category of a class and what is read from its decorator.** Two
runs over a file under the same depth limit, in neither of which the time is up, give a record for
each declaration, in pre-order. At a class the two records have the same class part, and at any
other declaration they are equal. If no decorator name of a class of the file has an alias in one
configuration that it does not have in the other, then all that the runs give is the same. -/
theorem aliases_decide_only_roles (src : Source) (root : Node) (config config' : Config)
    (expired expired' : Deadline) (hdepth : config.limits.maxDepth = config'.limits.maxDepth)
    (htime : ∀ k < root.weight, expired k = false)
    (htime' : ∀ k < root.weight, expired' k = false) :
    let out := classifyUnder expired src root config
    let out' := classifyUnder expired' src root config'
    let declarations := (Site.preorder none root).filter fun s => s.node.isDeclaration
    out.records.length = declarations.length ∧ out'.records.length = declarations.length ∧
    (∀ (i : Nat) (s : Site), declarations[i]? = some s →
      ∃ r r', out.records[i]? = some r ∧ out'.records[i]? = some r' ∧
        if s.node.isClass then
          r.base? = some (collectClass src config.limits.maxDepth s).value ∧ r'.base? = r.base?
        else r' = r) ∧
    ((∀ s ∈ Site.preorder none root, s.node.isClass → ∀ name ∈ decoratorNames src s,
        config.aliases.get? name = config'.aliases.get? name) → out' = out) := by
  intro out out' declarations
  refine ⟨?_, ?_, fun i s hs => ?_, fun hagree => ?_⟩
  · simpa using congrArg List.length (map_some_records htime src config)
  · simpa using congrArg List.length (map_some_records htime' src config')
  · obtain ⟨r, hr, hvisit⟩ := exists_record_of_declaration htime hs
    obtain ⟨r', hr', hvisit'⟩ := exists_record_of_declaration htime' hs
    refine ⟨r, r', hr, hr', ?_⟩
    by_cases hclass : s.node.isClass = true
    · rw [if_pos hclass]
      refine ⟨base?_visit hclass hvisit, ?_⟩
      rw [base?_visit hclass hvisit, base?_visit hclass hvisit', hdepth]
    · rw [if_neg hclass]
      rw [visit_congr hdepth fun hyes => absurd hyes hclass, hvisit'] at hvisit
      exact Option.some.inj hvisit
  · -- the deadlines may differ, but neither shows in what a file gives that is in time
    have hvisits : (Site.preorder none root).map (visit src config') =
        (Site.preorder none root).map (visit src config) := by
      refine List.map_congr_left fun s hs => (visit_congr hdepth fun hclass => ?_).symm
      exact classLike_congr hdepth (hagree s hs hclass)
    show classifyUnder expired' src root config' = classifyUnder expired src root config
    rw [classifyUnder_eq_of_inTime htime, classifyUnder_eq_of_inTime htime', hvisits]

/-- The file `@Svc() export @Pipe() class A {}`. -/
def pipeFile : Node :=
  .named "program" none 0 32 [pipeExport]

/-- A configuration in which `Svc` stands for a component, so that the class of the file is one. -/
def componentConfig : Config where
  limits := Limits.standard
  aliases := [("Svc", .component)]

/-- Without the alias the class is a pipe: the two records of the class have the same class part,
and those of the file are equal. An alias that no decorator of the file has changes nothing. -/
theorem aliases_decide_only_roles_pipe :
    let site : Site := { parent := some pipeExport, node := pipeClass }
    let out := classifyUnder Deadline.never pipeSource pipeFile componentConfig
    let out' := classifyUnder (fun k => decide (99 < k)) pipeSource pipeFile Config.standard
    let other := { Config.standard with aliases := [("Other", .module)] }
    (frameworkDecorator? pipeSource componentConfig.aliases site).map Prod.fst = some .component ∧
    (frameworkDecorator? pipeSource Config.standard.aliases site).map Prod.fst = some .pipe ∧
    (∃ r, out.records[0]? = some r ∧ out'.records[0]? = some r) ∧
    (∃ r r', out.records[1]? = some r ∧ out'.records[1]? = some r' ∧
      r.base? = some (collectClass pipeSource 256 site).value ∧ r'.base? = r.base?) ∧
    classifyUnder Deadline.never pipeSource pipeFile other =
      classifyUnder Deadline.never pipeSource pipeFile Config.standard := by
  intro site out out' other
  have hlate : ∀ k < pipeFile.weight, (fun k => decide (99 < k)) k = false := by decide
  obtain ⟨-, -, hplaces, -⟩ := aliases_decide_only_roles pipeSource pipeFile componentConfig
    Config.standard Deadline.never (fun k => decide (99 < k)) rfl (fun _ _ => rfl) hlate
  obtain ⟨-, -, -, hsame⟩ := aliases_decide_only_roles pipeSource pipeFile Config.standard other
    Deadline.never Deadline.never rfl (fun _ _ => rfl) (fun _ _ => rfl)
  refine ⟨by rfl, by rfl, ?_, ?_, ?_⟩
  · obtain ⟨r, r', hr, hr', hrest⟩ := hplaces 0 { parent := none, node := pipeFile } (by rfl)
    obtain rfl : r' = r := hrest
    exact ⟨r', hr, hr'⟩
  · exact hplaces 1 site (by rfl)
  · exact hsame (by decide)

end DeclCatalog
