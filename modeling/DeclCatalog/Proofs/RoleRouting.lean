import DeclCatalog.Collect.Decorators
import DeclCatalog.Proofs.Subtree

/-!
# The role of a class and the roles of its decorators

A configuration gives a decorator name a role: its own if it is one of the framework's names, or
else the one that it is an alias of. The role of a class is found in another way. The roles are
tried by priority, and for each the decorators of the class are searched, first for the framework's
name and then for an alias. The two agree, unless a framework name is made an alias of a role that
is tried before its own.

- `mem_decoratorNodes_iff`, `locate?_eq_none_iff`, `mem_of_locate?`: where decorators stand, and the
  search for a name.
- `Aliases.Gives`, `decoratorOfRole?_eq_none_iff`, `gives_of_decoratorOfRole?`: a name gives a role
  in either of the two ways, and a role has a decorator exactly when some name gives it.
- `Role.rank`, `frameworkDecorator?_eq_some_iff`: the role of a class is the first that has a
  decorator.
- `Aliases.KeepRanks`: no framework name is an alias of a role that is tried before its own.
- `class_role_agrees`: **the role of a class is the first of the roles of its decorators**.
- `class_role_may_disagree`: without that condition it need not be.
-/

namespace DeclCatalog

variable {src : Source} {aliases : Aliases} {site : Site}

/-! ## Searching the decorators of a declaration -/

/-- The decorators of a declaration hang below an export statement around it, or below itself. -/
theorem mem_decoratorNodes_iff {d : Node} :
    d ∈ decoratorNodes site ↔
      (∃ parent, site.parent = some parent ∧ parent.kind = "export_statement" ∧
        d ∈ parent.childrenOfKind "decorator") ∨
      d ∈ site.node.childrenOfKind "decorator" := by
  unfold decoratorNodes
  cases hparent : site.parent with
  | none => simp
  | some parent =>
    by_cases hexport : parent.kind = "export_statement" <;> simp [hexport]

theorem mem_decoratorNames_iff {name : String} :
    name ∈ decoratorNames src site ↔ ∃ d ∈ decoratorNodes site, decoratorName? src d = some name :=
  List.mem_filterMap

theorem mem_namedDecorators_iff {name : String} {d : Node} :
    (name, d) ∈ namedDecorators src site ↔
      d ∈ decoratorNodes site ∧ decoratorName? src d = some name := by
  simp only [namedDecorators, List.mem_filterMap, Option.map_eq_some_iff, Prod.mk.injEq]
  constructor
  · rintro ⟨d, hd, name, hname, rfl, rfl⟩
    exact ⟨hd, hname⟩
  · rintro ⟨hd, hname⟩
    exact ⟨d, hd, name, hname, rfl, rfl⟩

/-- What is found for a name, from the end of a list, is an entry of the list. -/
theorem mem_of_lookup_reverse {entries : List (String × Node)} {name : String} {n : Node}
    (h : entries.reverse.lookup name = some n) : (name, n) ∈ entries := by
  obtain ⟨before, after, hsplit, -⟩ := List.lookup_eq_some_iff.1 h
  rw [← List.mem_reverse, hsplit]
  exact List.mem_append_right before List.mem_cons_self

/-- What is located is a decorator of the name. -/
theorem mem_of_locate? {name : String} {d : Node} (h : locate? src site name = some d) :
    d ∈ decoratorNodes site ∧ decoratorName? src d = some name :=
  mem_namedDecorators_iff.1 (mem_of_lookup_reverse h)

/-- Every name of a decorator is located. -/
theorem locate?_eq_none_iff {name : String} :
    locate? src site name = none ↔ name ∉ decoratorNames src site := by
  rw [locate?, List.lookup_eq_none_iff, mem_decoratorNames_iff]
  constructor
  · rintro h ⟨d, hd⟩
    have hne := h (name, d) (List.mem_reverse.2 (mem_namedDecorators_iff.2 hd))
    simp at hne
  · rintro h ⟨other, d⟩ hmem
    obtain ⟨hd, hother⟩ := mem_namedDecorators_iff.1 (List.mem_reverse.1 hmem)
    rw [bne_iff_ne]
    rintro rfl
    exact h ⟨d, hd, hother⟩

/-! ## The decorator of a role -/

/-- Whether a name gives a role to the search for that role: as the framework's name or an alias. -/
def Aliases.Gives (aliases : Aliases) (name : String) (role : Role) : Prop :=
  name = role.decorator ∨ aliases.get? name = some role

/-- The decorator of a role has a name that gives the role. -/
theorem gives_of_decoratorOfRole? {role : Role} {d : Node}
    (h : decoratorOfRole? src aliases site role = some d) :
    d ∈ decoratorNodes site ∧
      ∃ name, decoratorName? src d = some name ∧ aliases.Gives name role := by
  unfold decoratorOfRole? at h
  cases hfound : locate? src site role.decorator with
  | some found =>
    rw [hfound] at h
    obtain rfl := Option.some.inj h
    obtain ⟨hd, hname⟩ := mem_of_locate? hfound
    exact ⟨hd, role.decorator, hname, .inl rfl⟩
  | none =>
    rw [hfound] at h
    have hrole := List.find?_some h
    rw [beq_iff_eq] at hrole
    obtain ⟨name, hname, halias⟩ := Option.bind_eq_some_iff.1 hrole
    exact ⟨List.mem_reverse.1 (List.mem_of_find?_eq_some h), name, hname, .inr halias⟩

/-- A role has a decorator exactly when the name of some decorator gives it. -/
theorem decoratorOfRole?_eq_none_iff {role : Role} :
    decoratorOfRole? src aliases site role = none ↔
      ∀ name ∈ decoratorNames src site, ¬ aliases.Gives name role := by
  constructor
  · intro h name hname hgives
    unfold decoratorOfRole? at h
    cases hlocate : locate? src site role.decorator with
    | some found =>
      rw [hlocate] at h
      cases h
    | none =>
      rw [hlocate] at h
      rcases hgives with rfl | halias
      · exact locate?_eq_none_iff.1 hlocate hname
      · obtain ⟨d, hd, hdname⟩ := mem_decoratorNames_iff.1 hname
        refine List.find?_eq_none.1 h d (List.mem_reverse.2 hd) ?_
        rw [hdname, Option.bind_some, halias, beq_self_eq_true]
  · intro h
    cases hfound : decoratorOfRole? src aliases site role with
    | none => rfl
    | some d =>
      obtain ⟨hd, name, hname, hgives⟩ := gives_of_decoratorOfRole? hfound
      exact absurd hgives (h name (mem_decoratorNames_iff.2 ⟨d, hd, hname⟩))

/-! ## The role of a class -/

/-- The place of a role among the roles by priority. -/
def Role.rank (role : Role) : Nat :=
  byPriority.idxOf role

theorem Role.mem_byPriority (role : Role) : role ∈ byPriority := by
  cases role <;> decide

theorem Role.eq_of_rank_eq {role other : Role} (h : role.rank = other.rank) : role = other := by
  revert h
  cases role <;> cases other <;> decide

/-- The first item of a list for which something is found, together with what is found. -/
theorem findSome?_pair_eq_some_iff {α β : Type} [DecidableEq α] {f : α → Option β} {as : List α}
    {a : α} {b : β} (ha : a ∈ as) :
    as.findSome? (fun x => (f x).map fun y => (x, y)) = some (a, b) ↔
      f a = some b ∧ ∀ x, as.idxOf x < as.idxOf a → f x = none := by
  induction as with
  | nil => cases ha
  | cons first rest ih =>
    have hlater : ∀ x, first ≠ x → (first :: rest).idxOf x = rest.idxOf x + 1 := by
      intro x hx
      rw [List.idxOf_cons, beq_eq_false_iff_ne.2 hx, cond_false]
    rw [List.findSome?_cons]
    cases hfirst : f first with
    | some y =>
      -- the search ends here, at the item of the least index
      simp only [Option.map_some, Option.some.injEq, Prod.mk.injEq]
      constructor
      · rintro ⟨rfl, rfl⟩
        refine ⟨hfirst, fun x hx => ?_⟩
        rw [List.idxOf_cons_self] at hx
        exact absurd hx (Nat.not_lt_zero _)
      · rintro ⟨hb, hbefore⟩
        by_cases hsame : first = a
        · subst hsame
          rw [hfirst] at hb
          exact ⟨rfl, Option.some.inj hb⟩
        · have hless : (first :: rest).idxOf first < (first :: rest).idxOf a := by
            rw [List.idxOf_cons_self, hlater a hsame]
            exact Nat.succ_pos _
          rw [hbefore first hless] at hfirst
          cases hfirst
    | none =>
      rw [Option.map_none]
      by_cases hsame : first = a
      · subst hsame
        constructor
        · intro hfound
          obtain ⟨x, -, hx⟩ := List.exists_of_findSome?_eq_some hfound
          obtain ⟨y, hy, hpair⟩ := Option.map_eq_some_iff.1 hx
          obtain ⟨rfl, rfl⟩ := Prod.mk.inj hpair
          rw [hfirst] at hy
          cases hy
        · rintro ⟨hb, -⟩
          rw [hfirst] at hb
          cases hb
      · rw [ih ((List.mem_cons.1 ha).resolve_left (Ne.symm hsame))]
        refine and_congr_right fun _ => forall_congr' fun x => ?_
        by_cases hx : first = x
        · subst hx
          simp [hfirst]
        · rw [hlater x hx, hlater a hsame, Nat.succ_lt_succ_iff]

/-- The role of a class is the first that has a decorator. -/
theorem frameworkDecorator?_eq_some_iff {role : Role} {d : Node} :
    frameworkDecorator? src aliases site = some (role, d) ↔
      decoratorOfRole? src aliases site role = some d ∧
      ∀ other : Role, other.rank < role.rank → decoratorOfRole? src aliases site other = none :=
  findSome?_pair_eq_some_iff role.mem_byPriority

/-- A class has no role exactly when no role has a decorator. -/
theorem frameworkDecorator?_eq_none_iff :
    frameworkDecorator? src aliases site = none ↔
      ∀ role : Role, decoratorOfRole? src aliases site role = none := by
  rw [frameworkDecorator?, List.findSome?_eq_none_iff]
  simp only [Option.map_eq_none_iff]
  exact ⟨fun h role => h role role.mem_byPriority, fun h role _ => h role⟩

/-! ## The roles of names -/

theorem Role.ofDecorator?_eq_some_iff {name : String} {role : Role} :
    ofDecorator? name = some role ↔ name = role.decorator := by
  constructor
  · intro h
    have hname := List.find?_some h
    exact (beq_iff_eq.1 hname).symm
  · rintro rfl
    cases role <;> decide

/-- A name has a role as one of the framework's names, or else as an alias. -/
theorem Config.roleOf?_eq_some_iff {config : Config} {name : String} {role : Role} :
    config.roleOf? name = some role ↔
      name = role.decorator ∨
      Role.ofDecorator? name = none ∧ config.aliases.get? name = some role := by
  unfold Config.roleOf?
  rw [← Role.ofDecorator?_eq_some_iff]
  cases Role.ofDecorator? name <;> simp

/-- The role of a name is among those that it gives. -/
theorem Config.gives_of_roleOf? {config : Config} {name : String} {role : Role}
    (h : config.roleOf? name = some role) : config.aliases.Gives name role :=
  (Config.roleOf?_eq_some_iff.1 h).imp id And.right

/-- A name that gives a role which is not its own is a framework name, aliased to that role. -/
theorem Config.roleOf?_or_alias_of_gives {config : Config} {name : String} {role : Role}
    (h : config.aliases.Gives name role) :
    config.roleOf? name = some role ∨
      ∃ own : Role, name = own.decorator ∧ config.aliases.get? own.decorator = some role := by
  rcases h with rfl | halias
  · exact .inl (Config.roleOf?_eq_some_iff.2 (.inl rfl))
  · cases hown : Role.ofDecorator? name with
    | none => exact .inl (Config.roleOf?_eq_some_iff.2 (.inr ⟨hown, halias⟩))
    | some own =>
      obtain rfl := Role.ofDecorator?_eq_some_iff.1 hown
      exact .inr ⟨own, rfl, halias⟩

/-! ## Agreement -/

/-- No framework name among given names is an alias of a role that is tried before its own. -/
def Aliases.KeepRanks (aliases : Aliases) (names : List String) : Prop :=
  ∀ own : Role, own.decorator ∈ names →
    ∀ role, aliases.get? own.decorator = some role → own.rank ≤ role.rank

section

variable {config : Config}

/-- Where ranks are kept, a name that gives a role has it, or has one that is tried before. -/
theorem Aliases.KeepRanks.exists_roleOf? {names : List String}
    (h : config.aliases.KeepRanks names) {name : String} (hname : name ∈ names) {role : Role}
    (hgives : config.aliases.Gives name role) :
    config.roleOf? name = some role ∨
      ∃ own : Role, config.roleOf? name = some own ∧ own.rank < role.rank := by
  rcases Config.roleOf?_or_alias_of_gives hgives with hrole | ⟨own, rfl, halias⟩
  · exact .inl hrole
  · have hown : config.roleOf? own.decorator = some own :=
      Config.roleOf?_eq_some_iff.2 (.inl rfl)
    rcases Nat.lt_or_eq_of_le (h own hname role halias) with hlt | heq
    · exact .inr ⟨own, hown, hlt⟩
    · obtain rfl := Role.eq_of_rank_eq heq
      exact .inl hown

/-- The role of a class is that of the decorator which gives it. -/
theorem roleOf?_of_frameworkDecorator?
    (h : config.aliases.KeepRanks (decoratorNames src site)) {role : Role} {d : Node}
    (hfound : frameworkDecorator? src config.aliases site = some (role, d)) :
    d ∈ decoratorNodes site ∧
      ∃ name, decoratorName? src d = some name ∧ config.roleOf? name = some role := by
  obtain ⟨hrole, hbefore⟩ := frameworkDecorator?_eq_some_iff.1 hfound
  obtain ⟨hd, name, hname, hgives⟩ := gives_of_decoratorOfRole? hrole
  have hmem := mem_decoratorNames_iff.2 ⟨d, hd, hname⟩
  refine ⟨hd, name, hname, ?_⟩
  rcases h.exists_roleOf? hmem hgives with hrole | ⟨own, hown, hlt⟩
  · exact hrole
  · -- the own role of the name would have been found before
    exact absurd (Config.gives_of_roleOf? hown)
      (decoratorOfRole?_eq_none_iff.1 (hbefore own hlt) name hmem)

/-- A class has no role exactly when none of the names of its decorators has one, whatever the
aliases are. -/
theorem frameworkDecorator?_eq_none_iff_roleOf? :
    frameworkDecorator? src config.aliases site = none ↔
      ∀ name ∈ decoratorNames src site, config.roleOf? name = none := by
  rw [frameworkDecorator?_eq_none_iff]
  simp only [decoratorOfRole?_eq_none_iff]
  constructor
  · intro h name hname
    cases hrole : config.roleOf? name with
    | none => rfl
    | some role => exact absurd (Config.gives_of_roleOf? hrole) (h role name hname)
  · intro h role name hname hgives
    have hnone := h name hname
    rcases Config.roleOf?_or_alias_of_gives hgives with hrole | ⟨own, rfl, -⟩
    · rw [hrole] at hnone
      cases hnone
    · rw [Config.roleOf?_eq_some_iff.2 (.inl rfl)] at hnone
      cases hnone

end

/-- **The role of a class is the first of the roles of its decorators.** Where no framework name
among them is an alias of a role that is tried before its own: a class has a role exactly when some
decorator name has it and none has one that is tried before; the decorator that gives the role has
it by its name; and a class has no role exactly when no decorator name has one. -/
theorem class_role_agrees (src : Source) (config : Config) (site : Site)
    (h : config.aliases.KeepRanks (decoratorNames src site)) :
    (∀ role : Role,
      (∃ d, frameworkDecorator? src config.aliases site = some (role, d)) ↔
        (∃ name ∈ decoratorNames src site, config.roleOf? name = some role) ∧
        ∀ other : Role, other.rank < role.rank →
          ∀ name ∈ decoratorNames src site, config.roleOf? name ≠ some other) ∧
    (∀ (role : Role) (d : Node), frameworkDecorator? src config.aliases site = some (role, d) →
      d ∈ decoratorNodes site ∧
        ∃ name, decoratorName? src d = some name ∧ config.roleOf? name = some role) ∧
    (frameworkDecorator? src config.aliases site = none ↔
      ∀ name ∈ decoratorNames src site, config.roleOf? name = none) := by
  refine ⟨fun role => ⟨?_, ?_⟩, fun role d => roleOf?_of_frameworkDecorator? h,
    frameworkDecorator?_eq_none_iff_roleOf?⟩
  · rintro ⟨d, hfound⟩
    obtain ⟨hd, name, hname, hrole⟩ := roleOf?_of_frameworkDecorator? h hfound
    refine ⟨⟨name, mem_decoratorNames_iff.2 ⟨d, hd, hname⟩, hrole⟩, ?_⟩
    intro other hlt name hname hother
    have hnone := (frameworkDecorator?_eq_some_iff.1 hfound).2 other hlt
    exact decoratorOfRole?_eq_none_iff.1 hnone name hname (Config.gives_of_roleOf? hother)
  · rintro ⟨⟨name, hname, hrole⟩, hbefore⟩
    cases hd : decoratorOfRole? src config.aliases site role with
    | none =>
      exact absurd (Config.gives_of_roleOf? hrole) (decoratorOfRole?_eq_none_iff.1 hd name hname)
    | some d =>
      refine ⟨d, frameworkDecorator?_eq_some_iff.2 ⟨hd, fun other hlt => ?_⟩⟩
      rw [decoratorOfRole?_eq_none_iff]
      intro name hname hgives
      rcases h.exists_roleOf? hname hgives with hother | ⟨own, hown, hownlt⟩
      · exact hbefore other hlt name hname hother
      · exact hbefore own (Nat.lt_trans hownlt hlt) name hname hown

/-! ## Two classes -/

/-- The source `@Svc() export @Pipe() class A {}`. -/
def pipeSource : Source :=
  Source.ofText "pipe.ts" "@Svc() export @Pipe() class A \x7b\x7d"

/-- The class of `@Svc() export @Pipe() class A {}`; its first decorator hangs below the export. -/
def pipeClass : Node :=
  .named "class_declaration" (some "declaration") 14 32 [
    .named "decorator" none 14 21 [
      .token "@" 14 15,
      .named "call_expression" none 15 21 [
        .named "identifier" (some "function") 15 19 [],
        .named "arguments" (some "arguments") 19 21 [.token "(" 19 20, .token ")" 20 21]]],
    .token "class" 22 27, .named "type_identifier" (some "name") 28 29 [],
    .named "class_body" (some "body") 30 32 [.token "\x7b" 30 31, .token "\x7d" 31 32]]

/-- The statement `@Svc() export @Pipe() class A {}`. -/
def pipeExport : Node :=
  .named "export_statement" none 0 32 [
    .named "decorator" none 0 6 [
      .token "@" 0 1,
      .named "call_expression" none 1 6 [
        .named "identifier" (some "function") 1 4 [],
        .named "arguments" (some "arguments") 4 6 [.token "(" 4 5, .token ")" 5 6]]],
    .token "export" 7 13, pipeClass]

/-- A configuration in which `Svc` stands for a module, and `Pipe`, without effect, for an
injectable. -/
def pipeConfig : Config where
  limits := Limits.standard
  aliases := [("Pipe", .injectable), ("Svc", .module)]

/-- The decorators have the roles of a module and of a pipe, and that of a pipe is tried first. -/
theorem class_role_agrees_pipe :
    pipeConfig.aliases.KeepRanks
      (decoratorNames pipeSource { parent := some pipeExport, node := pipeClass }) ∧
    decoratorNames pipeSource { parent := some pipeExport, node := pipeClass } = ["Svc", "Pipe"] ∧
    pipeConfig.roleOf? "Svc" = some .module ∧ pipeConfig.roleOf? "Pipe" = some .pipe ∧
    ∃ d, frameworkDecorator? pipeSource pipeConfig.aliases
      { parent := some pipeExport, node := pipeClass } = some (.pipe, d) := by
  have hnames : decoratorNames pipeSource { parent := some pipeExport, node := pipeClass } =
      ["Svc", "Pipe"] := by rfl
  have hkeep : pipeConfig.aliases.KeepRanks
      (decoratorNames pipeSource { parent := some pipeExport, node := pipeClass }) := by
    rw [hnames]
    intro own hown role halias
    cases own with
    | pipe =>
      obtain rfl : Role.injectable = role := Option.some.inj halias
      decide
    | _ => exact absurd hown (by decide)
  refine ⟨hkeep, hnames, by decide, by decide, ?_⟩
  refine ((class_role_agrees pipeSource pipeConfig _ hkeep).1 .pipe).2 ⟨⟨"Pipe", ?_, by decide⟩, ?_⟩
  · rw [hnames]
    decide
  · intro other hlt
    rw [hnames]
    cases other with
    | component => decide
    | directive => decide
    | _ => exact absurd hlt (by decide)

/-- The source `@Injectable() class A {}`. -/
def injectableSource : Source :=
  Source.ofText "injectable.ts" "@Injectable() class A \x7b\x7d"

/-- The tree of `@Injectable() class A {}`. -/
def injectableClass : Node :=
  .named "class_declaration" none 0 24 [
    .named "decorator" none 0 13 [
      .token "@" 0 1,
      .named "call_expression" none 1 13 [
        .named "identifier" (some "function") 1 11 [],
        .named "arguments" (some "arguments") 11 13 [.token "(" 11 12, .token ")" 12 13]]],
    .token "class" 14 19, .named "type_identifier" (some "name") 20 21 [],
    .named "class_body" (some "body") 22 24 [.token "\x7b" 22 23, .token "\x7d" 23 24]]

/-- A class whose one decorator has a framework name gets another role, where the name is made an
alias of a role that is tried before its own. -/
theorem class_role_may_disagree :
    ¬ ∀ (src : Source) (config : Config) (site : Site) (role : Role) (d : Node),
      frameworkDecorator? src config.aliases site = some (role, d) →
      (decoratorName? src d).bind config.roleOf? = some role := by
  intro h
  let config : Config := { limits := Limits.standard, aliases := [("Injectable", .component)] }
  let site : Site := { parent := none, node := injectableClass }
  obtain ⟨d, hfound, hname⟩ : ∃ d,
      frameworkDecorator? injectableSource config.aliases site = some (.component, d) ∧
      decoratorName? injectableSource d = some "Injectable" := ⟨_, rfl, by rfl⟩
  have hrole := h injectableSource config site .component d hfound
  rw [hname] at hrole
  exact absurd hrole (by decide)

end DeclCatalog
