import DeclCatalog.Proofs.Subtree
import DeclCatalog.Proofs.WellFormedTerms

/-!
# Every sentinel of a resolver is reported once

A resolver that does not understand a node, or that meets the nesting limit, puts a sentinel in its
place and says so. Neither happens without the other, wherever in a term the sentinel stands.

- `Kind.SpellsSentinel`, `Node.names`, `NamesClear`: a name that spells a sentinel is read as one,
  and nothing is said of it. The count is therefore one of trees in which no name does.
- `TypeTerm.sentinels`, `ValueTerm.sentinels`: the sentinels of a term from left to right. What a
  construction constructs is not among them: its sentinel is never reported.
- `Rule.Explains`, `Accounts`: the diagnostics of a run, in their order, explain the sentinels of
  its result, in theirs; some of the diagnostics are of rules that go without a sentinel.
- `accounts_resolveType`, `accounts_resolveValue`: **each resolver accounts for its result**.
- `sentinels_eq_reports`: the numbers that follow.
-/

namespace DeclCatalog

/-! ## Names that spell a sentinel -/

/-- Whether a text is the written form of a sentinel. -/
def Kind.SpellsSentinel (s : String) : Prop :=
  s = "unknown" ∨ unknownMark.toList <+: s.toList

instance (s : String) : Decidable (Kind.SpellsSentinel s) :=
  inferInstanceAs (Decidable (s = "unknown" ∨ Kind.unknownMark.toList <+: s.toList))

/-- Only the written form of a sentinel is read as one. -/
theorem Kind.spellsSentinel_of_isUnknown_ofText {s : String} (h : (ofText s).isUnknown = true) :
    SpellsSentinel s := by
  have htext := text_ofText s
  cases hkind : ofText s with
  | unknown =>
    rw [hkind] at htext
    exact .inl htext.symm
  | unknownValue nodeKind =>
    rw [hkind] at htext
    refine .inr ⟨nodeKind.toList, ?_⟩
    rw [← htext, text, String.toList_append]
  | _ =>
    rw [hkind] at h
    cases h

/-- The nodes whose text is read as a name when a node is resolved. -/
def Node.ownNames (n : Node) : List Node :=
  match n.kind with
  | "identifier" => [n]
  | "type_identifier" => [n]
  | "nested_type_identifier" => [n]
  | "generic_type" => (n.child? "name").toList
  | _ => []

/-- The names under a node. -/
def Node.names (n : Node) : List Node :=
  n.preorder.flatMap ownNames

theorem Node.mem_names_of_mem_ownNames {n m name : Node} (hm : m ∈ n.preorder)
    (hname : name ∈ m.ownNames) : name ∈ n.names :=
  List.mem_flatMap.2 ⟨m, hm, hname⟩

/-- No name under a node spells a sentinel, with or without blanks around it. -/
def NamesClear (src : Source) (n : Node) : Prop :=
  ∀ name ∈ n.names, ¬ Kind.SpellsSentinel (Text.trim (src.text name))

instance (src : Source) (n : Node) : Decidable (NamesClear src n) :=
  inferInstanceAs (Decidable (∀ name ∈ n.names, ¬ Kind.SpellsSentinel (Text.trim (src.text name))))

section

variable {src : Source} {n m : Node}

theorem NamesClear.of_mem_preorder (h : NamesClear src n) (hm : m ∈ n.preorder) :
    NamesClear src m := by
  intro name hname
  obtain ⟨c, hc, hname⟩ := List.mem_flatMap.1 hname
  exact h name (Node.mem_names_of_mem_ownNames (Node.preorder_subset hm hc) hname)

/-- The names that a node has by its kind. -/
theorem Node.ownNames_of_kind (hkind : n.kind ∈ ["type_identifier", "nested_type_identifier",
    "identifier"]) : n.ownNames = [n] := by
  simp only [List.mem_cons, List.not_mem_nil, or_false] at hkind
  rcases hkind with hkind | hkind | hkind <;> simp only [ownNames, hkind]

/-- The form of a type has the kind of a sentinel only where a name spells one. -/
theorem exists_ownName_of_typeForm {kind : Kind} (h : (typeForm src n).kind? = some kind)
    (hunknown : kind.isUnknown = true) :
    ∃ name ∈ n.ownNames, kind = Kind.ofText (src.text name) := by
  have hgiven : ¬ kind.IsGiven := by
    intro hgiven
    rw [hgiven.isUnknown] at hunknown
    cases hunknown
  have hspec := spec_typeForm src n
  generalize typeForm src n = form at h hspec
  cases hspec with
  | name hkind =>
    rw [Node.ownNames_of_kind hkind]
    exact ⟨n, List.mem_singleton_self n, (Option.some.inj h).symm⟩
  | generic hkind hname =>
    refine ⟨_, ?_, (Option.some.inj h).symm⟩
    rw [Node.ownNames, hkind]
    exact Option.mem_toList.2 hname
  | keyword hgiven' => exact absurd (Option.some.inj h ▸ hgiven') hgiven
  | chain hgiven' => exact absurd (Option.some.inj h ▸ hgiven') hgiven
  | list hgiven' => exact absurd (Option.some.inj h ▸ hgiven') hgiven
  | tuple => exact absurd (Option.some.inj h ▸ ⟨nofun, rfl⟩) hgiven
  | literal raw => cases h
  | unrecognized => cases h

theorem TypeTerm.kind_leaf (kind : Kind) : (leaf kind).kind = kind := rfl

/-- A value that is a plain term is a sentinel only where a name spells one; a plain term has no
arguments. -/
theorem plain_of_valueForm {t : TypeTerm} (h : (valueForm src n).value = .term t) :
    t.args? = none ∧
    (t.kind.isUnknown = true →
      ∃ name ∈ n.ownNames, t.kind = Kind.ofText (Text.trim (src.text name))) := by
  have hspec := spec_valueForm src n
  rw [h] at hspec
  have hquiet : ∀ {kind : Kind}, kind.IsGiven → kind.isUnknown = true →
      ∃ name ∈ n.ownNames, kind = Kind.ofText (Text.trim (src.text name)) := by
    intro kind hgiven hunknown
    rw [hgiven.isUnknown] at hunknown
    cases hunknown
  cases hspec with
  | scalar hfits => exact ⟨rfl, hquiet hfits.isGiven⟩
  | keyword hgiven => exact ⟨rfl, hquiet hgiven⟩
  | name hkind =>
    refine ⟨rfl, fun _ => ⟨n, ?_, TypeTerm.kind_leaf _⟩⟩
    rw [Node.ownNames, hkind]
    exact List.mem_singleton_self n

/-- Where no name spells a sentinel, no plain term is one. -/
theorem NamesClear.isUnknown_eq_false_of_term {t : TypeTerm} (h : NamesClear src n)
    (hform : (valueForm src n).value = .term t) : t.kind.isUnknown = false := by
  rw [Bool.eq_false_iff]
  intro hunknown
  obtain ⟨name, hname, hspells⟩ := (plain_of_valueForm hform).2 hunknown
  rw [hspells] at hunknown
  exact h name (Node.mem_names_of_mem_ownNames n.self_mem_preorder hname)
    (Kind.spellsSentinel_of_isUnknown_ofText hunknown)

end

/-! ## The sentinels of a term -/

namespace TypeTerm

/-- The sentinels of a type, from left to right. -/
def sentinels (t : TypeTerm) : List TypeTerm :=
  t.subterms.filter fun s => s.kind = .unknown

theorem sentinels_leaf {kind : Kind} (h : kind ≠ .unknown) : (leaf kind).sentinels = [] := by
  simp [sentinels, leaf, subterms, TypeTerm.kind, h]

theorem sentinels_composite {kind : Kind} (h : kind ≠ .unknown) (args : List TypeTerm) :
    (composite kind args).sentinels = args.flatMap sentinels := by
  have hself : decide ((composite kind args).kind = .unknown) = false := decide_eq_false h
  show (composite kind args :: subtermsList args).filter _ = _
  rw [List.filter_cons, hself, subtermsList_eq_flatMap, List.filter_flatMap]
  rfl

end TypeTerm

namespace ValueTerm

/-- The sentinels of a value outside the values inside it. -/
def ownSentinels : ValueTerm → List TypeTerm
  | .plain term => [term].filter fun t => t.kind.isUnknown
  | .construct _ typeArgs _ => typeArgs.flatMap TypeTerm.sentinels
  | _ => []

/-- The sentinels of a value, from left to right. -/
def sentinels (v : ValueTerm) : List TypeTerm :=
  v.subvalues.flatMap ownSentinels

theorem sentinels_plain {term : TypeTerm} (h : term.kind.isUnknown = false) :
    (plain term).sentinels = [] := by
  show ownSentinels (plain term) ++ [] = []
  rw [ownSentinels, List.filter_cons, h]
  rfl

theorem sentinels_group (kind : Kind) (members : List Member) :
    (group kind members).sentinels = members.flatMap fun m => m.2.sentinels := by
  show [] ++ (subvaluesMembers members).flatMap ownSentinels = _
  rw [subvaluesMembers_eq_flatMap, List.nil_append, List.flatMap_assoc]
  rfl

theorem flatMap_subvaluesList (args : List ValueTerm) :
    (subvaluesList args).flatMap ownSentinels = args.flatMap sentinels := by
  rw [subvaluesList_eq_flatMap, List.flatMap_assoc]
  rfl

theorem sentinels_call (callee : ValueTerm) (args : List ValueTerm) :
    (call callee args).sentinels = callee.sentinels ++ args.flatMap sentinels := by
  show [] ++ (callee.subvalues ++ subvaluesList args).flatMap ownSentinels = _
  rw [List.nil_append, List.flatMap_append, flatMap_subvaluesList]
  rfl

theorem sentinels_construct (target : TypeTerm) (typeArgs : List TypeTerm)
    (args : List ValueTerm) :
    (construct target typeArgs args).sentinels =
      typeArgs.flatMap TypeTerm.sentinels ++ args.flatMap sentinels := by
  show ownSentinels (construct target typeArgs args) ++
    (subvaluesList args).flatMap ownSentinels = _
  rw [flatMap_subvaluesList]
  rfl

end ValueTerm

/-! ## Diagnostics that account for sentinels -/

/-- Whether a rule is one by which a sentinel is reported. -/
def Rule.isLoud (rule : Rule) : Bool :=
  rule ∈ [.unknownExpression, .unknownType, .depthLimit]

/-- The sentinels that a rule reports. -/
inductive Rule.Explains : Rule → Kind → Prop where
  | type : Explains .unknownType .unknown
  | typeLimit : Explains .depthLimit .unknown
  | value (nodeKind : String) : Explains .unknownExpression (.unknownValue nodeKind)
  | valueLimit : Explains .depthLimit (.unknownValue depthLimitKind)

theorem Rule.Explains.isLoud {rule : Rule} {kind : Kind} (h : rule.Explains kind) :
    rule.isLoud = true := by
  cases h <;> rfl

/-- Diagnostics, in order, that report the sentinels of a list one by one, apart from those of some
rules that report none. -/
inductive Accounts (quiet : List Rule) : List Diagnostic → List TypeTerm → Prop where
  | nil : Accounts quiet [] []
  | quiet {d : Diagnostic} {log : List Diagnostic} {terms : List TypeTerm} (h : d.rule ∈ quiet)
      (rest : Accounts quiet log terms) : Accounts quiet (d :: log) terms
  | loud {d : Diagnostic} {log : List Diagnostic} {t : TypeTerm} {terms : List TypeTerm}
      (h : d.rule.Explains t.kind) (rest : Accounts quiet log terms) :
      Accounts quiet (d :: log) (t :: terms)

namespace Accounts

variable {quiet : List Rule} {log log' : List Diagnostic} {terms terms' : List TypeTerm}

theorem append (h : Accounts quiet log terms) (h' : Accounts quiet log' terms') :
    Accounts quiet (log ++ log') (terms ++ terms') := by
  induction h with
  | nil => exact h'
  | quiet h _ ih => exact .quiet h ih
  | loud h _ ih => exact .loud h ih

theorem quiet_append (h : ∀ d ∈ log, d.rule ∈ quiet) (h' : Accounts quiet log' terms) :
    Accounts quiet (log ++ log') terms := by
  induction log with
  | nil => exact h'
  | cons d log ih =>
    obtain ⟨hd, hlog⟩ := List.forall_mem_cons.1 h
    exact .quiet hd (ih hlog)

/-- A run without quiet diagnostics accounts as well where some are allowed. -/
theorem weaken (h : Accounts [] log terms) (quiet : List Rule) : Accounts quiet log terms := by
  induction h with
  | nil => exact .nil
  | quiet h _ _ => cases h
  | loud h _ ih => exact .loud h ih

/-- Where every step accounts for its result, so does a run over a list. -/
theorem traverse {α β : Type} {step : α → Logged β} {sentinels : β → List TypeTerm} {as : List α}
    (h : ∀ a ∈ as, Accounts quiet (step a).log (sentinels (step a).value)) :
    Accounts quiet (Logged.traverse step as).log
      ((Logged.traverse step as).value.flatMap sentinels) := by
  rw [Logged.log_traverse, Logged.value_traverse]
  induction as with
  | nil => exact .nil
  | cons a as ih =>
    obtain ⟨ha, has⟩ := List.forall_mem_cons.1 h
    exact ha.append (ih has)

/-- A diagnostic is of a quiet rule or reports one of the sentinels. -/
theorem quiet_or_explains (h : Accounts quiet log terms) {d : Diagnostic} (hd : d ∈ log) :
    d.rule ∈ quiet ∨ ∃ t ∈ terms, d.rule.Explains t.kind := by
  induction h with
  | nil => cases hd
  | quiet hquiet _ ih =>
    rcases List.mem_cons.1 hd with rfl | hd
    · exact .inl hquiet
    · exact ih hd
  | loud hloud _ ih =>
    rcases List.mem_cons.1 hd with rfl | hd
    · exact .inr ⟨_, List.mem_cons_self, hloud⟩
    · rcases ih hd with hquiet | ⟨t, ht, hexplains⟩
      · exact .inl hquiet
      · exact .inr ⟨t, List.mem_cons_of_mem _ ht, hexplains⟩

/-- There are as many loud diagnostics as sentinels. -/
theorem countP_isLoud (h : Accounts quiet log terms)
    (hquiet : ∀ rule ∈ quiet, rule.isLoud = false) :
    log.countP (fun d => d.rule.isLoud) = terms.length := by
  induction h with
  | nil => rfl
  | quiet hd _ ih =>
    rw [List.countP_cons, hquiet _ hd, ih]
    rfl
  | loud hd _ ih =>
    rw [List.countP_cons, hd.isLoud, ih, List.length_cons]
    rfl

end Accounts

/-! ## The resolvers account for their results -/

section

variable {src : Source}

theorem accounts_resolveType (limit levels : Nat) {n : Node} (h : NamesClear src n) :
    Accounts [] (resolveType src limit levels n).log
      (resolveType src limit levels n).value.sentinels := by
  induction levels generalizing n with
  | zero => exact .loud .typeLimit .nil
  | succ levels ih =>
    have hbare := h.of_mem_preorder (bareType_mem_preorder n)
    -- whatever kind the form has, it is no sentinel
    have hkind : ∀ kind, (typeForm src (bareType n)).kind? = some kind → kind ≠ .unknown := by
      rintro _ hform rfl
      obtain ⟨name, hname, hspells⟩ := exists_ownName_of_typeForm hform rfl
      have htext : src.text name = "unknown" := by
        rw [← Kind.text_ofText (src.text name), ← hspells]
        rfl
      refine hbare name (Node.mem_names_of_mem_ownNames (Node.self_mem_preorder _) hname) ?_
      rw [htext]
      exact .inl (by decide)
    have hparts : ∀ m ∈ (typeForm src (bareType n)).parts,
        Accounts [] (resolveType src limit levels m).log
          (resolveType src limit levels m).value.sentinels :=
      fun m hm => ih (hbare.of_mem_preorder (mem_preorder_of_mem_parts hm))
    rw [resolveType]
    cases hform : typeForm src (bareType n) with
    | leaf kind =>
      rw [hform] at hkind
      show Accounts [] [] (TypeTerm.leaf kind).sentinels
      rw [TypeTerm.sentinels_leaf (hkind kind rfl)]
      exact .nil
    | literal raw => exact .nil
    | composite kind parts =>
      rw [hform] at hkind hparts
      show Accounts [] (_ ++ []) (TypeTerm.composite kind _).sentinels
      rw [TypeTerm.sentinels_composite (hkind kind rfl), List.append_nil]
      exact .traverse hparts
    | unrecognized => exact .loud .type .nil

/-- The rules that the value resolver reports by without putting a sentinel. -/
def quietRules : List Rule :=
  [.skippedObjectMember, .unparsableNumber]

theorem rule_of_mem_log_pairsOf {members : List Node} {d : Diagnostic}
    (h : d ∈ (pairsOf src members).log) : d.rule = .skippedObjectMember := by
  fun_induction pairsOf src members with
  | case1 => cases h
  | case2 member rest hpair key value hvalue hkey ih =>
    rw [Logged.log_bind, Logged.log_pure, List.append_nil] at h
    exact ih h
  | case3 member rest hpair hincomplete ih => exact ih h
  | case4 member rest hother ih =>
    rcases List.mem_cons.1 h with rfl | h
    · rfl
    · exact ih h

/-- Reading off the form of a value puts no sentinel. -/
theorem rule_mem_quietRules {n : Node} {d : Diagnostic} (h : d ∈ (valueForm src n).log) :
    d.rule ∈ quietRules := by
  obtain h | h := mem_log_valueForm h
  · rw [rule_of_mem_log_pairsOf h]
    exact List.mem_cons_self
  · unfold numberForm at h
    dsimp only at h
    cases hinteger : Text.intPrefix? (src.text n) with
    | some value =>
      rw [hinteger] at h
      cases h
    | none =>
      rw [hinteger] at h
      obtain rfl := List.mem_singleton.1 h
      exact List.mem_cons_of_mem _ List.mem_cons_self

theorem accounts_resolveValue (limit levels : Nat) {n : Node} (hnames : NamesClear src n)
    (hcalls : n.CallsHaveCallee) :
    Accounts quietRules (resolveValue src limit levels n).log
      (resolveValue src limit levels n).value.sentinels := by
  induction levels generalizing n with
  | zero => exact .loud .valueLimit .nil
  | succ levels ih =>
    have hvalues : ∀ m ∈ (valueForm src n).value.values,
        Accounts quietRules (resolveValue src limit levels m).log
          (resolveValue src limit levels m).value.sentinels := by
      intro m hm
      have hmem := mem_preorder_of_mem_values hm
      exact ih (hnames.of_mem_preorder hmem) (hcalls.of_mem_preorder hmem)
    have htypes : ∀ m ∈ (valueForm src n).value.types,
        Accounts quietRules (resolveType src limit levels m).log
          (resolveType src limit levels m).value.sentinels := by
      intro m hm
      have hclear := hnames.of_mem_preorder (mem_preorder_of_mem_types hm)
      exact (accounts_resolveType limit levels hclear).weaken quietRules
    rw [resolveValue, Logged.log_bind, Logged.value_bind]
    -- what reading off the form says is quiet; the rest is said of the nodes it hands on
    refine .quiet_append (fun d hd => rule_mem_quietRules hd) ?_
    cases hform : (valueForm src n).value with
    | term t =>
      show Accounts quietRules [] (ValueTerm.plain t).sentinels
      rw [ValueTerm.sentinels_plain (hnames.isUnknown_eq_false_of_term hform)]
      exact .nil
    | access operand name => exact .nil
    | array elements =>
      rw [hform] at hvalues
      rw [Logged.log_bind, Logged.log_pure, List.append_nil, Logged.value_bind, Logged.value_pure,
        ValueTerm.sentinels_group]
      refine .traverse fun m hm => ?_
      rw [Logged.log_map]
      exact hvalues m hm
    | object pairs =>
      rw [hform] at hvalues
      rw [Logged.log_bind, Logged.log_pure, List.append_nil, Logged.value_bind, Logged.value_pure,
        ValueTerm.sentinels_group]
      refine .traverse ?_
      rintro ⟨key, m⟩ hm
      show Accounts quietRules (Member.property key <$> resolveValue src limit levels m).log _
      rw [Logged.log_map]
      exact hvalues m (List.mem_map_of_mem hm)
    | call callee args =>
      rw [hform] at hvalues
      obtain ⟨f, rfl⟩ := hcalls.exists_callee hform
      obtain ⟨hcallee, hargs⟩ := List.forall_mem_cons.1 hvalues
      simp only [Logged.log_bind, Logged.log_pure, List.append_nil, Logged.value_bind,
        Logged.value_pure, Logged.value_traverse?, Logged.log_traverse?, ValueTerm.sentinels_call]
      exact hcallee.append (.traverse hargs)
    | construct target typeArgs args =>
      rw [hform] at hvalues htypes
      simp only [Logged.log_bind, Logged.log_pure, List.append_nil, Logged.value_bind,
        Logged.value_pure, ValueTerm.sentinels_construct]
      exact (Accounts.traverse htypes).append (.traverse hvalues)
    | unrecognized => exact .loud (.value n.kind) .nil

end

/-- **Every sentinel of a resolver is reported once.** Where no name spells a sentinel and every
call has a callee, a type is resolved with as many diagnostics as the result has sentinels, all of
two rules. A value is resolved with as many diagnostics of three rules as the result has sentinels,
and the others are of two further rules. -/
theorem sentinels_eq_reports (src : Source) (limit : Nat) {n : Node} (hnames : NamesClear src n)
    (hcalls : n.CallsHaveCallee) :
    (∀ d ∈ (typeOf src limit n).log, d.rule ∈ [Rule.unknownType, .depthLimit]) ∧
    (typeOf src limit n).log.length =
      (typeOf src limit n).value.subterms.countP (fun t => t.kind = .unknown) ∧
    (∀ d ∈ (valueOf src limit n).log, d.rule ∈ [Rule.unknownExpression, .unknownType,
      .skippedObjectMember, .depthLimit, .unparsableNumber]) ∧
    (valueOf src limit n).log.countP
        (fun d => d.rule ∈ [Rule.unknownExpression, .unknownType, .depthLimit]) =
      (valueOf src limit n).value.sentinels.length := by
  have htype : Accounts [] (typeOf src limit n).log (typeOf src limit n).value.sentinels :=
    accounts_resolveType limit (limit + 1) hnames
  have hvalue : Accounts quietRules (valueOf src limit n).log
      (valueOf src limit n).value.sentinels :=
    accounts_resolveValue limit (limit + 1) hnames hcalls
  have htypeRules : ∀ d ∈ (typeOf src limit n).log, d.rule ∈ [Rule.unknownType, .depthLimit] := by
    intro d hd
    rcases htype.quiet_or_explains hd with hquiet | ⟨t, ht, hexplains⟩
    · cases hquiet
    · -- the sentinels of a type are of one kind, which two of the rules explain
      have hkind : t.kind = .unknown := of_decide_eq_true (List.mem_filter.1 ht).2
      rw [hkind] at hexplains
      generalize d.rule = rule at hexplains
      cases hexplains <;> decide
  refine ⟨htypeRules, ?_, ?_, ?_⟩
  · have hcount := htype.countP_isLoud (fun rule h => nomatch h)
    have hall : (typeOf src limit n).log.countP (fun d => d.rule.isLoud) =
        (typeOf src limit n).log.length := by
      have hloud : ∀ rule ∈ [Rule.unknownType, .depthLimit], rule.isLoud = true := by decide
      exact List.countP_eq_length.2 fun d hd => hloud d.rule (htypeRules d hd)
    rw [← hall, hcount, TypeTerm.sentinels, List.countP_eq_length_filter]
  · intro d hd
    rcases hvalue.quiet_or_explains hd with hquiet | ⟨t, -, hexplains⟩
    · have hsub : quietRules ⊆ [.unknownExpression, .unknownType, .skippedObjectMember,
          .depthLimit, .unparsableNumber] := by decide
      exact hsub hquiet
    · have hsub : [Rule.unknownExpression, .unknownType, .depthLimit] ⊆ [.unknownExpression,
          .unknownType, .skippedObjectMember, .depthLimit, .unparsableNumber] := by decide
      exact hsub (of_decide_eq_true hexplains.isLoud)
  · exact hvalue.countP_isLoud (by decide)

/-- The source `new Map<string, typeof x>(a ?? b, { ...c })`. -/
def newMapSource : Source :=
  Source.ofText "map.ts" "new Map<string, typeof x>(a ?? b, \x7b ...c \x7d)"

/-- The tree of `new Map<string, typeof x>(a ?? b, { ...c })`. -/
def newMap : Node :=
  .named "new_expression" none 0 43 [
    .token "new" 0 3, .named "identifier" (some "constructor") 4 7 [],
    .named "type_arguments" (some "type_arguments") 7 25 [
      .token "<" 7 8, .named "predefined_type" none 8 14 [.token "string" 8 14], .token "," 14 15,
      .named "type_query" none 16 24 [.token "typeof" 16 22, .named "identifier" none 23 24 []],
      .token ">" 24 25],
    .named "arguments" (some "arguments") 25 43 [
      .token "(" 25 26,
      .named "binary_expression" none 26 32 [
        .named "identifier" none 26 27 [], .token "??" 28 30, .named "identifier" none 31 32 []],
      .token "," 32 33,
      .named "object" none 34 42 [
        .token "\x7b" 34 35,
        .named "spread_element" none 36 40 [
          .token "..." 36 39, .named "identifier" none 39 40 []],
        .token "\x7d" 41 42],
      .token ")" 42 43]]

/-- A type query and an operator are not understood; the spread member is passed over. -/
theorem sentinels_eq_reports_newMap :
    NamesClear newMapSource newMap ∧ newMap.CallsHaveCallee ∧
    (valueOf newMapSource 1 newMap).log.map Diagnostic.rule =
      [.unknownType, .unknownExpression, .skippedObjectMember] ∧
    (valueOf newMapSource 1 newMap).log.countP
        (fun d => d.rule ∈ [Rule.unknownExpression, .unknownType, .depthLimit]) =
      (valueOf newMapSource 1 newMap).value.sentinels.length ∧
    (valueOf newMapSource 1 newMap).value.sentinels.length = 2 := by
  have hnames : NamesClear newMapSource newMap := by decide
  have hcalls : newMap.CallsHaveCallee := by decide
  refine ⟨hnames, hcalls, by rfl, ?_, by rfl⟩
  exact (sentinels_eq_reports newMapSource 1 hnames hcalls).2.2.2

end DeclCatalog
