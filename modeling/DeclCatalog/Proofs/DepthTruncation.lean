import DeclCatalog.Proofs.Subtree

/-!
# The nesting limit truncates

A resolver that meets the nesting limit puts a sentinel in the place of what is below. Nothing else
depends on the limit, so a run under a limit is a run under any larger one with its deeper levels
cut off.

- `TypeTerm.truncate`, `ValueTerm.truncate`: the first levels of a term.
- `value_resolveType_eq_truncate`, `value_resolveValue_eq_truncate`: a run within some levels is the
  truncation of a run within more. The second needs `Node.CallsHaveCallee`, which the grammar
  grants: a call without a callee would be given a sentinel of its own, at the limit or not.
- `resolveType_eq_of_withinLimit`, `resolveValue_eq_of_withinLimit`: a run that does not meet the
  limit is the run within more levels, diagnostics included.
- `depth_limit_truncates`: **both of these for two limits**.
-/

namespace DeclCatalog

/-! ## Truncation -/

/-- The first levels of a type; the sentinel stands for all that is below them. -/
def TypeTerm.truncate : Nat → TypeTerm → TypeTerm
  | 0, _ => unknown
  | levels + 1, .mk kind args literal => .mk kind (args.map (List.map (truncate levels))) literal

/-- The first levels of a value; the sentinel of the nesting limit stands for all that is below
them. Keys, the target of a construction and a member access are of no depth. -/
def ValueTerm.truncate : Nat → ValueTerm → ValueTerm
  | 0, _ => unknown depthLimitKind
  | _ + 1, .plain term => .plain term
  | levels + 1, .group kind members =>
    .group kind (members.map fun (key, value) => (key, truncate levels value))
  | levels + 1, .call callee args =>
    .call (truncate levels callee) (args.map (truncate levels))
  | levels + 1, .construct target typeArgs args =>
    .construct target (typeArgs.map (TypeTerm.truncate levels)) (args.map (truncate levels))
  | _ + 1, .access operand name => .access operand name

/-! ## Two runs, one within more levels -/

/-- Where each step of one run is a function of the step of the other, so are all of them. -/
theorem Logged.value_traverse_eq_map {α β : Type} {step step' : α → Logged β} {f : β → β}
    {as : List α} (h : ∀ a ∈ as, (step a).value = f (step' a).value) :
    (traverse step as).value = (traverse step' as).value.map f := by
  rw [value_traverse, value_traverse, List.map_map]
  exact List.map_congr_left h

section

variable (src : Source) (limit limit' : Nat)

theorem value_resolveType_eq_truncate (levels more : Nat) (n : Node) :
    (resolveType src limit levels n).value =
      (resolveType src limit' (levels + more) n).value.truncate levels := by
  induction levels generalizing n with
  | zero => rfl
  | succ levels ih =>
    rw [Nat.add_right_comm, resolveType, resolveType]
    cases typeForm src (bareType n) with
    | leaf kind => rfl
    | literal raw => rfl
    | composite kind parts =>
      refine congrArg (TypeTerm.composite kind) ?_
      exact Logged.value_traverse_eq_map fun m _ => ih m
    | unrecognized => rfl

theorem value_resolveValue_eq_truncate (levels more : Nat) {n : Node} (h : n.CallsHaveCallee) :
    (resolveValue src limit levels n).value =
      (resolveValue src limit' (levels + more) n).value.truncate levels := by
  induction levels generalizing n with
  | zero => rfl
  | succ levels ih =>
    -- the nodes that the form hands on are below this one, where calls have a callee as well
    have hvalues : ∀ m ∈ (valueForm src n).value.values,
        (resolveValue src limit levels m).value =
          (resolveValue src limit' (levels + more) m).value.truncate levels :=
      fun m hm => ih (h.of_mem_preorder (mem_preorder_of_mem_values hm))
    rw [Nat.add_right_comm, resolveValue, resolveValue, Logged.value_bind, Logged.value_bind]
    cases hform : (valueForm src n).value with
    | term t => rfl
    | access operand name => rfl
    | array elements =>
      rw [hform] at hvalues
      refine congrArg (ValueTerm.group .array) (Logged.value_traverse_eq_map ?_)
      exact fun m hm => congrArg Member.element (hvalues m hm)
    | object pairs =>
      rw [hform] at hvalues
      refine congrArg (ValueTerm.group .object) (Logged.value_traverse_eq_map ?_)
      rintro ⟨key, m⟩ hm
      exact congrArg (Member.property key) (hvalues m (List.mem_map_of_mem hm))
    | call callee args =>
      rw [hform] at hvalues
      obtain ⟨f, rfl⟩ := h.exists_callee hform
      obtain ⟨hcallee, hargs⟩ := List.forall_mem_cons.1 hvalues
      exact congr (congrArg ValueTerm.call hcallee) (Logged.value_traverse_eq_map hargs)
    | construct target typeArgs args =>
      rw [hform] at hvalues
      have htypes : (Logged.traverse (resolveType src limit levels) typeArgs).value =
          (Logged.traverse (resolveType src limit' (levels + more)) typeArgs).value.map
            (TypeTerm.truncate levels) :=
        Logged.value_traverse_eq_map fun m _ =>
          value_resolveType_eq_truncate src limit limit' levels more m
      exact congr (congrArg (ValueTerm.construct target) htypes)
        (Logged.value_traverse_eq_map hvalues)
    | unrecognized => rfl

/-! ## A run that does not meet the limit -/

/-- A run in which the nesting limit is not met. -/
def Logged.WithinLimit {α : Type} (m : Logged α) : Prop :=
  ∀ d ∈ m.log, d.rule ≠ .depthLimit

theorem Logged.WithinLimit.of_log_subset {α β : Type} {m : Logged α} {k : Logged β}
    (h : m.WithinLimit) (hlog : k.log ⊆ m.log) : k.WithinLimit :=
  fun d hd => h d (hlog hd)

theorem resolveType_eq_of_withinLimit {levels : Nat} (more : Nat) {n : Node}
    (h : (resolveType src limit levels n).WithinLimit) :
    resolveType src limit levels n = resolveType src limit' (levels + more) n := by
  induction levels generalizing n with
  | zero => exact absurd rfl (h _ List.mem_cons_self)
  | succ levels ih =>
    have hparts : ∀ m ∈ (typeForm src (bareType n)).parts,
        resolveType src limit levels m = resolveType src limit' (levels + more) m :=
      fun m hm => ih (h.of_log_subset (log_resolveType_subset_of_mem_parts hm))
    rw [Nat.add_right_comm, resolveType, resolveType]
    cases hform : typeForm src (bareType n) with
    | composite kind parts =>
      rw [hform] at hparts
      exact congrArg (· >>= _) (Logged.traverse_congr hparts)
    | _ => rfl

theorem resolveValue_eq_of_withinLimit {levels : Nat} (more : Nat) {n : Node}
    (h : (resolveValue src limit levels n).WithinLimit) :
    resolveValue src limit levels n = resolveValue src limit' (levels + more) n := by
  induction levels generalizing n with
  | zero => exact absurd rfl (h _ List.mem_cons_self)
  | succ levels ih =>
    have hvalues : ∀ m ∈ (valueForm src n).value.values,
        resolveValue src limit levels m = resolveValue src limit' (levels + more) m :=
      fun m hm => ih (h.of_log_subset (log_resolveValue_subset_of_mem_values hm))
    have htypes : ∀ m ∈ (valueForm src n).value.types,
        resolveType src limit levels m = resolveType src limit' (levels + more) m :=
      fun m hm => resolveType_eq_of_withinLimit src limit limit' more
        (h.of_log_subset (log_resolveType_subset_of_mem_types hm))
    rw [Nat.add_right_comm, resolveValue, resolveValue]
    -- both runs read off the same form and differ at most in the resolvers of its nodes
    refine Logged.bind_congr ?_
    cases hform : (valueForm src n).value with
    | array elements =>
      rw [hform] at hvalues
      refine congrArg (· >>= _) (Logged.traverse_congr ?_)
      intro m hm
      rw [hvalues m hm]
    | object pairs =>
      rw [hform] at hvalues
      refine congrArg (· >>= _) (Logged.traverse_congr ?_)
      rintro ⟨key, m⟩ hm
      exact congrArg (Member.property key <$> ·) (hvalues m (List.mem_map_of_mem hm))
    | call callee args =>
      rw [hform] at hvalues
      have hcallee : ∀ m ∈ callee,
          resolveValue src limit levels m = resolveValue src limit' (levels + more) m :=
        fun m hm => hvalues m (List.mem_append_left args (Option.mem_toList.2 hm))
      have hargs : ∀ m ∈ args,
          resolveValue src limit levels m = resolveValue src limit' (levels + more) m :=
        fun m hm => hvalues m (List.mem_append_right callee.toList hm)
      dsimp only
      rw [Logged.traverse?_congr hcallee, Logged.traverse_congr hargs]
    | construct target typeArgs args =>
      rw [hform] at hvalues htypes
      have htypeArgs : ∀ m ∈ typeArgs,
          resolveType src limit levels m = resolveType src limit' (levels + more) m := htypes
      have hargs : ∀ m ∈ args,
          resolveValue src limit levels m = resolveValue src limit' (levels + more) m := hvalues
      dsimp only
      rw [Logged.traverse_congr htypeArgs, Logged.traverse_congr hargs]
    | _ => rfl

end

/-- **The nesting limit truncates.** A run under a limit gives the first levels of what a run under
a larger limit gives, one more than the limit allows to enter. When it does not meet its limit, the
two runs are the same, in what they give and in what they say. -/
theorem depth_limit_truncates (src : Source) {limit limit' : Nat} (hle : limit ≤ limit')
    (n : Node) :
    (typeOf src limit n).value = (typeOf src limit' n).value.truncate (limit + 1) ∧
    (n.CallsHaveCallee →
      (valueOf src limit n).value = (valueOf src limit' n).value.truncate (limit + 1)) ∧
    ((∀ d ∈ (typeOf src limit n).log, d.rule ≠ .depthLimit) →
      typeOf src limit n = typeOf src limit' n) ∧
    ((∀ d ∈ (valueOf src limit n).log, d.rule ≠ .depthLimit) →
      valueOf src limit n = valueOf src limit' n) := by
  obtain ⟨more, rfl⟩ := Nat.exists_eq_add_of_le hle
  unfold typeOf valueOf
  rw [Nat.add_right_comm]
  refine ⟨?_, ?_, ?_, ?_⟩
  · exact value_resolveType_eq_truncate src limit (limit + more) (limit + 1) more n
  · exact value_resolveValue_eq_truncate src limit (limit + more) (limit + 1) more
  · exact resolveType_eq_of_withinLimit src limit (limit + more) more
  · exact resolveValue_eq_of_withinLimit src limit (limit + more) more

/-- The source `[[f(null)]]`. -/
def nestedCallSource : Source :=
  Source.ofText "nested.ts" "[[f(null)]]"

/-- The tree of `[[f(null)]]`. -/
def nestedCall : Node :=
  .named "array" none 0 11 [
    .token "[" 0 1,
    .named "array" none 1 10 [
      .token "[" 1 2,
      .named "call_expression" none 2 9 [
        .named "identifier" (some "function") 2 3 [],
        .named "arguments" (some "arguments") 3 9 [
          .token "(" 3 4, .named "null" none 4 8 [], .token ")" 8 9]],
      .token "]" 9 10],
    .token "]" 10 11]

/-- Under the limit 1 the call is cut off; under the limit 3 nothing is, so 5 gives the same. -/
theorem depth_limit_truncates_nestedCall :
    nestedCall.CallsHaveCallee ∧
    (valueOf nestedCallSource 1 nestedCall).value =
      .group .array [Member.element
        (.group .array [Member.element (.unknown depthLimitKind)])] ∧
    (valueOf nestedCallSource 1 nestedCall).value =
      (valueOf nestedCallSource 3 nestedCall).value.truncate 2 ∧
    valueOf nestedCallSource 3 nestedCall = valueOf nestedCallSource 5 nestedCall := by
  have hcalls : nestedCall.CallsHaveCallee := by decide
  have hsilent : (valueOf nestedCallSource 3 nestedCall).log = [] := by rfl
  refine ⟨hcalls, by rfl, ?_, ?_⟩
  · exact (depth_limit_truncates nestedCallSource (by decide) nestedCall).2.1 hcalls
  · refine (depth_limit_truncates nestedCallSource (by decide) nestedCall).2.2.2 ?_
    rw [hsilent]
    intro d hd
    cases hd

end DeclCatalog
