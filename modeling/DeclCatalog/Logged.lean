import DeclCatalog.Diagnostic

/-!
# Values with diagnostics

- `Logged`: a value together with the diagnostics raised on the way to it, in order.
- `Logged.report`: raises one diagnostic.
- `Logged.traverse`, `Logged.traverse?`: a step for every item of a list, or for the item of an
  option, in order.
-/

namespace DeclCatalog

/-- A value together with the diagnostics raised on the way to it. -/
structure Logged (α : Type) where
  value : α
  log : List Diagnostic

namespace Logged

variable {α β : Type}

instance : Monad Logged where
  pure a := ⟨a, []⟩
  bind m f :=
    let next := f m.value
    ⟨next.value, m.log ++ next.log⟩

/-- Raises one diagnostic. -/
def report (d : Diagnostic) : Logged Unit :=
  ⟨(), [d]⟩

/-- A step for every item of a list, in order. -/
def traverse (step : α → Logged β) : List α → Logged (List β)
  | [] => pure []
  | a :: as => do
    let b ← step a
    let bs ← traverse step as
    pure (b :: bs)

/-- A step for the item of an option. -/
def traverse? (step : α → Logged β) : Option α → Logged (Option β)
  | none => pure none
  | some a => do
    let b ← step a
    pure (some b)

@[simp] theorem value_pure (a : α) : (pure a : Logged α).value = a := rfl

@[simp] theorem log_pure (a : α) : (pure a : Logged α).log = [] := rfl

@[simp] theorem value_bind (m : Logged α) (f : α → Logged β) :
    (m >>= f).value = (f m.value).value := rfl

@[simp] theorem log_bind (m : Logged α) (f : α → Logged β) :
    (m >>= f).log = m.log ++ (f m.value).log := rfl

@[simp] theorem value_map (g : α → β) (m : Logged α) : (g <$> m).value = g m.value := rfl

@[simp] theorem log_map (g : α → β) (m : Logged α) : (g <$> m).log = m.log := by
  show m.log ++ [] = m.log
  exact List.append_nil m.log

@[simp] theorem log_report (d : Diagnostic) : (report d).log = [d] := rfl

@[simp] theorem value_traverse (step : α → Logged β) (as : List α) :
    (traverse step as).value = as.map fun a => (step a).value := by
  induction as with
  | nil => rfl
  | cons a as ih => simp [traverse, ih]

@[simp] theorem log_traverse (step : α → Logged β) (as : List α) :
    (traverse step as).log = as.flatMap fun a => (step a).log := by
  induction as with
  | nil => rfl
  | cons a as ih => simp [traverse, ih]

/-- What follows a step depends on the value of the step alone. -/
theorem bind_congr {m : Logged α} {f g : α → Logged β} (h : f m.value = g m.value) :
    m >>= f = m >>= g :=
  congrArg (fun next : Logged β => Logged.mk next.value (m.log ++ next.log)) h

/-- What is said at an item is said for the list. -/
theorem log_subset_traverse (step : α → Logged β) {as : List α} {a : α} (h : a ∈ as) :
    (step a).log ⊆ (traverse step as).log := by
  rw [log_traverse]
  exact fun d hd => List.mem_flatMap.2 ⟨a, h, hd⟩

/-- Steps that do the same at every item of a list do the same for the list. -/
theorem traverse_congr {step step' : α → Logged β} {as : List α}
    (h : ∀ a ∈ as, step a = step' a) : traverse step as = traverse step' as := by
  induction as with
  | nil => rfl
  | cons a as ih =>
    obtain ⟨ha, has⟩ := List.forall_mem_cons.1 h
    rw [traverse, traverse, ha, ih has]

theorem traverse?_congr {step step' : α → Logged β} {a : Option α}
    (h : ∀ x ∈ a, step x = step' x) : traverse? step a = traverse? step' a := by
  cases a with
  | none => rfl
  | some x => rw [traverse?, traverse?, h x rfl]

/-- What holds of the result of every step holds of every item of the results. -/
theorem forall_mem_traverse {P : β → Prop} {step : α → Logged β} (h : ∀ a, P (step a).value)
    (as : List α) : ∀ b ∈ (traverse step as).value, P b := by
  intro b hb
  rw [value_traverse] at hb
  obtain ⟨a, -, rfl⟩ := List.mem_map.1 hb
  exact h a

/-- The same of steps that give an item or none, for the items that are given. -/
theorem forall_mem_filterMap_traverse {P : β → Prop} {step : α → Logged (Option β)}
    (h : ∀ a b, (step a).value = some b → P b) (as : List α) :
    ∀ b ∈ (traverse step as).value.filterMap id, P b := by
  intro b hb
  obtain ⟨x, hx, hsome⟩ := List.mem_filterMap.1 hb
  rw [value_traverse] at hx
  obtain ⟨a, -, rfl⟩ := List.mem_map.1 hx
  exact h a b hsome

@[simp] theorem value_traverse? (step : α → Logged β) (a : Option α) :
    (traverse? step a).value = a.map fun a => (step a).value := by
  cases a <;> rfl

@[simp] theorem log_traverse? (step : α → Logged β) (a : Option α) :
    (traverse? step a).log = (a.map fun a => (step a).log).getD [] := by
  cases a <;> simp [traverse?]

end Logged

end DeclCatalog
