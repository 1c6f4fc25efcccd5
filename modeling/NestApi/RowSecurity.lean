import NestApi.Table

namespace NestApi

variable {κ ρ : Type}

/-- A row together with its tenant column. -/
structure Owned (ρ : Type) where
  tenantId : String
  row : ρ
  deriving DecidableEq

/-- A table every statement on which is filtered by the tenant of its transaction. -/
abbrev SecuredTable (key : ρ → κ) := Table fun owned : Owned ρ => key owned.row

/-- The policy. In a transaction that set no tenant the comparison is with `NULL`, which no row
satisfies. -/
def policy (tenant : Option String) (owned : Owned ρ) : Bool := tenant = some owned.tenantId

namespace SecuredTable

variable {key : ρ → κ} {row : ρ} {tenant other : Option String}

/-- The rows a statement of this transaction can find. -/
def visible (tenant : Option String) (table : SecuredTable key) : Table key :=
  ⟨(table.rows.filter (policy tenant)).map Owned.row, by
    rw [List.map_map]
    exact table.primary.sublist (List.filter_sublist.map _)⟩

/-- `UPDATE … SET … WHERE …` on the rows the policy shows; the tenant column is not assigned. -/
def update (tenant : Option String) (table : SecuredTable key) (matching : ρ → Bool) (set : ρ → ρ)
    (fixed : ∀ row, key (set row) = key row) : SecuredTable key :=
  Table.update table (fun owned => policy tenant owned && matching owned.row)
    (fun owned => { owned with row := set owned.row }) fun owned => fixed owned.row

/-- `DELETE … WHERE …` on the rows the policy shows. -/
def delete (tenant : Option String) (table : SecuredTable key) (matching : ρ → Bool) :
    SecuredTable key :=
  Table.delete table fun owned => policy tenant owned && matching owned.row

@[simp] theorem visible_none (table : SecuredTable key) : table.visible none = Table.empty := by
  simp [visible, policy, Table.empty]

theorem mem_visible {tenant : String} {table : SecuredTable key} :
    row ∈ (table.visible (some tenant)).rows ↔ ⟨tenant, row⟩ ∈ table.rows := by
  simp only [visible, List.mem_map, List.mem_filter, policy, Option.some.injEq, decide_eq_true_eq]
  constructor
  · rintro ⟨⟨owner, other⟩, ⟨member, rfl⟩, rfl⟩
    exact member
  · intro member
    exact ⟨⟨tenant, row⟩, ⟨member, rfl⟩, rfl⟩

/-- No statement moves a row to another tenant. -/
theorem visible_update_eq (tenant other : Option String) (table : SecuredTable key)
    (matching : ρ → Bool) (set : ρ → ρ) (fixed : ∀ row, key (set row) = key row) :
    ((table.update tenant matching set fixed).visible other).rows =
      (table.rows.filter (policy other)).map fun owned =>
        if policy tenant owned && matching owned.row then set owned.row else owned.row := by
  have same : policy other ∘ (fun owned : Owned ρ =>
      if policy tenant owned && matching owned.row then { owned with row := set owned.row }
      else owned) = policy other := by
    funext owned
    simp only [Function.comp_def]
    split <;> rfl
  simp only [visible, update, Table.update, List.filter_map, same, List.map_map]
  apply List.map_congr_left
  intro owned _
  simp only [Function.comp_def]
  split <;> rfl

theorem visible_update (tenant : Option String) (table : SecuredTable key) (matching : ρ → Bool)
    (set : ρ → ρ) (fixed : ∀ row, key (set row) = key row) :
    (table.update tenant matching set fixed).visible tenant =
      (table.visible tenant).update matching set fixed := by
  rw [← Table.rows_inj, visible_update_eq]
  simp only [visible, Table.update, List.map_map]
  apply List.map_congr_left
  intro owned shown
  simp only [List.mem_filter] at shown
  simp [shown.2]

theorem visible_update_of_ne (apart : tenant ≠ other)
    (table : SecuredTable key) (matching : ρ → Bool) (set : ρ → ρ)
    (fixed : ∀ row, key (set row) = key row) :
    (table.update tenant matching set fixed).visible other = table.visible other := by
  rw [← Table.rows_inj, visible_update_eq]
  apply List.map_congr_left
  intro owned shown
  have hidden : policy tenant owned = false := by
    simp only [List.mem_filter, policy, decide_eq_true_eq, decide_eq_false_iff_not] at shown ⊢
    rw [← shown.2]
    exact apart
  simp [hidden]

theorem visible_delete (tenant : Option String) (table : SecuredTable key) (matching : ρ → Bool) :
    (table.delete tenant matching).visible tenant = (table.visible tenant).delete matching := by
  rw [← Table.rows_inj]
  simp only [visible, delete, Table.delete, List.filter_map, List.filter_filter]
  congr 1
  apply List.filter_congr
  intro owned _
  by_cases shown : policy tenant owned <;> simp [shown]

theorem visible_delete_of_ne (apart : tenant ≠ other)
    (table : SecuredTable key) (matching : ρ → Bool) :
    (table.delete tenant matching).visible other = table.visible other := by
  rw [← Table.rows_inj]
  simp only [visible, delete, Table.delete, List.filter_filter]
  congr 1
  apply List.filter_congr
  intro owned _
  by_cases shown : other = some owned.tenantId
  · have hidden : tenant ≠ some owned.tenantId := by
      rw [← shown]
      exact apart
    simp [policy, hidden]
  · simp [policy, shown]

variable [DecidableEq κ] {table table' : SecuredTable key}

/-- An inserted row takes the tenant of the transaction, and without one it is refused. -/
def insert (tenant : Option String) (table : SecuredTable key) (row : ρ) :
    Option (SecuredTable key) :=
  tenant.bind fun tenantId => Table.insert table ⟨tenantId, row⟩

theorem visible_insert {tenant : String} (inserted : table.insert (some tenant) row = some table') :
    (table.visible (some tenant)).insert row = some (table'.visible (some tenant)) := by
  simp only [insert, Option.bind_some, Table.insert] at inserted
  split at inserted
  · rename_i absent
    cases inserted
    have free : key row ∉ (table.visible (some tenant)).rows.map key := by
      intro taken
      apply absent
      obtain ⟨other, shown, same⟩ := List.mem_map.mp taken
      exact List.mem_map.mpr ⟨_, mem_visible.mp shown, same⟩
    simp only [Table.insert, free, not_false_eq_true, ↓reduceDIte, Option.some.injEq]
    simp [visible, policy]
  · cases inserted

theorem visible_insert_of_ne {tenant other : String} (apart : tenant ≠ other)
    (inserted : table.insert (some tenant) row = some table') :
    table'.visible (some other) = table.visible (some other) := by
  simp only [insert, Option.bind_some, Table.insert] at inserted
  split at inserted
  · cases inserted
    rw [← Table.rows_inj]
    simp [visible, policy, apart.symm]
  · cases inserted

end SecuredTable

end NestApi
