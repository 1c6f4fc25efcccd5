import Mathlib.Data.List.Nodup

namespace NestApi

variable {κ ρ : Type}

/-- A database table with a primary key. Rows keep their position. -/
structure Table (key : ρ → κ) where
  rows : List ρ
  primary : (rows.map key).Nodup

namespace Table

variable {key : ρ → κ}

def empty : Table key := ⟨[], List.nodup_nil⟩

theorem rows_inj {first second : Table key} : first.rows = second.rows ↔ first = second := by
  constructor
  · intro same
    cases first
    cases second
    cases same
    rfl
  · intro same
    rw [same]

/-- `UPDATE … SET … WHERE …` for an assignment that leaves the key alone. -/
def update (table : Table key) (matching : ρ → Bool) (set : ρ → ρ)
    (fixed : ∀ row, key (set row) = key row) : Table key :=
  ⟨table.rows.map fun row => if matching row then set row else row, by
    have same : (table.rows.map fun row => if matching row then set row else row).map key =
        table.rows.map key := by
      rw [List.map_map]
      apply List.map_congr_left
      intro row _
      by_cases matched : matching row <;> simp [matched, fixed]
    rw [same]
    exact table.primary⟩

/-- `DELETE … WHERE …`. -/
def delete (table : Table key) (matching : ρ → Bool) : Table key :=
  ⟨table.rows.filter fun row => !matching row,
    table.primary.sublist (List.filter_sublist.map key)⟩

/-- The `RETURNING *` of that `UPDATE`. -/
def returning (table : Table key) (matching : ρ → Bool) (set : ρ → ρ) : List ρ :=
  (table.rows.filter matching).map set

variable {table : Table key} {row : ρ} {k : κ} {table' : Table key}

theorem eq_of_key_eq {first second : ρ} (left : first ∈ table.rows) (right : second ∈ table.rows)
    (same : key first = key second) : first = second :=
  List.inj_on_of_nodup_map table.primary left right same

theorem mem_returning {matching : ρ → Bool} {set : ρ → ρ} :
    row ∈ table.returning matching set ↔ ∃ old ∈ table.rows, matching old ∧ set old = row := by
  simp only [returning, List.mem_map, List.mem_filter, and_assoc]

theorem returning_keys_nodup (table : Table key) (matching : ρ → Bool) (set : ρ → ρ)
    (fixed : ∀ row, key (set row) = key row) : ((table.returning matching set).map key).Nodup := by
  have keys : (table.returning matching set).map key = (table.rows.filter matching).map key := by
    simp only [returning, List.map_map, Function.comp_def, fixed]
  rw [keys]
  exact table.primary.sublist (List.filter_sublist.map key)

variable [DecidableEq κ] {added : List ρ}

def find (table : Table key) (k : κ) : Option ρ :=
  table.rows.find? fun row => key row = k

/-- `INSERT`, refused when the primary key is taken. -/
def insert (table : Table key) (row : ρ) : Option (Table key) :=
  if absent : key row ∉ table.rows.map key then
    some ⟨table.rows ++ [row], by
      rw [List.map_append, List.nodup_append]
      refine ⟨table.primary, List.nodup_singleton _, ?_⟩
      intro k member k' single same
      simp only [List.map_cons, List.map_nil, List.mem_singleton] at single
      exact absent (single ▸ same ▸ member)⟩
  else none

theorem find_key (found : table.find k = some row) : key row = k := by
  have := List.find?_some found
  simpa using this

theorem mem_of_find (found : table.find k = some row) : row ∈ table.rows :=
  List.mem_of_find?_eq_some found

theorem find_of_mem (member : row ∈ table.rows) : table.find (key row) = some row := by
  cases found : table.find (key row) with
  | none =>
    have none := List.find?_eq_none.mp found row member
    simp at none
  | some =>
    rw [eq_of_key_eq (mem_of_find found) member (find_key found)]

theorem find_insert (inserted : table.insert row = some table') (k : κ) :
    table'.find k = (table.find k).or (if key row = k then some row else none) := by
  unfold insert at inserted
  split at inserted
  · cases inserted
    simp [find]
  · cases inserted

theorem insert_rows (inserted : table.insert row = some table') :
    table'.rows = table.rows ++ [row] := by
  unfold insert at inserted
  split at inserted
  · cases inserted
    rfl
  · cases inserted

theorem mem_insert (inserted : table.insert row = some table') : row ∈ table'.rows := by
  rw [insert_rows inserted]
  exact List.mem_append_right _ (List.mem_singleton_self row)

def insertAll (table : Table key) : List ρ → Option (Table key)
  | [] => some table
  | row :: rest => (table.insert row).bind fun table => insertAll table rest

theorem insertAll_rows (inserted : table.insertAll added = some table') :
    table'.rows = table.rows ++ added := by
  induction added generalizing table with
  | nil =>
    cases inserted
    rw [List.append_nil]
  | cons row rest ih =>
    obtain ⟨middle, first, later⟩ := Option.bind_eq_some_iff.mp inserted
    rw [ih later, insert_rows first, List.append_assoc, List.singleton_append]

theorem insertAll_of_nodup (distinct : ((table.rows ++ added).map key).Nodup) :
    ∃ table', table.insertAll added = some table' := by
  induction added generalizing table with
  | nil => exact ⟨table, rfl⟩
  | cons row rest ih =>
    have absent : key row ∉ table.rows.map key := by
      rw [List.map_append, List.map_cons] at distinct
      intro present
      exact (List.nodup_append.mp distinct).2.2 _ present _ List.mem_cons_self rfl
    have first : ∃ middle, table.insert row = some middle := by
      unfold insert
      rw [dif_pos absent]
      exact ⟨_, rfl⟩
    obtain ⟨middle, inserted⟩ := first
    have later : ((middle.rows ++ rest).map key).Nodup := by
      rwa [insert_rows inserted, List.append_assoc, List.singleton_append]
    obtain ⟨table', rest⟩ := ih later
    exact ⟨table', by rw [insertAll, inserted, Option.bind_some, rest]⟩

theorem find_insert_of_find {other : ρ} (inserted : table.insert row = some table')
    (found : table.find k = some other) : table'.find k = some other := by
  rw [find_insert inserted, found, Option.some_or]

/-- A statement that names a primary key returns the row under that key, if it meets the
rest of the condition. -/
theorem head?_returning_key (table : Table key) (k : κ) (rest : ρ → Bool) (set : ρ → ρ) :
    (table.returning (fun row => key row = k ∧ rest row) set).head? =
      ((table.find k).filter rest).map set := by
  obtain ⟨rows, primary⟩ := table
  simp only [returning, find, List.head?_map]
  congr 1
  induction rows with
  | nil => rfl
  | cons row rows ih =>
    rw [List.map_cons, List.nodup_cons] at primary
    by_cases here : key row = k
    · by_cases kept : rest row = true
      · simp [here, kept, Option.filter]
      · have others : rows.filter (fun row => decide (key row = k ∧ rest row = true)) = [] := by
          rw [List.filter_eq_nil_iff]
          intro other member
          have apart : key other ≠ k := by
            intro same
            exact primary.1 (List.mem_map.mpr ⟨other, member, same.trans here.symm⟩)
          simp [apart]
        rw [List.filter_cons_of_neg (by simp [kept]), others]
        simp [here, kept, Option.filter]
    · simpa [here] using ih primary.2

/-- A statement changes a row exactly when its condition holds of it. -/
theorem find_update (table : Table key) (matching : ρ → Bool) (set : ρ → ρ)
    (fixed : ∀ row, key (set row) = key row) (k : κ) : (table.update matching set fixed).find k =
      (table.find k).map fun row => if matching row then set row else row := by
  have same : ∀ row, key (if matching row then set row else row) = key row := by
    intro row
    by_cases matched : matching row <;> simp [matched, fixed]
  simp only [find, update, List.find?_map, Function.comp_def, same]

theorem find_delete (table : Table key) (matching : ρ → Bool) (k : κ) :
    (table.delete matching).find k = (table.find k).filter fun row => !matching row := by
  cases found : (table.delete matching).find k with
  | some row =>
    have kept := List.mem_filter.mp (mem_of_find found)
    have same : table.find k = some row := by
      rw [← find_key found]
      exact find_of_mem kept.1
    rw [same, Option.filter_some, if_pos kept.2]
  | none =>
    symm
    rw [Option.filter_eq_none_iff]
    intro row there kept
    have gone := List.find?_eq_none.mp found row (List.mem_filter.mpr ⟨mem_of_find there, kept⟩)
    exact gone (decide_eq_true (find_key there))

end Table

end NestApi
