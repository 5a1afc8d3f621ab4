import Portex.Foundation.Dict

/-!
# Tables with a primary key

A table holds at most one row for each key, and finds every row under its own key.

## Main definitions

* `Table key`: the tables whose rows have the primary key `key`
* `Table.get?`, `Table.put`, `Table.erase`, `Table.rows`: lookups and updates

## Main results

* `Table.get?_put`, `Table.get?_erase`: lookups after an update
* `Table.mem_rows`: the rows are the lookups
-/

namespace Foundation

universe u v

variable {κ : Type u} {ρ : Type v}

/-- Rows by their primary key. -/
structure Table (key : ρ → κ) where
  /-- The rows, in the order of their insertion. -/
  dict : Dict κ ρ
  key_eq : ∀ k row, dict.get? k = some row → key row = k

namespace Table

variable {key : ρ → κ}

instance : EmptyCollection (Table key) := ⟨⟨∅, fun _ _ h => by cases h⟩⟩

def get? (table : Table key) (k : κ) : Option ρ := table.dict.get? k

def rows (table : Table key) : List ρ := table.dict.items.map Prod.snd

@[simp] theorem get?_empty (k : κ) : (∅ : Table key).get? k = none := rfl

theorem key_of_get? {table : Table key} {k : κ} {row : ρ} (h : table.get? k = some row) :
    key row = k :=
  table.key_eq k row h

theorem mem_rows {table : Table key} {row : ρ} :
    row ∈ table.rows ↔ table.get? (key row) = some row := by
  unfold rows
  rw [List.mem_map]
  constructor
  · rintro ⟨⟨k, row⟩, hmem, rfl⟩
    have hget := Dict.mem_items.mp hmem
    rwa [get?, table.key_eq k row hget]
  · intro h
    exact ⟨(key row, row), Dict.mem_items.mpr h, rfl⟩

theorem mem_rows_of_get? {table : Table key} {k : κ} {row : ρ} (h : table.get? k = some row) :
    row ∈ table.rows := by
  rw [mem_rows, key_of_get? h, h]

/-- No two rows have one key. -/
theorem nodup_map_key (table : Table key) : (table.rows.map key).Nodup := by
  have hkeys : table.rows.map key = table.dict.keys := by
    rw [rows, List.map_map, ← Dict.map_fst_items]
    apply List.map_congr_left
    rintro ⟨k, row⟩ hmem
    exact table.key_eq k row (Dict.mem_items.mp hmem)
  rw [hkeys]
  exact table.dict.nodup

theorem nodup_rows (table : Table key) : table.rows.Nodup := table.nodup_map_key.of_map

theorem eq_of_key_eq {table : Table key} {row row' : ρ} (hrow : row ∈ table.rows)
    (hrow' : row' ∈ table.rows) (hkey : key row = key row') : row = row' := by
  rw [mem_rows] at hrow hrow'
  rw [hkey, hrow'] at hrow
  exact (Option.some.inj hrow).symm

variable [DecidableEq κ]

/-- Insert a row, or replace the row with its key. -/
def put (table : Table key) (row : ρ) : Table key where
  dict := table.dict.insert (key row) row
  key_eq k row' h := by
    rw [Dict.get?_insert] at h
    split at h
    · rename_i hk
      rw [← Option.some.inj h, hk]
    · exact table.key_eq k row' h

def erase (table : Table key) (k : κ) : Table key where
  dict := table.dict.erase k
  key_eq j row h := by
    rw [Dict.get?_erase] at h
    split at h
    · cases h
    · exact table.key_eq j row h

@[simp] theorem get?_put (table : Table key) (row : ρ) (k : κ) :
    (table.put row).get? k = if k = key row then some row else table.get? k :=
  Dict.get?_insert _ _ _ _

@[simp] theorem get?_erase (table : Table key) (k j : κ) :
    (table.erase k).get? j = if j = k then none else table.get? j :=
  Dict.get?_erase _ _ _

theorem get?_put_of_ne {table : Table key} {row : ρ} {k : κ} (h : k ≠ key row) :
    (table.put row).get? k = table.get? k := by
  rw [get?_put, if_neg h]

theorem get?_put_self (table : Table key) (row : ρ) : (table.put row).get? (key row) = some row := by
  rw [get?_put, if_pos rfl]

theorem mem_rows_put {table : Table key} {row row' : ρ} :
    row' ∈ (table.put row).rows ↔ row' = row ∨ (key row' ≠ key row ∧ row' ∈ table.rows) := by
  rw [mem_rows, mem_rows, get?_put]
  split
  · rename_i hk
    simp [hk, eq_comm]
  · rename_i hk
    constructor
    · exact fun h => .inr ⟨hk, h⟩
    · rintro (rfl | ⟨-, h⟩)
      · exact absurd rfl hk
      · exact h

end Table

end Foundation
