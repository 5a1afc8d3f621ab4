import Portex.Foundation.Dict

/-!
# Indexes of a table

A dictionary indexes the rows of a table by a key that no two of them share. Rows are added at the
end, and changed where they are.

## Main definitions

* `Indexes`: the items of the dictionary are the rows, by their keys
* `replaceRow`: a row in the place of the one with its key

## Main results

* `Indexes.get?_eq`: a lookup is a search in the table
* `Indexes.add`, `Indexes.replace`: what keeps an index up to date
-/

namespace Foundation

universe u v w

variable {κ : Type u} {ν : Type v} {ρ : Type w}

/-- The items of the dictionary are the rows of the table, by their keys. -/
def Indexes (d : Dict κ ν) (rows : List ρ) (key : ρ → κ) (value : ρ → ν) : Prop :=
  d.items = rows.map fun row => (key row, value row)

variable {d : Dict κ ν} {rows : List ρ} {key : ρ → κ} {value : ρ → ν} {row row' : ρ}

theorem Indexes.keys_eq (h : Indexes d rows key value) : d.keys = rows.map key := by
  rw [← d.map_fst_items, h, List.map_map]
  rfl

theorem Indexes.nodup (h : Indexes d rows key value) : (rows.map key).Nodup :=
  h.keys_eq ▸ d.nodup

theorem Indexes.values_eq (h : Indexes d rows key value) :
    d.items.map Prod.snd = rows.map value := by
  rw [h, List.map_map]
  rfl

theorem indexes_empty (key : ρ → κ) (value : ρ → ν) : Indexes ∅ ([] : List ρ) key value := rfl

/-- No two rows have one key. -/
theorem Indexes.eq_of_key (h : Indexes d rows key value) (hrow : row ∈ rows) (hrow' : row' ∈ rows)
    (hkey : key row = key row') : row = row' :=
  List.inj_on_of_nodup_map h.nodup hrow hrow' hkey

theorem Indexes.get?_of_mem (h : Indexes d rows key value) (hrow : row ∈ rows) :
    d.get? (key row) = some (value row) := by
  rw [← Dict.mem_items, h]
  exact List.mem_map_of_mem hrow

variable [DecidableEq κ]

/-- The row that is found by its key. -/
theorem Indexes.find?_eq_some (h : Indexes d rows key value) (hrow : row ∈ rows) :
    rows.find? (key · = key row) = some row := by
  cases hfind : rows.find? (key · = key row) with
  | none =>
    have hnone := List.find?_eq_none.mp hfind row hrow
    simp at hnone
  | some found =>
    have hkey : key found = key row := by simpa using List.find?_some hfind
    rw [h.eq_of_key (List.mem_of_find?_eq_some hfind) hrow hkey]

/-- **A lookup** is a search in the table. -/
theorem Indexes.get?_eq (h : Indexes d rows key value) (k : κ) :
    d.get? k = (rows.find? (key · = k)).map value := by
  cases hfind : rows.find? (key · = k) with
  | none =>
    rw [Option.map_none, Dict.get?_eq_none_iff, h.keys_eq]
    intro hk
    obtain ⟨row, hrow, rfl⟩ := List.mem_map.mp hk
    have hnone := List.find?_eq_none.mp hfind row hrow
    simp at hnone
  | some row =>
    have hkey : key row = k := by simpa using List.find?_some hfind
    rw [← hkey, h.get?_of_mem (List.mem_of_find?_eq_some hfind), Option.map_some]

/-! ## Updates -/

/-- **A new row.** -/
theorem Indexes.add (h : Indexes d rows key value) (row : ρ) (hnew : key row ∉ rows.map key) :
    Indexes (d.insert (key row) (value row)) (rows ++ [row]) key value := by
  unfold Indexes
  rw [Dict.items_insert_of_notMem (h.keys_eq ▸ hnew), h, List.map_append]
  rfl

/-- A row in the place of the one with its key. -/
def replaceRow (rows : List ρ) (key : ρ → κ) (row : ρ) : List ρ :=
  rows.map fun old => if key old = key row then row else old

theorem items_insert_of_mem {k : κ} {x : ν} (hk : k ∈ d.keys) :
    (d.insert k x).items = d.items.map fun item => if item.1 = k then (k, x) else item := by
  obtain ⟨y, hy⟩ := (d.mem_keys_iff k).mp hk
  unfold Dict.items
  rw [Dict.keys_insert_of_mem hy, List.map_filterMap]
  apply List.filterMap_congr
  intro j _
  rw [Dict.get?_insert]
  by_cases hj : j = k
  · rw [if_pos hj, hj, hy]
    simp
  · rw [if_neg hj]
    cases d.get? j with
    | none => rfl
    | some z => simp [hj]

/-- **A changed row.** An index by another key than that of the change is kept up to date, as long
as the changed row keeps that key too. -/
theorem Indexes.replace {κ' : Type u} [DecidableEq κ'] (h : Indexes d rows key value)
    (key' : ρ → κ') (row' : ρ) (hrow : row ∈ rows) (hkey : key row' = key row)
    (hkey' : ∀ old ∈ rows, key' old = key' row' ↔ key old = key row) :
    Indexes (d.insert (key row) (value row')) (replaceRow rows key' row') key value := by
  unfold Indexes replaceRow
  rw [items_insert_of_mem (by rw [h.keys_eq]; exact List.mem_map_of_mem hrow), h, List.map_map,
    List.map_map]
  apply List.map_congr_left
  intro old hold
  simp only [Function.comp_apply, hkey' old hold]
  split
  · rw [hkey]
  · rfl

end Foundation
