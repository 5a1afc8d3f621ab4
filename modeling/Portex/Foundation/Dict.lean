import Mathlib.Data.List.Nodup
import Mathlib.Data.List.Basic
import Mathlib.Logic.Function.Basic

/-!
# Insertion-ordered dictionaries and object stores

A `Dict` is a finite map that remembers the order in which its keys were first inserted:
updating a key keeps its place, erasing it and inserting it again moves it to the end. A
`Heap` is a store of mutable objects named by their allocation number.

## Main definitions

* `Dict`, `Dict.get?`, `Dict.insert`, `Dict.erase`, `Dict.items`: ordered dictionaries
* `Dict.insertAll`, `Dict.ofItems`: the dictionary of some items
* `Heap`, `Heap.get?`, `Heap.alloc`, `Heap.modify`: object stores

## Main results

* `Dict.get?_insert`, `Dict.get?_erase`: lookups after an update
* `Dict.mem_items`: the entries are the lookups
* `Heap.get?_alloc`, `Heap.get?_modify`: objects after an update
* `Heap.get?_alloc_cases`, `Heap.get?_modify_cases`: which object it is
-/

namespace Foundation

universe u v w

/-! ## Dictionaries -/

/-- A finite map with its keys in insertion order. -/
structure Dict (κ : Type u) (ν : Type v) where
  /-- The keys, oldest first. -/
  keys : List κ
  /-- The value of each key. -/
  get? : κ → Option ν
  nodup : keys.Nodup
  isSome_get? : ∀ k, (get? k).isSome ↔ k ∈ keys

namespace Dict

variable {κ : Type u} {ν : Type v}

/-- The dictionary without entries. -/
def empty : Dict κ ν where
  keys := []
  get? _ := none
  nodup := List.nodup_nil
  isSome_get? := by simp

instance : EmptyCollection (Dict κ ν) := ⟨empty⟩

@[simp] theorem get?_empty (k : κ) : (∅ : Dict κ ν).get? k = none := rfl

@[simp] theorem keys_empty : (∅ : Dict κ ν).keys = [] := rfl

theorem get?_eq_none_iff (d : Dict κ ν) (k : κ) : d.get? k = none ↔ k ∉ d.keys := by
  rw [← d.isSome_get?, Option.not_isSome_iff_eq_none]

theorem mem_keys_iff (d : Dict κ ν) (k : κ) : k ∈ d.keys ↔ ∃ x, d.get? k = some x := by
  rw [← d.isSome_get?, Option.isSome_iff_exists]

theorem mem_keys_of_get? {d : Dict κ ν} {k : κ} {x : ν} (h : d.get? k = some x) : k ∈ d.keys :=
  (d.mem_keys_iff k).mpr ⟨x, h⟩

variable [DecidableEq κ]

/-- Membership of a key. -/
def contains (d : Dict κ ν) (k : κ) : Bool := (d.get? k).isSome

/-- Set the value of a key: an old key keeps its place, a new one goes last. -/
def insert (d : Dict κ ν) (k : κ) (x : ν) : Dict κ ν where
  keys := if (d.get? k).isSome then d.keys else d.keys ++ [k]
  get? := Function.update d.get? k (some x)
  nodup := by
    split
    · exact d.nodup
    · rename_i h
      rw [d.isSome_get?] at h
      exact List.nodup_append'.mpr ⟨d.nodup, List.nodup_singleton k, by simpa using h⟩
  isSome_get? j := by
    by_cases hj : j = k
    · subst hj
      split
      · rename_i h
        simpa using (d.isSome_get? j).mp h
      · simp
    · have hk := d.isSome_get? j
      split <;> simp [hk, hj]

/-- Drop a key. -/
def erase (d : Dict κ ν) (k : κ) : Dict κ ν where
  keys := d.keys.filter (· ≠ k)
  get? := Function.update d.get? k none
  nodup := d.nodup.filter _
  isSome_get? j := by
    by_cases hj : j = k
    · subst hj; simp
    · simp [d.isSome_get?, hj]

@[simp, grind =] theorem get?_insert (d : Dict κ ν) (k : κ) (x : ν) (j : κ) :
    (d.insert k x).get? j = if j = k then some x else d.get? j := by
  simp only [insert, Function.update_apply]

@[simp, grind =] theorem get?_erase (d : Dict κ ν) (k j : κ) :
    (d.erase k).get? j = if j = k then none else d.get? j := by
  simp only [erase, Function.update_apply]

theorem keys_insert_of_mem {d : Dict κ ν} {k : κ} {x y : ν} (h : d.get? k = some y) :
    (d.insert k x).keys = d.keys := by
  simp [insert, h]

theorem mem_keys_insert {d : Dict κ ν} {k : κ} {x : ν} {j : κ} :
    j ∈ (d.insert k x).keys ↔ j = k ∨ j ∈ d.keys := by
  rw [← isSome_get?, ← isSome_get?, get?_insert]
  by_cases hj : j = k <;> simp [hj]

theorem keys_erase (d : Dict κ ν) (k : κ) : (d.erase k).keys = d.keys.filter (· ≠ k) := rfl

omit [DecidableEq κ] in
@[ext] theorem ext {d e : Dict κ ν} (hk : d.keys = e.keys) (hg : ∀ k, d.get? k = e.get? k) :
    d = e := by
  cases d
  cases e
  obtain rfl := hk
  obtain rfl := funext hg
  rfl

theorem erase_of_get?_eq_none {d : Dict κ ν} {k : κ} (h : d.get? k = none) : d.erase k = d := by
  refine ext ?_ fun j => ?_
  · refine List.filter_eq_self.mpr fun j hj => ?_
    rw [get?_eq_none_iff] at h
    exact decide_eq_true fun hjk => h (hjk ▸ hj)
  · rw [get?_erase]
    split
    · rename_i hj
      rw [hj, h]
    · rfl

/-- The entries, oldest key first. -/
def items (d : Dict κ ν) : List (κ × ν) :=
  d.keys.filterMap fun k => (d.get? k).map fun x => (k, x)

omit [DecidableEq κ] in
theorem mem_items {d : Dict κ ν} {k : κ} {x : ν} : (k, x) ∈ d.items ↔ d.get? k = some x := by
  simp only [items, List.mem_filterMap, Option.map_eq_some_iff, Prod.mk.injEq]
  constructor
  · rintro ⟨j, -, y, hy, rfl, rfl⟩
    exact hy
  · intro h
    exact ⟨k, mem_keys_of_get? h, x, h, rfl, rfl⟩

omit [DecidableEq κ] in
theorem map_fst_items (d : Dict κ ν) : d.items.map Prod.fst = d.keys := by
  have key : ∀ l : List κ, (∀ k ∈ l, k ∈ d.keys) →
      (l.filterMap fun k => (d.get? k).map fun x => (k, x)).map Prod.fst = l := by
    intro l
    induction l with
    | nil => intro _; rfl
    | cons k l ih =>
      intro h
      obtain ⟨x, hx⟩ := (d.mem_keys_iff k).mp (h k List.mem_cons_self)
      rw [List.filterMap_cons_some (by rw [hx]; rfl), List.map_cons,
        ih fun j hj => h j (List.mem_cons_of_mem k hj)]
  exact key d.keys fun _ h => h

omit [DecidableEq κ] in
theorem nodup_items (d : Dict κ ν) : d.items.Nodup :=
  List.Nodup.of_map Prod.fst (d.map_fst_items ▸ d.nodup)

/-- The value of a key, or a default: `setdefault` reads this. -/
def getD (d : Dict κ ν) (k : κ) (x : ν) : ν := (d.get? k).getD x

/-- Insert a default where the key is missing. -/
def setdefault (d : Dict κ ν) (k : κ) (x : ν) : Dict κ ν :=
  if (d.get? k).isSome then d else d.insert k x

@[grind =] theorem get?_setdefault (d : Dict κ ν) (k : κ) (x : ν) (j : κ) :
    (d.setdefault k x).get? j = if j = k then some (d.getD k x) else d.get? j := by
  unfold setdefault getD
  split
  · rename_i h
    obtain ⟨y, hy⟩ := Option.isSome_iff_exists.mp h
    split <;> simp_all
  · rename_i h
    rw [Option.not_isSome_iff_eq_none] at h
    simp [h]

/-! ### Items of another dictionary -/

/-- `dict.update(items)`: the items are inserted one after the other. -/
def insertAll (d : Dict κ ν) (items : List (κ × ν)) : Dict κ ν :=
  items.foldl (fun d item => d.insert item.1 item.2) d

/-- The dictionary of some items, of which a later one replaces an earlier one of its key. -/
def ofItems (items : List (κ × ν)) : Dict κ ν := insertAll ∅ items

@[simp] theorem insertAll_nil (d : Dict κ ν) : d.insertAll [] = d := rfl

@[simp] theorem insertAll_cons (d : Dict κ ν) (item : κ × ν) (items : List (κ × ν)) :
    d.insertAll (item :: items) = (d.insert item.1 item.2).insertAll items := rfl

theorem get?_insertAll_of_notMem {d : Dict κ ν} {items : List (κ × ν)} {k : κ}
    (h : k ∉ items.map Prod.fst) : (d.insertAll items).get? k = d.get? k := by
  induction items generalizing d with
  | nil => rfl
  | cons item items ih =>
    simp only [List.map_cons, List.mem_cons, not_or] at h
    rw [insertAll_cons, ih h.2, get?_insert, if_neg h.1]

/-- **Items with different keys** are all found. -/
theorem get?_insertAll_of_mem {d : Dict κ ν} {items : List (κ × ν)} {k : κ} {x : ν}
    (hnodup : (items.map Prod.fst).Nodup) (hmem : (k, x) ∈ items) :
    (d.insertAll items).get? k = some x := by
  induction items generalizing d with
  | nil => cases hmem
  | cons item items ih =>
    rw [List.map_cons, List.nodup_cons] at hnodup
    rcases List.mem_cons.mp hmem with rfl | hmem
    · rw [insertAll_cons, get?_insertAll_of_notMem hnodup.1, get?_insert, if_pos rfl]
    · exact ih hnodup.2 hmem

theorem get?_ofItems {items : List (κ × ν)} (hnodup : (items.map Prod.fst).Nodup) {k : κ} {x : ν} :
    (ofItems items).get? k = some x ↔ (k, x) ∈ items := by
  constructor
  · intro h
    by_cases hk : k ∈ items.map Prod.fst
    · obtain ⟨⟨j, y⟩, hmem, rfl⟩ := List.mem_map.mp hk
      have hy : (ofItems items).get? j = some y := get?_insertAll_of_mem hnodup hmem
      rw [hy] at h
      obtain rfl := Option.some.inj h
      exact hmem
    · rw [ofItems, get?_insertAll_of_notMem hk] at h
      cases h
  · exact get?_insertAll_of_mem hnodup

/-- **The last item of a key** is the one that is found, whatever the keys. -/
theorem get?_insertAll_last (d : Dict κ ν) (items : List (κ × ν)) (k : κ) :
    (d.insertAll items).get? k =
      ((items.reverse.find? fun item => item.1 = k).map Prod.snd).or (d.get? k) := by
  induction items generalizing d with
  | nil => rfl
  | cons item items ih =>
    rw [insertAll_cons, ih, List.reverse_cons, List.find?_append, get?_insert]
    cases items.reverse.find? fun item => item.1 = k with
    | some found => rfl
    | none =>
      by_cases hk : k = item.1
      · simp [hk]
      · simp [hk, Ne.symm hk]

/-- Items found are items inserted, whatever the keys. -/
theorem get?_insertAll_cases {d : Dict κ ν} {items : List (κ × ν)} {k : κ} {x : ν}
    (h : (d.insertAll items).get? k = some x) : d.get? k = some x ∨ (k, x) ∈ items := by
  induction items generalizing d with
  | nil => exact .inl h
  | cons item items ih =>
    rcases ih h with h | h
    · rw [get?_insert] at h
      split at h
      · rename_i hk
        obtain rfl := Option.some.inj h
        exact .inr (by rw [hk]; exact List.mem_cons_self)
      · exact .inl h
    · exact .inr (List.mem_cons_of_mem _ h)

theorem items_insert_of_notMem {d : Dict κ ν} {k : κ} {x : ν} (h : k ∉ d.keys) :
    (d.insert k x).items = d.items ++ [(k, x)] := by
  have hkeys : (d.insert k x).keys = d.keys ++ [k] := by
    exact if_neg (by rwa [d.isSome_get?])
  unfold items
  rw [hkeys, List.filterMap_append]
  congr 1
  · refine List.filterMap_congr fun j hj => ?_
    rw [get?_insert, if_neg (ne_of_mem_of_not_mem hj h)]
  · simp

/-- **Items with different keys** are entered in their order. -/
theorem items_ofItems {items : List (κ × ν)} (hnodup : (items.map Prod.fst).Nodup) :
    (ofItems items).items = items := by
  have key (d : Dict κ ν) (hd : ∀ item ∈ items, item.1 ∉ d.keys) :
      (d.insertAll items).items = d.items ++ items := by
    induction items generalizing d with
    | nil => exact (List.append_nil _).symm
    | cons item items ih =>
      rw [List.map_cons, List.nodup_cons] at hnodup
      rw [insertAll_cons, ih hnodup.2, items_insert_of_notMem (hd item List.mem_cons_self),
        List.append_assoc, List.singleton_append]
      intro other hother hkey
      rcases mem_keys_insert.mp hkey with heq | hmem
      · exact hnodup.1 (heq ▸ List.mem_map_of_mem hother)
      · exact hd other (List.mem_cons_of_mem _ hother) hmem
  exact key ∅ fun _ _ => List.not_mem_nil

/-- Inserting some items is inserting the dictionary of them. -/
theorem get?_insertAll (d : Dict κ ν) {items : List (κ × ν)} (hnodup : (items.map Prod.fst).Nodup)
    (k : κ) : (d.insertAll items).get? k = ((ofItems items).get? k).or (d.get? k) := by
  by_cases hk : k ∈ items.map Prod.fst
  · obtain ⟨⟨j, y⟩, hmem, rfl⟩ := List.mem_map.mp hk
    rw [get?_insertAll_of_mem hnodup hmem, (get?_ofItems hnodup).mpr hmem, Option.some_or]
  · rw [get?_insertAll_of_notMem hk, ofItems, get?_insertAll_of_notMem hk, get?_empty,
      Option.none_or]

/-- The dictionary of the entries of a dictionary. -/
theorem get?_ofItems_items (d : Dict κ ν) (k : κ) : (ofItems d.items).get? k = d.get? k := by
  have hnodup : (d.items.map Prod.fst).Nodup := d.map_fst_items ▸ d.nodup
  refine Option.ext fun x => ?_
  rw [get?_ofItems hnodup, mem_items]

end Dict

/-! ## Object stores -/

/-- Mutable objects, named by their allocation number. -/
structure Heap (α : Type u) where
  cells : List α

namespace Heap

variable {α : Type u}

instance : EmptyCollection (Heap α) := ⟨⟨[]⟩⟩

/-- The number of the next object. -/
def size (h : Heap α) : ℕ := h.cells.length

def get? (h : Heap α) (i : ℕ) : Option α := h.cells[i]?

/-- A new object, under the number `h.size`. -/
def alloc (h : Heap α) (a : α) : Heap α := ⟨h.cells ++ [a]⟩

/-- Change an object in place. -/
def modify (h : Heap α) (i : ℕ) (f : α → α) : Heap α := ⟨h.cells.modify i f⟩

@[simp] theorem get?_empty (i : ℕ) : (∅ : Heap α).get? i = none := rfl

@[simp] theorem size_alloc (h : Heap α) (a : α) : (h.alloc a).size = h.size + 1 := by
  simp [size, alloc]

@[simp] theorem size_modify (h : Heap α) (i : ℕ) (f : α → α) : (h.modify i f).size = h.size := by
  simp [size, modify]

theorem get?_eq_none_iff (h : Heap α) (i : ℕ) : h.get? i = none ↔ h.size ≤ i :=
  List.getElem?_eq_none_iff

theorem lt_size_of_get? {h : Heap α} {i : ℕ} {a : α} (hi : h.get? i = some a) : i < h.size := by
  by_contra hlt
  rw [(h.get?_eq_none_iff i).mpr (Nat.le_of_not_lt hlt)] at hi
  cases hi

@[simp, grind =] theorem get?_alloc (h : Heap α) (a : α) (i : ℕ) :
    (h.alloc a).get? i = if i = h.size then some a else h.get? i := by
  unfold alloc get? size
  rw [List.getElem?_append]
  split
  · rename_i hi
    rw [if_neg (by omega)]
  · rename_i hi
    split
    · rename_i he
      simp [he]
    · rw [List.getElem?_eq_none (by simp; omega), List.getElem?_eq_none (by omega)]

@[simp, grind =] theorem get?_modify (h : Heap α) (i : ℕ) (f : α → α) (j : ℕ) :
    (h.modify i f).get? j = if j = i then (h.get? j).map f else h.get? j := by
  unfold modify get?
  rw [List.getElem?_modify]
  by_cases hij : i = j
  · simp [hij]
  · simp [hij, Ne.symm hij]

/-- An object of a store is the one made last, or an earlier one. -/
theorem get?_alloc_cases {h : Heap α} {a b : α} {i : ℕ} (hi : (h.alloc a).get? i = some b) :
    (i = h.size ∧ a = b) ∨ h.get? i = some b := by
  rw [get?_alloc] at hi
  split at hi
  · exact .inl ⟨‹_›, Option.some.inj hi⟩
  · exact .inr hi

/-- An object of a store is the one that was changed, or another one, as it was. -/
theorem get?_modify_cases {h : Heap α} {f : α → α} {b : α} {i j : ℕ}
    (hj : (h.modify i f).get? j = some b) :
    (∃ a, h.get? j = some a ∧ i = j ∧ f a = b) ∨ (j ≠ i ∧ h.get? j = some b) := by
  rw [get?_modify] at hj
  split at hj
  · rename_i hij
    obtain ⟨a, ha, hb⟩ := Option.map_eq_some_iff.mp hj
    exact .inl ⟨a, ha, hij.symm, hb⟩
  · exact .inr ⟨‹_›, hj⟩

theorem map_cells_modify {β : Type v} (g : α → β) (f : α → α) (hf : ∀ a, g (f a) = g a)
    (h : Heap α) (i : ℕ) : (h.modify i f).cells.map g = h.cells.map g := by
  apply List.ext_getElem?
  intro j
  have hj := h.get?_modify i f j
  unfold get? at hj
  rw [List.getElem?_map, List.getElem?_map, hj]
  split
  · cases h.cells[j]? <;> simp [hf]
  · rfl

/-- The total weight of the objects. -/
def total (g : α → ℕ) (h : Heap α) : ℕ := h.cells.foldr (fun a n => g a + n) 0

theorem total_alloc (g : α → ℕ) (h : Heap α) (a : α) : (h.alloc a).total g = h.total g + g a := by
  obtain ⟨cells⟩ := h
  unfold total alloc
  induction cells with
  | nil => simp
  | cons b cells ih =>
    simp only [List.cons_append, List.foldr_cons] at ih ⊢
    omega

/-- A change in place changes one summand. -/
theorem total_modify (g : α → ℕ) {h : Heap α} {i : ℕ} {a : α} (hi : h.get? i = some a)
    (f : α → α) : (h.modify i f).total g + g a = h.total g + g (f a) := by
  obtain ⟨cells⟩ := h
  unfold get? at hi
  unfold total modify
  induction cells generalizing i with
  | nil => cases hi
  | cons b cells ih =>
    cases i with
    | zero =>
      obtain rfl := Option.some.inj hi
      simp
      omega
    | succ i =>
      have htail := ih hi
      simp only [List.modify_succ_cons, List.foldr_cons] at htail ⊢
      omega

end Heap

end Foundation
