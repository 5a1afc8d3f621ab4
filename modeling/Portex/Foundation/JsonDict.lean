import Portex.Foundation.Dict
import Portex.Foundation.JsonWriter

/-!
# Dictionaries as JSON objects

A dictionary is written as an object, and read back as a dictionary with the same values, in the
order of its names. Values that differ only in the order of names are the same.

## Main definitions

* `reread`: the dictionary that is read where one is written
* `WrittenDict`: the dictionaries whose numbers are written as numbers
* `SameDict`: dictionaries with the same values

## Main results

* `get?_reread`: what is read back of a value
* `sorted_object_items`: a dictionary as it is written
-/

namespace Foundation

universe u

variable {ν : Type u}

/-- The dictionary that is read where one is written. -/
def reread (dict : Dict (List Char) Json) : Dict (List Char) Json :=
  .ofItems ((sortedMembers dict.items).insertionSort nameLE)

def WrittenDict (dict : Dict (List Char) Json) : Prop := WrittenMembers dict.items

/-- The same names with the same values, up to the order of names within them. -/
def SameDict (dict dict' : Dict (List Char) Json) : Prop :=
  ∀ name, (dict.get? name).map Json.sorted = (dict'.get? name).map Json.sorted

theorem SameDict.refl (dict : Dict (List Char) Json) : SameDict dict dict := fun _ => rfl

theorem SameDict.symm {dict dict' : Dict (List Char) Json} (h : SameDict dict dict') :
    SameDict dict' dict := fun name => (h name).symm

theorem SameDict.trans {dict dict' dict'' : Dict (List Char) Json} (h : SameDict dict dict')
    (h' : SameDict dict' dict'') : SameDict dict dict'' := fun name => (h name).trans (h' name)

theorem writtenDict_iff {dict : Dict (List Char) Json} :
    WrittenDict dict ↔ ∀ name value, dict.get? name = some value → value.Written := by
  unfold WrittenDict
  rw [writtenMembers_iff]
  constructor
  · intro h name value hget
    exact h (name, value) (Dict.mem_items.mpr hget)
  · rintro h ⟨name, value⟩ hmem
    exact h name value (Dict.mem_items.mp hmem)

theorem writtenDict_ofItems {items : List (List Char × Json)}
    (h : ∀ item ∈ items, item.2.Written) : WrittenDict (.ofItems items) := by
  rw [writtenDict_iff]
  intro name value hget
  rcases Dict.get?_insertAll_cases hget with hnone | hmem
  · cases hnone
  · exact h (name, value) hmem

theorem sorted_object_items (dict : Dict (List Char) Json) :
    (Json.object dict.items).sorted = .object ((sortedMembers dict.items).insertionSort nameLE) :=
  rfl

/-- Sorting keeps the names. -/
theorem names_sorted_nodup {members : List (List Char × Json)}
    (h : (members.map Prod.fst).Nodup) :
    (((sortedMembers members).insertionSort nameLE).map Prod.fst).Nodup := by
  have hperm := (List.perm_insertionSort nameLE (sortedMembers members)).map Prod.fst
  have hnames : (sortedMembers members).map Prod.fst = members.map Prod.fst := by
    rw [sortedMembers_eq, List.map_map]
    rfl
  exact (hperm.nodup_iff).mpr (hnames ▸ h)

theorem mem_sorted {members : List (List Char × Json)} {name : List Char} {value : Json} :
    (name, value) ∈ (sortedMembers members).insertionSort nameLE ↔
      ∃ value', (name, value') ∈ members ∧ value'.sorted = value := by
  rw [List.mem_insertionSort, sortedMembers_eq, List.mem_map]
  constructor
  · rintro ⟨⟨name', value'⟩, hmem, heq⟩
    obtain ⟨rfl, rfl⟩ := Prod.mk.inj heq
    exact ⟨value', hmem, rfl⟩
  · rintro ⟨value', hmem, rfl⟩
    exact ⟨(name, value'), hmem, rfl⟩

/-- The dictionary of sorted members has the sorted values. -/
theorem get?_ofItems_sorted {members : List (List Char × Json)} (h : (members.map Prod.fst).Nodup)
    (name : List Char) :
    (Dict.ofItems ((sortedMembers members).insertionSort nameLE)).get? name =
      ((Dict.ofItems members).get? name).map Json.sorted := by
  refine Option.ext fun value => ?_
  rw [Dict.get?_ofItems (names_sorted_nodup h), mem_sorted, Option.map_eq_some_iff]
  constructor
  · rintro ⟨value', hmem, heq⟩
    exact ⟨value', (Dict.get?_ofItems h).mpr hmem, heq⟩
  · rintro ⟨value', hget, heq⟩
    exact ⟨value', (Dict.get?_ofItems h).mp hget, heq⟩

/-- **What is read back of a value** is the value, sorted. -/
theorem get?_reread (dict : Dict (List Char) Json) (name : List Char) :
    (reread dict).get? name = (dict.get? name).map Json.sorted := by
  have hnodup : (dict.items.map Prod.fst).Nodup := dict.map_fst_items ▸ dict.nodup
  rw [reread, get?_ofItems_sorted hnodup, Dict.get?_ofItems_items]

theorem sameDict_reread (dict : Dict (List Char) Json) : SameDict (reread dict) dict := by
  intro name
  rw [get?_reread, Option.map_map]
  congr 1
  funext value
  exact value.sorted_sorted

end Foundation
