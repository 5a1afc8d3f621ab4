import Portex.Foundation.Dict
import Mathlib.Data.List.Basic
import Mathlib.Data.List.Perm.Basic

/-!
# What objects leave behind

Objects of a store leave entries, at most one each. The entries are those of a list up to their
order, also after an object has left one.

## Main definitions

* `Heap.entries`: what the objects have left

## Main results

* `Heap.entries_alloc`, `Heap.entries_modify_of_eq`: what leaves nothing
* `Heap.entries_modify_perm`: an object leaves an entry
-/

namespace Foundation

universe u v

variable {α : Type u} {β : Type v}

theorem filterMap_set_perm {f : α → Option β} {l : List α} {i : ℕ} {a a' : α} {b : β}
    (ha : l[i]? = some a) (hbefore : f a = none) (hafter : f a' = some b) :
    ((l.set i a').filterMap f).Perm (l.filterMap f ++ [b]) := by
  induction l generalizing i with
  | nil => cases ha
  | cons c l ih =>
    cases i with
    | zero =>
      obtain rfl := Option.some.inj ha
      rw [List.set_cons_zero, List.filterMap_cons_some hafter, List.filterMap_cons_none hbefore]
      exact (List.perm_append_singleton b _).symm
    | succ i =>
      rw [List.set_cons_succ, List.filterMap_cons, List.filterMap_cons]
      cases f c with
      | none => exact ih ha
      | some d => exact (ih ha).cons d

namespace Heap

/-- What the objects have left, in the order in which they were made. -/
def entries (f : α → Option β) (h : Heap α) : List β := h.cells.filterMap f

variable {f : α → Option β} {h : Heap α} {i : ℕ} {a a' : α} {b : β}

/-- A new object has left nothing yet. -/
theorem entries_alloc (ha : f a = none) : (h.alloc a).entries f = h.entries f := by
  unfold entries alloc
  rw [List.filterMap_append, List.filterMap_cons_none ha, List.filterMap_nil, List.append_nil]

theorem cells_modify_const (ha : h.get? i = some a) :
    (h.modify i fun _ => a').cells = h.cells.set i a' := by
  apply List.ext_getElem?
  intro j
  have hj := h.get?_modify i (fun _ => a') j
  unfold get? at hj ha
  rw [hj, List.getElem?_set]
  by_cases hij : i = j
  · subst hij
    simp [(List.getElem?_eq_some_iff.mp ha).1]
  · simp [hij, Ne.symm hij]

/-- A change that leaves nothing new. -/
theorem entries_modify_of_eq (ha : h.get? i = some a) (hsame : f a' = f a) :
    (h.modify i fun _ => a').entries f = h.entries f := by
  unfold entries
  rw [cells_modify_const ha]
  have ha : h.cells[i]? = some a := ha
  obtain ⟨hi, rfl⟩ := List.getElem?_eq_some_iff.mp ha
  conv_rhs => rw [← List.set_getElem_self hi]
  simp only [List.set_eq_take_append_cons_drop, if_pos hi, List.filterMap_append,
    List.filterMap_cons, hsame]

/-- **An object leaves an entry.** -/
theorem entries_modify_perm (ha : h.get? i = some a) (hbefore : f a = none)
    (hafter : f a' = some b) :
    ((h.modify i fun _ => a').entries f).Perm (h.entries f ++ [b]) := by
  unfold entries
  rw [cells_modify_const ha]
  exact filterMap_set_perm ha hbefore hafter

end Heap

end Foundation
