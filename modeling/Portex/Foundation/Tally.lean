import Portex.Foundation.Dict
import Mathlib.Algebra.BigOperators.Group.Finset.Basic
import Mathlib.Algebra.GroupWithZero.Nat
import Mathlib.Data.Finset.Card

/-!
# Counting by a key

Items are counted in dictionaries with a default, under a key of each item, and those of a key are
put together into sets. What the counts of all keys add up to is the count of all items, and the
sets add up to their union just where no two of them meet.

## Main definitions

* `Dict.modifyD`: the update of a dictionary with a default

## Main results

* `sum_countP_key`: the items of all keys are all items
* `sum_card_fibers`, `card_image_snd_eq_iff`: when sets of different keys add up to their union
-/

namespace Foundation

universe u v w

variable {α : Type u} {κ : Type v} {ν : Type w} [DecidableEq κ]

/-! ## Defaults -/

namespace Dict

/-- `d[k] = f(d[k])`, in a `defaultdict` whose default is `x`. -/
def modifyD (d : Dict κ ν) (k : κ) (x : ν) (f : ν → ν) : Dict κ ν := d.insert k (f (d.getD k x))

omit [DecidableEq κ] in
@[simp] theorem getD_empty (k : κ) (x : ν) : (∅ : Dict κ ν).getD k x = x := rfl

theorem getD_modifyD (d : Dict κ ν) (k : κ) (x : ν) (f : ν → ν) (j : κ) :
    (d.modifyD k x f).getD j x = if j = k then f (d.getD j x) else d.getD j x := by
  unfold modifyD getD
  rw [get?_insert]
  split
  · rename_i h
    rw [h]
    rfl
  · rfl

theorem mem_keys_modifyD {d : Dict κ ν} {k : κ} {x : ν} {f : ν → ν} {j : κ} :
    j ∈ (d.modifyD k x f).keys ↔ j = k ∨ j ∈ d.keys := by
  unfold modifyD
  rw [mem_keys_insert]

end Dict

/-! ## Sums over the keys -/

theorem sum_ite_key {keys : List κ} (hnodup : keys.Nodup) {k : κ} (hk : k ∈ keys) :
    (keys.map fun j => if k = j then 1 else 0).sum = 1 := by
  induction keys with
  | nil => cases hk
  | cons j keys ih =>
    obtain ⟨hnot, hrest⟩ := List.nodup_cons.mp hnodup
    rw [List.map_cons, List.sum_cons]
    rcases List.mem_cons.mp hk with rfl | hlater
    · have hzero : (keys.map fun j => if k = j then 1 else 0) = keys.map fun _ => 0 := by
        apply List.map_congr_left
        intro j hj
        rw [if_neg]
        rintro rfl
        exact hnot hj
      simp [hzero]
    · have hne : k ≠ j := by
        rintro rfl
        exact hnot hlater
      rw [if_neg hne, ih hrest hlater]

/-- **The items of all keys** are all items. -/
theorem sum_countP_key (key : α → κ) (p : α → Bool) {keys : List κ} (hnodup : keys.Nodup)
    {items : List α} (hkeys : ∀ a ∈ items, key a ∈ keys) :
    (keys.map fun k => items.countP fun a => key a = k ∧ p a = true).sum = items.countP p := by
  induction items with
  | nil => simp
  | cons a items ih =>
    have hrest := ih fun b hb => hkeys b (List.mem_cons_of_mem _ hb)
    by_cases ha : p a = true
    · have hcons (k : κ) : (a :: items).countP (fun a => key a = k ∧ p a = true) =
          items.countP (fun a => key a = k ∧ p a = true) + if key a = k then 1 else 0 := by
        rw [List.countP_cons]
        simp [ha]
      simp only [hcons]
      rw [List.sum_map_add, hrest, sum_ite_key hnodup (hkeys a List.mem_cons_self),
        List.countP_cons_of_pos ha]
    · have hcons (k : κ) : (a :: items).countP (fun a => key a = k ∧ p a = true) =
          items.countP (fun a => key a = k ∧ p a = true) := by
        rw [List.countP_cons]
        simp [ha]
      simp only [hcons]
      rw [hrest, List.countP_cons_of_neg ha]

theorem sum_countP_eq_length (key : α → κ) {keys : List κ} (hnodup : keys.Nodup) {items : List α}
    (hkeys : ∀ a ∈ items, key a ∈ keys) :
    (keys.map fun k => items.countP fun a => key a = k).sum = items.length := by
  have hsum := sum_countP_key key (fun _ => true) hnodup hkeys
  simpa using hsum

variable [DecidableEq ν]

/-- The sets of the keys add up to the number of pairs. -/
theorem sum_card_fibers {pairs : Finset (κ × ν)} {keys : List κ} (hnodup : keys.Nodup)
    (hkeys : ∀ pair ∈ pairs, pair.1 ∈ keys) :
    (keys.map fun k => ((pairs.filter (·.1 = k)).image Prod.snd).card).sum = pairs.card := by
  have hfiber (k : κ) : ((pairs.filter (·.1 = k)).image Prod.snd).card =
      (pairs.filter (·.1 = k)).card := by
    apply Finset.card_image_of_injOn
    intro pair hpair pair' hpair' heq
    have hfirst := (Finset.mem_filter.mp (Finset.mem_coe.mp hpair)).2
    have hfirst' := (Finset.mem_filter.mp (Finset.mem_coe.mp hpair')).2
    exact Prod.ext (hfirst.trans hfirst'.symm) heq
  have hmaps : ∀ pair ∈ pairs, pair.1 ∈ keys.toFinset := fun pair hpair =>
    List.mem_toFinset.mpr (hkeys pair hpair)
  simp only [hfiber]
  rw [Finset.card_eq_sum_card_fiberwise hmaps, List.sum_toFinset _ hnodup]

omit [DecidableEq κ] in
/-- **The union is as large as the sets together** if and only if nothing is in two of them. -/
theorem card_image_snd_eq_iff {pairs : Finset (κ × ν)} :
    (pairs.image Prod.snd).card = pairs.card ↔
      ∀ pair ∈ pairs, ∀ pair' ∈ pairs, pair.2 = pair'.2 → pair.1 = pair'.1 := by
  rw [Finset.card_image_iff]
  constructor
  · intro hinj pair hpair pair' hpair' heq
    exact congrArg Prod.fst (hinj (Finset.mem_coe.mpr hpair) (Finset.mem_coe.mpr hpair') heq)
  · intro hfirst pair hpair pair' hpair' heq
    exact Prod.ext (hfirst pair (Finset.mem_coe.mp hpair) pair' (Finset.mem_coe.mp hpair') heq) heq

end Foundation
