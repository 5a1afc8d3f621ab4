import Mathlib.Data.List.Infix
import Mathlib.Algebra.BigOperators.Group.List.Basic
import Mathlib.Algebra.GroupWithZero.Nat
import Mathlib.Tactic.Common

/-!
# The longest suffix within a limit

A buffer that keeps the newest elements of a sequence, as many as a limit on their total size
allows. The suffixes of a list lie within each other and their weights grow with them, so there
is a longest one; and it can be kept up to date from itself, without the elements it has lost.

## Main definitions

* `weight`: the total size of a list
* `IsWindow`: the longest suffix within a limit
* `window`: that suffix, computed

## Main results

* `isWindow_window`, `IsWindow.eq_window`: there is exactly one
* `window_window_append`: it is kept up to date from itself
-/

namespace Foundation

universe u

variable {α : Type u} {size : α → ℕ} {limit : ℕ} {xs ys zs : List α}

/-- The total size of a list. -/
def weight (size : α → ℕ) (xs : List α) : ℕ := (xs.map size).sum

@[simp] theorem weight_nil : weight size [] = 0 := rfl

@[simp] theorem weight_cons (x : α) : weight size (x :: xs) = size x + weight size xs := by
  simp [weight]

@[simp] theorem weight_append : weight size (xs ++ ys) = weight size xs + weight size ys := by
  simp [weight]

/-- `ys` is the longest suffix of `xs` whose weight is at most the limit. -/
structure IsWindow (size : α → ℕ) (limit : ℕ) (xs ys : List α) : Prop where
  suffix : ys <:+ xs
  fits : weight size ys ≤ limit
  longest : ∀ zs, zs <:+ xs → weight size zs ≤ limit → zs <:+ ys

/-- The longest suffix whose weight is at most the limit. -/
def window (size : α → ℕ) (limit : ℕ) : List α → List α
  | [] => []
  | x :: xs => if weight size (x :: xs) ≤ limit then x :: xs else window size limit xs

theorem window_of_le (h : weight size xs ≤ limit) : window size limit xs = xs := by
  cases xs with
  | nil => rfl
  | cons x xs => exact if_pos h

theorem window_cons_of_lt {x : α} (h : limit < weight size (x :: xs)) :
    window size limit (x :: xs) = window size limit xs :=
  if_neg (Nat.not_le.mpr h)

theorem isWindow_window (size : α → ℕ) (limit : ℕ) (xs : List α) :
    IsWindow size limit xs (window size limit xs) := by
  induction xs with
  | nil => exact ⟨List.suffix_refl [], by simp [window], fun zs hzs _ => hzs⟩
  | cons x xs ih =>
    by_cases h : weight size (x :: xs) ≤ limit
    · rw [window_of_le h]
      exact ⟨List.suffix_refl _, h, fun zs hzs _ => hzs⟩
    · rw [window_cons_of_lt (Nat.not_le.mp h)]
      refine ⟨ih.suffix.trans (List.suffix_cons x xs), ih.fits, fun zs hzs hfits => ?_⟩
      rcases List.suffix_cons_iff.mp hzs with rfl | hzs
      · exact absurd hfits h
      · exact ih.longest zs hzs hfits

theorem IsWindow.unique (h : IsWindow size limit xs ys) (h' : IsWindow size limit xs zs) :
    ys = zs := by
  have hyz : ys <:+ zs := h'.longest ys h.suffix h.fits
  have hzy : zs <:+ ys := h.longest zs h'.suffix h'.fits
  exact hyz.eq_of_length (Nat.le_antisymm hyz.length_le hzy.length_le)

theorem IsWindow.eq_window (h : IsWindow size limit xs ys) : ys = window size limit xs :=
  h.unique (isWindow_window size limit xs)

/-- Nothing is dropped exactly where everything fits. -/
theorem window_eq_self_iff : window size limit xs = xs ↔ weight size xs ≤ limit := by
  refine ⟨fun h => ?_, window_of_le⟩
  have hfits := (isWindow_window size limit xs).fits
  rwa [h] at hfits

/-- **Updates.** The window of a longer list is a window of the window and what was added. -/
theorem window_window_append (xs ys : List α) :
    window size limit (window size limit xs ++ ys) = window size limit (xs ++ ys) := by
  induction xs with
  | nil => rfl
  | cons x xs ih =>
    by_cases h : weight size (x :: xs) ≤ limit
    · rw [window_of_le h]
    · -- The first element is dropped before the update, and would be dropped after it.
      have hlt : limit < weight size (x :: (xs ++ ys)) := by
        have hle : weight size (x :: xs) ≤ weight size (x :: (xs ++ ys)) := by simp
        omega
      rw [window_cons_of_lt (Nat.not_le.mp h), List.cons_append, window_cons_of_lt hlt, ih]

/-- An update has dropped something where the window had before, or the update does. -/
theorem window_append_eq_self_iff :
    window size limit (xs ++ ys) = xs ++ ys ↔
      window size limit xs = xs ∧ window size limit (xs ++ ys) = window size limit xs ++ ys := by
  constructor
  · intro h
    have hle := window_eq_self_iff.mp h
    rw [weight_append] at hle
    have hxs : window size limit xs = xs := window_of_le (by omega)
    exact ⟨hxs, by rw [h, hxs]⟩
  · rintro ⟨hxs, h⟩
    rwa [hxs] at h

end Foundation
