import Portex.Foundation.Path
import Mathlib.Data.List.DropRight
import Mathlib.Data.List.TakeWhile
import Mathlib.Tactic.Common

/-!
# Texts and the ends of texts

What is dropped from the ends of a text, and the segments of a text between slashes. Neither slashes
at the ends nor empty segments matter, so that the segments of a text can be read off its parts.

## Main definitions

* `segments`: the names of a path

## Main results

* `rdropWhile_append_of_mem`, `rdropWhile_cons_of_false`: what is dropped from an end
* `segments_append_slash`: the segments of a text are those of its parts
* `segments_dropWhile`, `segments_rdropWhile`: slashes at the ends
-/

namespace Foundation

universe u

section Ends

variable {α : Type u} {p q : α → Bool} {xs ys : List α} {x : α}

theorem dropWhile_congr (h : ∀ x ∈ xs, p x = q x) : xs.dropWhile p = xs.dropWhile q := by
  induction xs with
  | nil => rfl
  | cons x xs ih =>
    rw [List.dropWhile_cons, List.dropWhile_cons, h x List.mem_cons_self,
      ih fun y hy => h y (List.mem_cons_of_mem x hy)]

/-- An element that is not dropped keeps what stands before it. -/
theorem rdropWhile_cons_of_false (h : p x = false) (xs : List α) :
    (x :: xs).rdropWhile p = x :: xs.rdropWhile p := by
  unfold List.rdropWhile
  rw [List.reverse_cons, List.dropWhile_append]
  split
  · rename_i hempty
    rw [List.isEmpty_iff.mp hempty, List.dropWhile_cons, if_neg (by simp [h])]
    rfl
  · rw [List.reverse_append]
    rfl

theorem rdropWhile_append_of_mem (hmem : x ∈ ys) (hx : p x = false) :
    (xs ++ ys).rdropWhile p = xs ++ ys.rdropWhile p := by
  have hne : (ys.reverse.dropWhile p).isEmpty = false := by
    rw [Bool.eq_false_iff]
    intro hempty
    have hall := List.dropWhile_eq_nil_iff.mp (List.isEmpty_iff.mp hempty) x
      (List.mem_reverse.mpr hmem)
    rw [hx] at hall
    cases hall
  unfold List.rdropWhile
  rw [List.reverse_append, List.dropWhile_append, if_neg (by simp [hne]), List.reverse_append,
    List.reverse_reverse]

/-- An element that is not dropped keeps what stands behind it. -/
theorem dropWhile_append_cons_of_false (h : p x = false) (xs ys : List α) :
    (xs ++ x :: ys).dropWhile p = xs.dropWhile p ++ x :: ys := by
  rw [List.dropWhile_append]
  split
  · rename_i hempty
    rw [List.isEmpty_iff.mp hempty, List.dropWhile_cons, if_neg (by simp [h])]
    rfl
  · rfl

end Ends

/-! ## Segments -/

/-- The segments between slashes but the empty ones and `.`. -/
def segments (text : List Char) : List Name :=
  (text.splitOn '/').filter fun name => name ≠ [] ∧ name ≠ ['.']

theorem segments_of_parse (text : String) : (PurePath.parse text).names = segments text.toList :=
  rfl

variable {text : List Char}

@[simp] theorem segments_nil : segments [] = [] := by decide

@[simp] theorem segments_dot : segments ['.'] = [] := by decide

theorem segments_append_slash (before after : List Char) :
    segments (before ++ '/' :: after) = segments before ++ segments after := by
  unfold segments
  rw [List.splitOn_append_cons_self, List.filter_append]

theorem segments_cons_slash (text : List Char) : segments ('/' :: text) = segments text :=
  segments_append_slash [] text

theorem segments_concat_slash (text : List Char) : segments (text ++ ['/']) = segments text := by
  rw [segments_append_slash, segments_nil, List.append_nil]

/-- Slashes at the start do not matter. -/
theorem segments_dropWhile (text : List Char) :
    segments (text.dropWhile (· = '/')) = segments text := by
  induction text with
  | nil => rfl
  | cons ch text ih =>
    rw [List.dropWhile_cons]
    split
    · rename_i hslash
      obtain rfl : ch = '/' := of_decide_eq_true hslash
      rw [ih, segments_cons_slash]
    · rfl

/-- Slashes at the end do not matter. -/
theorem segments_rdropWhile (text : List Char) :
    segments (text.rdropWhile (· = '/')) = segments text := by
  induction text using List.reverseRecOn with
  | nil => rfl
  | append_singleton text ch ih =>
    rw [List.rdropWhile_concat]
    split
    · rename_i hslash
      obtain rfl : ch = '/' := of_decide_eq_true hslash
      rw [ih, segments_concat_slash]
    · rfl

/-- A text without slashes is one segment. -/
theorem segments_of_notMem (h : '/' ∉ text) (hempty : text ≠ []) (hdot : text ≠ ['.']) :
    segments text = [text] := by
  unfold segments
  rw [List.splitOn_eq_singleton h]
  simp [hempty, hdot]

theorem segments_eq_nil_of (h : text = [] ∨ text = ['.']) : segments text = [] := by
  rcases h with rfl | rfl
  · exact segments_nil
  · exact segments_dot

end Foundation
