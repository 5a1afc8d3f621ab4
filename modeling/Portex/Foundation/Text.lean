import Mathlib.Data.List.Basic

/-!
# Texts and their characters

A string built around a separator is taken apart again at the last separator, where what follows
it holds none.

## Main results

* `append_cons_inj`, `append_separator_inj`: the parts around the last separator are determined
* `forall_of_all`: the characters of a text are checked one after another
-/

namespace Foundation

universe u

/-- A check of the characters of a text. -/
theorem forall_of_all {p : Char → Prop} [DecidablePred p] {text : List Char}
    (h : (text.all fun ch => decide (p ch)) = true) : ∀ ch ∈ text, p ch := by
  simpa using h

/-- What precedes and what follows the last `a` of a list. -/
theorem append_cons_inj {α : Type u} {x y z w : List α} {a : α} (hz : a ∉ z) (hw : a ∉ w)
    (h : x ++ a :: z = y ++ a :: w) : x = y ∧ z = w := by
  rcases List.append_eq_append_iff.mp h with ⟨v, rfl, hv⟩ | ⟨v, rfl, hv⟩
  · cases v with
    | nil => simpa using hv
    | cons b v =>
      obtain ⟨-, rfl⟩ := List.cons.inj hv
      exact absurd (by simp) hz
  · cases v with
    | nil => simpa [eq_comm] using hv
    | cons b v =>
      obtain ⟨-, rfl⟩ := List.cons.inj hv
      exact absurd (by simp) hw

/-- The same of strings: `sep` holds one character, and the tails do not hold it. -/
theorem append_separator_inj {s t u v sep : String} {a : Char} (hsep : sep.toList = [a])
    (hu : a ∉ u.toList) (hv : a ∉ v.toList) (h : s ++ sep ++ u = t ++ sep ++ v) :
    s = t ∧ u = v := by
  have h := congrArg String.toList h
  simp only [String.toList_append, hsep, List.append_assoc, List.singleton_append] at h
  obtain ⟨hs, ht⟩ := append_cons_inj hu hv h
  exact ⟨String.toList_inj.mp hs, String.toList_inj.mp ht⟩

end Foundation
