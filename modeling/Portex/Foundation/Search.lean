import Mathlib.Data.List.Infix
import Mathlib.Tactic.Common

/-!
# Searching in a list

The first and the last place where one list occurs in another, and what an occurrence can be in a
list with a separator that it does not hold.

## Main definitions

* `find?`, `rfind?`: the first and the last occurrence

## Main results

* `find?_eq_some`, `rfind?_eq_some`: what they find
* `split_at_separator`: an occurrence is on one side of a separator
-/

namespace Foundation

universe u

variable {α : Type u} [DecidableEq α]

/-- The first place where `sub` occurs. -/
def find? (sub : List α) : List α → Option ℕ
  | [] => if sub = [] then some 0 else none
  | a :: rest =>
    if sub.isPrefixOf (a :: rest) then some 0 else (find? sub rest).map (· + 1)

/-- The last place where `sub` occurs. -/
def rfind? (sub : List α) : List α → Option ℕ
  | [] => if sub = [] then some 0 else none
  | a :: rest =>
    match rfind? sub rest with
    | some i => some (i + 1)
    | none => if sub.isPrefixOf (a :: rest) then some 0 else none

variable {sub text : List α}

theorem find?_eq_none (h : find? sub text = none) : ¬ sub <:+: text := by
  induction text with
  | nil =>
    rintro hwithin
    simp [find?, List.infix_nil.mp hwithin] at h
  | cons a rest ih =>
    unfold find? at h
    split at h
    · cases h
    · rename_i hinitial
      rw [List.infix_cons_iff]
      rintro (hwithin | hwithin)
      · exact hinitial (List.isPrefixOf_iff_prefix.mpr hwithin)
      · exact ih (Option.map_eq_none_iff.mp h) hwithin

theorem rfind?_eq_none (h : rfind? sub text = none) : ¬ sub <:+: text := by
  induction text with
  | nil =>
    rintro hwithin
    simp [rfind?, List.infix_nil.mp hwithin] at h
  | cons a rest ih =>
    unfold rfind? at h
    split at h
    · cases h
    · rename_i hrest
      split at h
      · cases h
      · rename_i hinitial
        rw [List.infix_cons_iff]
        rintro (hwithin | hwithin)
        · exact hinitial (List.isPrefixOf_iff_prefix.mpr hwithin)
        · exact ih hrest hwithin

/-- What the first place is: no occurrence has less before it. -/
theorem find?_eq_some {i : ℕ} (h : find? sub text = some i) :
    (∃ before after, text = before ++ sub ++ after ∧ before.length = i) ∧
      ∀ before after, text = before ++ sub ++ after → i ≤ before.length := by
  induction text generalizing i with
  | nil =>
    unfold find? at h
    split at h
    · rename_i hsub
      obtain rfl := Option.some.inj h
      exact ⟨⟨[], [], by simp [hsub], rfl⟩, fun _ _ _ => Nat.zero_le _⟩
    · cases h
  | cons a rest ih =>
    unfold find? at h
    split at h
    · rename_i hinitial
      obtain rfl := Option.some.inj h
      obtain ⟨after, hafter⟩ := List.isPrefixOf_iff_prefix.mp hinitial
      exact ⟨⟨[], after, hafter.symm, rfl⟩, fun _ _ _ => Nat.zero_le _⟩
    · rename_i hinitial
      obtain ⟨j, hj, rfl⟩ := Option.map_eq_some_iff.mp h
      obtain ⟨⟨before, after, hrest, rfl⟩, hleast⟩ := ih hj
      refine ⟨⟨a :: before, after, by simp [hrest], rfl⟩, fun other after' hother => ?_⟩
      cases other with
      | nil => exact absurd (List.isPrefixOf_iff_prefix.mpr ⟨after', hother.symm⟩) hinitial
      | cons b other =>
        exact Nat.succ_le_succ (hleast other after' (List.cons.inj hother).2)

/-- What the last place is: no occurrence has more before it. -/
theorem rfind?_eq_some {i : ℕ} (h : rfind? sub text = some i) :
    (∃ before after, text = before ++ sub ++ after ∧ before.length = i) ∧
      ∀ before after, text = before ++ sub ++ after → before.length ≤ i := by
  induction text generalizing i with
  | nil =>
    unfold rfind? at h
    split at h
    · rename_i hsub
      obtain rfl := Option.some.inj h
      refine ⟨⟨[], [], by simp [hsub], rfl⟩, fun before after hsplit => ?_⟩
      have hlength := congrArg List.length hsplit
      simp only [List.length_nil, List.length_append] at hlength
      omega
    · cases h
  | cons a rest ih =>
    unfold rfind? at h
    split at h
    · rename_i j hj
      obtain rfl := Option.some.inj h
      obtain ⟨⟨before, after, hrest, rfl⟩, hgreatest⟩ := ih hj
      refine ⟨⟨a :: before, after, by simp [hrest], rfl⟩, fun other after' hother => ?_⟩
      cases other with
      | nil => exact Nat.zero_le _
      | cons b other =>
        exact Nat.succ_le_succ (hgreatest other after' (List.cons.inj hother).2)
    · rename_i hrest
      split at h
      · rename_i hinitial
        obtain rfl := Option.some.inj h
        obtain ⟨after, hafter⟩ := List.isPrefixOf_iff_prefix.mp hinitial
        refine ⟨⟨[], after, hafter.symm, rfl⟩, fun other after' hother => ?_⟩
        cases other with
        | nil => exact Nat.le_refl _
        | cons b other =>
          exact absurd ⟨other, after', (List.cons.inj hother).2.symm⟩ (rfind?_eq_none hrest)
      · cases h

omit [DecidableEq α] in
/-- **An occurrence is on one side of a separator** that it does not hold. -/
theorem split_at_separator {x y before after : List α} {a : α} (ha : a ∉ sub) (hsub : sub ≠ [])
    (h : x ++ a :: y = before ++ sub ++ after) :
    (∃ rest, x = before ++ sub ++ rest ∧ after = rest ++ a :: y) ∨
      ∃ rest, before = x ++ a :: rest ∧ y = rest ++ sub ++ after := by
  rw [List.append_assoc] at h
  rcases List.append_eq_append_iff.mp h with ⟨v, rfl, hv⟩ | ⟨v, rfl, hv⟩
  · cases v with
    | nil =>
      -- The occurrence would start with the separator.
      cases sub with
      | nil => exact absurd rfl hsub
      | cons b sub =>
        obtain ⟨rfl, -⟩ := List.cons.inj hv
        exact absurd List.mem_cons_self ha
    | cons b v =>
      obtain ⟨rfl, hy⟩ := List.cons.inj hv
      exact .inr ⟨v, rfl, hy.trans (List.append_assoc v sub after).symm⟩
  · rcases List.append_eq_append_iff.mp hv with ⟨w, rfl, hw⟩ | ⟨w, rfl, hw⟩
    · exact .inl ⟨w, by rw [List.append_assoc], hw⟩
    · cases w with
      | nil =>
        refine .inl ⟨[], by simp, ?_⟩
        simpa using hw.symm
      | cons b w =>
        obtain ⟨rfl, -⟩ := List.cons.inj hw
        exact absurd (by simp) ha

end Foundation
