import Mathlib.Data.List.Basic

/-!
# Final elements

A list in which only the last element may be final: the streams that say once how they end.

## Main definitions

* `FinalLast final l`: nothing follows a final element of `l`

## Main results

* `finalLast_append_singleton`: what may be appended
* `finalLast_filterMap`: the lists whose image is such a list
* `FinalLast.length_filter_le`: there is at most one final element
-/

namespace Foundation

variable {α β : Type*} {final : α → Prop} {l m : List α} {a : α}

/-- Nothing follows a final element. -/
def FinalLast (final : α → Prop) (l : List α) : Prop :=
  ∀ l₁ a l₂, l = l₁ ++ a :: l₂ → final a → l₂ = []

/-- Nothing final comes before another element. -/
theorem FinalLast.not_final (h : FinalLast final (l ++ m)) (hm : m ≠ []) : ∀ a ∈ l, ¬ final a := by
  intro a ha hfinal
  obtain ⟨l₁, l₂, rfl⟩ := List.append_of_mem ha
  have hnil := h l₁ a (l₂ ++ m) (by simp) hfinal
  exact hm (List.append_eq_nil_iff.mp hnil).2

theorem finalLast_of_not_final (h : ∀ a ∈ l, ¬ final a) : FinalLast final l := by
  rintro l₁ a l₂ rfl ha
  exact absurd ha (h a (by simp))

theorem finalLast_append_singleton : FinalLast final (l ++ [a]) ↔ ∀ b ∈ l, ¬ final b := by
  refine ⟨fun h => h.not_final (List.cons_ne_nil a []), fun h l₁ b l₂ heq hb => ?_⟩
  rcases List.eq_nil_or_concat l₂ with rfl | ⟨l₂, c, rfl⟩
  · rfl
  · -- Then the final element is one of those before.
    have hinit : l = l₁ ++ b :: l₂ := by
      rw [List.concat_eq_append, ← List.cons_append, ← List.append_assoc] at heq
      exact (List.append_inj' heq rfl).1
    exact absurd hb (h b (by simp [hinit]))

/-- A list that is of this kind has nothing final, or ends with what is. -/
theorem finalLast_iff : FinalLast final l ↔
    (∀ a ∈ l, ¬ final a) ∨ ∃ m a, l = m ++ [a] ∧ final a ∧ ∀ b ∈ m, ¬ final b := by
  constructor
  · intro h
    rcases List.eq_nil_or_concat l with rfl | ⟨m, a, rfl⟩
    · exact .inl fun a ha => absurd ha (List.not_mem_nil)
    · rw [List.concat_eq_append] at h ⊢
      have hm := finalLast_append_singleton.mp h
      by_cases ha : final a
      · exact .inr ⟨m, a, rfl, ha, hm⟩
      · refine .inl fun b hb => ?_
        rcases List.mem_append.mp hb with hb | hb
        · exact hm b hb
        · exact List.mem_singleton.mp hb ▸ ha
  · rintro (h | ⟨m, a, rfl, -, hm⟩)
    · exact finalLast_of_not_final h
    · exact finalLast_append_singleton.mpr hm

/-- There is at most one final element. -/
theorem FinalLast.length_filter_le [DecidablePred final] (h : FinalLast final l) :
    (l.filter fun a => final a).length ≤ 1 := by
  have hnone {m : List α} (hm : ∀ a ∈ m, ¬ final a) : (m.filter fun a => final a) = [] :=
    List.filter_eq_nil_iff.mpr fun a ha => by simpa using hm a ha
  rcases finalLast_iff.mp h with hall | ⟨m, a, rfl, -, hm⟩
  · rw [hnone hall]
    exact Nat.zero_le 1
  · rw [List.filter_append, hnone hm, List.nil_append]
    exact List.length_filter_le _ _

/-- The lists whose image has its final element last: what is not in the image does not count. -/
theorem finalLast_filterMap {f : β → Option α} {l : List β} :
    FinalLast final (l.filterMap f) ↔
      ∀ l₁ b l₂, l = l₁ ++ b :: l₂ → (∃ a ∈ f b, final a) → ∀ c ∈ l₂, f c = none := by
  constructor
  · rintro h l₁ b l₂ rfl ⟨a, ha, hfinal⟩ c hc
    have hnil := h (l₁.filterMap f) a (l₂.filterMap f)
      (by rw [List.filterMap_append, List.filterMap_cons_some ha]) hfinal
    exact List.filterMap_eq_nil_iff.mp hnil c hc
  · intro h l₁ a l₂ heq hfinal
    obtain ⟨m₁, m₂, rfl, -, hm₂⟩ := List.filterMap_eq_append_iff.mp heq
    obtain ⟨n₁, b, n₂, rfl, -, hb, hn₂⟩ := List.filterMap_eq_cons_iff.mp hm₂
    rw [← hn₂]
    refine List.filterMap_eq_nil_iff.mpr fun c hc => ?_
    exact h (m₁ ++ n₁) b n₂ (by simp) ⟨a, hb, hfinal⟩ c hc

end Foundation
