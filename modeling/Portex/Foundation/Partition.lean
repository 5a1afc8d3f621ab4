import Mathlib.Algebra.BigOperators.Group.List.Lemmas
import Mathlib.Algebra.GroupWithZero.Nat
import Mathlib.Data.List.Count
import Mathlib.Tactic.Common

/-!
# Predicates that partition another

A family of predicates, one for each of finitely many kinds, such that what satisfies `p` satisfies
just one of them, and nothing else satisfies any: they are `p` together with a kind.

## Main definitions

* `Partitions`: a family of predicates that partitions another

## Main results

* `Partitions.existsUnique`: what satisfies `p` satisfies just one of the family
* `Partitions.sum_countP`: in every list, the parts add up
-/

namespace Foundation

universe u v

variable {α : Type u} {κ : Type v}

/-- The predicates `q` are `p`, split by kind. -/
def Partitions (q : κ → α → Bool) (p : α → Bool) : Prop :=
  ∃ kind : α → κ, ∀ k x, q k x = true ↔ p x = true ∧ kind x = k

theorem sum_map_eq_count [DecidableEq κ] (a : κ) (kinds : List κ) :
    (kinds.map fun k => if a = k then 1 else 0).sum = kinds.count a := by
  induction kinds with
  | nil => rfl
  | cons k kinds ih =>
    rw [List.map_cons, List.sum_cons, ih, List.count_cons, Nat.add_comm]
    by_cases hak : a = k
    · simp [hak]
    · simp [hak, Ne.symm hak]

namespace Partitions

variable {q : κ → α → Bool} {p : α → Bool}

theorem existsUnique (h : Partitions q p) {x : α} (hx : p x = true) : ∃! k, q k x = true := by
  obtain ⟨kind, hkind⟩ := h
  exact ⟨kind x, (hkind _ _).mpr ⟨hx, rfl⟩, fun k hk => ((hkind k x).mp hk).2.symm⟩

theorem eq_false (h : Partitions q p) {x : α} (hx : p x = false) (k : κ) : q k x = false := by
  obtain ⟨kind, hkind⟩ := h
  rw [← Bool.not_eq_true, hkind]
  rintro ⟨hp, -⟩
  rw [hx] at hp
  cases hp

/-- One element adds one to the parts together, or nothing. -/
theorem sum_map_ite (h : Partitions q p) {kinds : List κ} (hnodup : kinds.Nodup)
    (hall : ∀ k, k ∈ kinds) (x : α) :
    (kinds.map fun k => if q k x then 1 else 0).sum = if p x then 1 else 0 := by
  classical
  obtain ⟨kind, hkind⟩ := h
  cases hp : p x with
  | false =>
    have hzero : ∀ k, q k x = false := Partitions.eq_false ⟨kind, hkind⟩ hp
    simp [hzero]
  | true =>
    have hone : ∀ k, q k x = decide (kind x = k) := fun k => by
      rw [Bool.eq_iff_iff, hkind, hp, decide_eq_true_iff, and_iff_right rfl]
    have hcount : kinds.count (kind x) = 1 := List.count_eq_one_of_mem hnodup (hall _)
    simp only [hone, decide_eq_true_eq, if_true]
    rw [sum_map_eq_count, hcount]

/-- **Counts.** In every list, the parts add up to the whole. -/
theorem sum_countP (h : Partitions q p) (kinds : List κ) (hnodup : kinds.Nodup)
    (hall : ∀ k, k ∈ kinds) (l : List α) :
    (kinds.map fun k => l.countP (q k)).sum = l.countP p := by
  induction l with
  | nil => simp
  | cons x l ih =>
    simp only [List.countP_cons, List.sum_map_add]
    rw [ih, h.sum_map_ite hnodup hall]

end Partitions

end Foundation
