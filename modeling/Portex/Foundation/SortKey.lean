import Mathlib.Data.List.Sort
import Mathlib.Data.Prod.Lex
import Mathlib.Tactic.Common

/-!
# Sorting by a key

Items are put in the order of a key. Where no two items have one key, the result is a matter of the
items alone.

## Main definitions

* `sortedBy`: the items in the order of a key

## Main results

* `eq_sortedBy_iff`: what the result is where the keys are different
* `first_sortedBy`: the first of the items that satisfy a predicate
* `sortedBy_eq_reverse_iff`: when the reversal of one of two keys reverses the result
-/

namespace Foundation

universe u v w

variable {α : Type u} {κ : Type v} {ι : Type w} [LinearOrder κ] [LinearOrder ι] {key : α → κ}
  {items items' : List α} {a : α}

/-- `sorted(items, key=key)`. -/
def sortedBy (key : α → κ) (items : List α) : List α :=
  items.insertionSort fun a b => key a ≤ key b

theorem sortedBy_perm (key : α → κ) (items : List α) : (sortedBy key items).Perm items :=
  List.perm_insertionSort _ _

@[simp] theorem mem_sortedBy : a ∈ sortedBy key items ↔ a ∈ items :=
  (sortedBy_perm key items).mem_iff

@[simp] theorem length_sortedBy : (sortedBy key items).length = items.length :=
  (sortedBy_perm key items).length_eq

theorem pairwise_sortedBy (key : α → κ) (items : List α) :
    (sortedBy key items).Pairwise fun a b => key a ≤ key b := by
  have : Std.Total fun a b : α => key a ≤ key b := ⟨fun a b => le_total (key a) (key b)⟩
  have : IsTrans α fun a b => key a ≤ key b := ⟨fun _ _ _ => le_trans⟩
  exact List.pairwise_insertionSort _ _

/-- Where no two items have one key, the keys go up at each item. -/
theorem pairwise_lt_sortedBy (hkeys : (items.map key).Nodup) :
    (sortedBy key items).Pairwise fun a b => key a < key b := by
  have hnodup : ((sortedBy key items).map key).Nodup :=
    ((sortedBy_perm key items).map key).nodup_iff.mpr hkeys
  have hne := List.pairwise_map.mp hnodup
  exact ((pairwise_sortedBy key items).and hne).imp fun h => lt_of_le_of_ne h.1 h.2

/-- The first item that satisfies a predicate has the least key of those that do. -/
theorem find?_sortedBy {p : α → Bool} (h : (sortedBy key items).find? p = some a) :
    a ∈ items ∧ p a = true ∧ ∀ b ∈ items, p b = true → key a ≤ key b := by
  obtain ⟨hp, before, after, heq, hbefore⟩ := List.find?_eq_some_iff_append.mp h
  have hsorted := pairwise_sortedBy key items
  rw [heq] at hsorted
  have hafter := (List.pairwise_cons.mp (List.pairwise_append.mp hsorted).2.1).1
  refine ⟨mem_sortedBy.mp (List.mem_of_find?_eq_some h), hp, fun b hitem hpb => ?_⟩
  have hb : b ∈ sortedBy key items := mem_sortedBy.mpr hitem
  rw [heq] at hb
  rcases List.mem_append.mp hb with hb | hb
  · -- What comes before it does not satisfy the predicate.
    have hnot := hbefore b hb
    rw [hpb] at hnot
    cases hnot
  · rcases List.mem_cons.mp hb with rfl | hb
    · exact le_rfl
    · exact hafter b hb

/-- What the key looks at can be taken of the items first. -/
theorem map_sortedBy {β : Type u} (f : β → α) (key : α → κ) (items : List β) :
    (sortedBy (fun b => key (f b)) items).map f = sortedBy key (items.map f) :=
  List.map_insertionSort _ _ f items fun _ _ _ _ => Iff.rfl

/-! ## Different keys -/

/-- **The result** is the one permutation of the items in which the keys go up. -/
theorem eq_sortedBy_iff (hkeys : (items.map key).Nodup) :
    items' = sortedBy key items ↔ items'.Perm items ∧ items'.Pairwise fun a b => key a < key b := by
  constructor
  · rintro rfl
    exact ⟨sortedBy_perm key items, pairwise_lt_sortedBy hkeys⟩
  · rintro ⟨hperm, hsorted⟩
    apply (hperm.trans (sortedBy_perm key items).symm).eq_of_pairwise
      (fun a b _ _ hab hba => absurd hab (lt_asymm hba)) hsorted
    exact pairwise_lt_sortedBy hkeys

/-- The first of the items that satisfy a predicate: of those that are left out, each comes behind
all of them, and there are as many of them as were asked for. -/
theorem first_sortedBy (hkeys : (items.map key).Nodup) (p : α → Bool) (n : ℕ) :
    let first := ((sortedBy key items).filter p).take n
    first.Pairwise (fun a b => key a < key b) ∧ (∀ a ∈ first, a ∈ items ∧ p a = true) ∧
      (∀ a ∈ items, p a = true → a ∉ first → first.length = n ∧ ∀ b ∈ first, key b < key a) ∧
      (n < ((sortedBy key items).filter p).length ↔ ∃ a ∈ items, p a = true ∧ a ∉ first) := by
  have hsorted : ((sortedBy key items).filter p).Pairwise fun a b => key a < key b :=
    (pairwise_lt_sortedBy hkeys).sublist List.filter_sublist
  have hmem (a : α) : a ∈ (sortedBy key items).filter p ↔ a ∈ items ∧ p a = true := by
    rw [List.mem_filter, mem_sortedBy]
  generalize (sortedBy key items).filter p = found at hsorted hmem
  rw [← List.take_append_drop n found] at hsorted
  obtain ⟨hfirst, -, hacross⟩ := List.pairwise_append.mp hsorted
  have hrest {a : α} (ha : a ∈ items) (hp : p a = true) (hnot : a ∉ found.take n) :
      a ∈ found.drop n := by
    have hfound := (hmem a).mpr ⟨ha, hp⟩
    rw [← List.take_append_drop n found] at hfound
    exact (List.mem_append.mp hfound).resolve_left hnot
  have hlonger {a : α} (ha : a ∈ found.drop n) : n < found.length := by
    have hpos := List.length_pos_of_mem ha
    rw [List.length_drop] at hpos
    omega
  refine ⟨hfirst, fun a ha => (hmem a).mp (List.mem_of_mem_take ha), fun a ha hp hnot => ?_, ?_⟩
  · have hdrop := hrest ha hp hnot
    have hlength := hlonger hdrop
    refine ⟨?_, fun b hb => hacross b hb a hdrop⟩
    rw [List.length_take]
    omega
  · constructor
    · intro hlength
      have hne : found.drop n ≠ [] := by
        intro hnil
        have hzero := congrArg List.length hnil
        rw [List.length_drop, List.length_nil] at hzero
        omega
      obtain ⟨a, ha⟩ := List.exists_mem_of_ne_nil _ hne
      obtain ⟨hitem, hp⟩ := (hmem a).mp (List.mem_of_mem_drop ha)
      exact ⟨a, hitem, hp, fun htake => lt_irrefl _ (hacross a htake a ha)⟩
    · rintro ⟨a, ha, hp, hnot⟩
      exact hlonger (hrest ha hp hnot)

/-- **Sorting backwards.** Two keys begin with a component that one of them reverses, and go on
alike. The results are the reversals of one another if and only if no two items agree in that
component. -/
theorem sortedBy_eq_reverse_iff {up down : α → κ} {tie : α → ι}
    (hdown : ∀ a b, down a < down b ↔ up b < up a) (htie : (items.map tie).Nodup) :
    sortedBy (fun a => toLex (up a, tie a)) items =
        (sortedBy (fun a => toLex (down a, tie a)) items).reverse ↔
      (items.map up).Nodup := by
  have hkeys (f : α → κ) : (items.map fun a => toLex (f a, tie a)).Nodup := by
    apply List.Nodup.of_map (fun key : κ ×ₗ ι => (ofLex key).2)
    rw [List.map_map]
    exact htie
  constructor
  · intro heq
    have hup := pairwise_lt_sortedBy (hkeys up)
    have hback := pairwise_lt_sortedBy (hkeys down)
    rw [← List.pairwise_reverse, ← heq] at hback
    apply ((sortedBy_perm (fun a => toLex (up a, tie a)) items).map up).nodup_iff.mp
    rw [List.Nodup, List.pairwise_map]
    -- Of two items that agree in it, each would have to be before the other.
    refine (hup.and hback).imp fun {a b} hab hsame => ?_
    obtain hlt | ⟨_, hlt⟩ := Prod.Lex.toLex_lt_toLex.mp hab.1
    · exact hlt.ne hsame
    · obtain hlt' | ⟨_, hlt'⟩ := Prod.Lex.toLex_lt_toLex.mp hab.2
      · exact ((hdown b a).mp hlt').ne hsame
      · exact lt_asymm hlt hlt'
  · intro hup
    symm
    refine (eq_sortedBy_iff (hkeys up)).mpr
      ⟨(List.reverse_perm _).trans (sortedBy_perm _ items), ?_⟩
    rw [List.pairwise_reverse]
    have hne : (sortedBy (fun a => toLex (down a, tie a)) items).Pairwise fun a b => up a ≠ up b :=
      List.pairwise_map.mp (((sortedBy_perm _ items).map up).nodup_iff.mpr hup)
    refine ((pairwise_sortedBy (fun a => toLex (down a, tie a)) items).and hne).imp ?_
    rintro a b ⟨hle, hab⟩
    obtain hlt | ⟨heq, _⟩ := Prod.Lex.toLex_le_toLex.mp hle
    · exact Prod.Lex.toLex_lt_toLex.mpr (.inl ((hdown a b).mp hlt))
    · -- Neither is before the other, so that they agree after all.
      have hnot : ¬ up b < up a := fun h => ((hdown a b).mpr h).ne heq
      have hnot' : ¬ up a < up b := fun h => ((hdown b a).mpr h).ne heq.symm
      exact absurd (le_antisymm (not_lt.mp hnot) (not_lt.mp hnot')) hab

end Foundation
