import Mathlib.Data.List.Basic
import Mathlib.Algebra.Order.Ring.Int
import Mathlib.Tactic.Common

/-!
# Reading a list page by page

A client asks for the entries from an offset on, at most as many as a limit, and goes on behind
them for as long as it is told that there are more.

## Main definitions

* `Page`, `pageAt`: the answers of a server to such requests
* `ReadsFrom`: what a client reads, page after page, from an offset to the end

## Main results

* `ReadsFrom.unique`: a client reads one thing at most
* `readsFrom_drop`: from pages of a list it reads the rest of the list
-/

namespace Foundation

universe u v

/-- A part of a list, and whether there is more behind it. -/
structure Page (α : Type u) where
  items : List α
  hasMore : Bool
  deriving DecidableEq

variable {α : Type u} {ε : Type v}

/-- The entries from the offset on, at most as many as the limit. -/
def pageAt (entries : List α) (limit offset : ℤ) : Page α where
  items := (entries.drop offset.toNat).take limit.toNat
  hasMore := decide (offset + limit < entries.length)

/-- What a client has read when it has asked for the pages from the offset on, each a limit behind
the one before it, until there were no more. -/
inductive ReadsFrom (fetch : ℤ → Except ε (Page α)) (limit : ℤ) : ℤ → List (List α) → Prop
  | last {offset : ℤ} {items : List α} (h : fetch offset = .ok ⟨items, false⟩) :
      ReadsFrom fetch limit offset [items]
  | more {offset : ℤ} {items : List α} {pages : List (List α)}
      (h : fetch offset = .ok ⟨items, true⟩)
      (rest : ReadsFrom fetch limit (offset + limit) pages) :
      ReadsFrom fetch limit offset (items :: pages)

variable {fetch : ℤ → Except ε (Page α)} {limit offset : ℤ} {pages pages' : List (List α)}

theorem ReadsFrom.unique (h : ReadsFrom fetch limit offset pages)
    (h' : ReadsFrom fetch limit offset pages') : pages = pages' := by
  induction h generalizing pages' with
  | last hfetch =>
    cases h' with
    | last hfetch' =>
      rw [hfetch] at hfetch'
      injection hfetch' with hfetch'
      injection hfetch' with hitems
      rw [hitems]
    | more hfetch' rest =>
      rw [hfetch] at hfetch'
      injection hfetch' with hfetch'
      injection hfetch' with _ hmore
      cases hmore
  | more hfetch rest ih =>
    cases h' with
    | last hfetch' =>
      rw [hfetch] at hfetch'
      injection hfetch' with hfetch'
      injection hfetch' with _ hmore
      cases hmore
    | more hfetch' rest' =>
      rw [hfetch] at hfetch'
      injection hfetch' with hfetch'
      injection hfetch' with hitems
      rw [hitems, ih rest']

/-- **A client reads the rest of the list**. -/
theorem readsFrom_drop {entries : List α} (hlimit : 0 < limit)
    (hfetch : ∀ offset, 0 ≤ offset → fetch offset = .ok (pageAt entries limit offset))
    (n : ℕ) : ∃ pages, ReadsFrom fetch limit n pages ∧ pages.flatten = entries.drop n := by
  -- The induction is on the number of entries that are not read yet.
  induction hrest : entries.length - n using Nat.strong_induction_on generalizing n with
  | _ m ih =>
    have hpage := hfetch n (Int.natCast_nonneg n)
    by_cases hmore : (n : ℤ) + limit < entries.length
    · have hnext : ((n + limit.toNat : ℕ) : ℤ) = n + limit := by
        push_cast
        rw [Int.toNat_of_nonneg hlimit.le]
      obtain ⟨pages, hpages, hflatten⟩ := ih _ (by omega) (n + limit.toNat) rfl
      rw [hnext] at hpages
      refine ⟨_, .more (by rw [hpage, pageAt, decide_eq_true hmore]) hpages, ?_⟩
      rw [List.flatten_cons, hflatten, ← List.drop_drop, Int.toNat_natCast, List.take_append_drop]
    · refine ⟨_, .last (by rw [hpage, pageAt, decide_eq_false hmore]), ?_⟩
      rw [List.flatten_singleton, Int.toNat_natCast]
      apply List.take_of_length_le
      rw [List.length_drop]
      omega

/-- **A client reads the whole list**, and nothing else. -/
theorem readsFrom_zero_iff (fetch : ℤ → Except ε (Page α)) (entries : List α) (hlimit : 0 < limit)
    (hfetch : ∀ offset, 0 ≤ offset → fetch offset = .ok (pageAt entries limit offset)) :
    (∃ pages, ReadsFrom fetch limit 0 pages) ∧
      ∀ pages, ReadsFrom fetch limit 0 pages → pages.flatten = entries := by
  obtain ⟨pages, hpages, hflatten⟩ := readsFrom_drop hlimit hfetch 0
  refine ⟨⟨pages, hpages⟩, fun pages' hpages' => ?_⟩
  rw [hpages'.unique hpages, hflatten, List.drop_zero]

end Foundation
