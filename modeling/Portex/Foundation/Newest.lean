import Portex.Foundation.Dict
import Mathlib.Order.Lattice
import Mathlib.Data.List.Induction

/-!
# The newest entry of each key

Entries of several sources are merged into a dictionary by a key: an entry replaces the one of its
key when its rank is greater, so that among entries of one rank the first one stays.

## Main definitions

* `keepNewer`, `newest`, `newestValues`: the merge
* `IsNewest`: the first entry of the greatest rank of its key

## Main results

* `IsNewest.unique`, `exists_isNewest`: every key that occurs has exactly one
* `get?_newest`, `mem_newestValues`: the merge keeps these
* `nodup_newestValues`: one entry for each key
-/

namespace Foundation

universe u v w

variable {α : Type u} {κ : Type v} {ρ : Type w} [DecidableEq κ] [LinearOrder ρ]

/-- The entry replaces the one of its key if its rank is greater. -/
def keepNewer (key : α → κ) (rank : α → ρ) (d : Dict κ α) (x : α) : Dict κ α :=
  match d.get? (key x) with
  | none => d.insert (key x) x
  | some y => if rank y < rank x then d.insert (key x) x else d

/-- The merge of some entries, the first source first. -/
def newest (key : α → κ) (rank : α → ρ) (xs : List α) : Dict κ α :=
  xs.foldl (keepNewer key rank) ∅

/-- `x` is the first of the entries with its key that have the greatest rank. -/
structure IsNewest (key : α → κ) (rank : α → ρ) (xs : List α) (x : α) : Prop where
  mem : x ∈ xs
  greatest : ∀ y ∈ xs, key y = key x → rank y ≤ rank x
  first : ∃ before after, xs = before ++ x :: after ∧
    ∀ y ∈ before, key y = key x → rank y < rank x

variable {key : α → κ} {rank : α → ρ} {xs : List α} {x y : α}

omit [DecidableEq κ] in
theorem IsNewest.unique (hx : IsNewest key rank xs x) (hy : IsNewest key rank xs y)
    (hkey : key x = key y) : x = y := by
  obtain ⟨before, after, heq, hbefore⟩ := hx.first
  obtain ⟨before', after', heq', hbefore'⟩ := hy.first
  -- Neither entry lies before the other one: its rank would be smaller.
  have hrank : rank x = rank y :=
    le_antisymm (hy.greatest x hx.mem hkey) (hx.greatest y hy.mem hkey.symm)
  have hnotBefore : x ∉ before' := fun hmem => absurd (hbefore' x hmem hkey) (by simp [hrank])
  have hnotBefore' : y ∉ before := fun hmem => absurd (hbefore y hmem hkey.symm) (by simp [hrank])
  rcases List.append_eq_append_iff.mp (heq.symm.trans heq') with
    ⟨between, hbetween, hrest⟩ | ⟨between, hbetween, hrest⟩
  · cases between with
    | nil => exact (List.cons.inj hrest).1
    | cons z between =>
      rw [hbetween, (List.cons.inj hrest).1] at hnotBefore
      exact absurd (List.mem_append_right _ List.mem_cons_self) hnotBefore
  · cases between with
    | nil => exact (List.cons.inj hrest).1.symm
    | cons z between =>
      rw [hbetween, (List.cons.inj hrest).1] at hnotBefore'
      exact absurd (List.mem_append_right _ List.mem_cons_self) hnotBefore'

omit [DecidableEq κ] in
/-- An entry of another key does not matter. -/
theorem IsNewest.snoc_of_ne (h : IsNewest key rank xs x) (hne : key y ≠ key x) :
    IsNewest key rank (xs ++ [y]) x := by
  obtain ⟨before, after, heq, hbefore⟩ := h.first
  refine ⟨List.mem_append_left _ h.mem, fun z hz hkey => ?_,
    before, after ++ [y], by simp [heq], hbefore⟩
  rcases List.mem_append.mp hz with hz | hz
  · exact h.greatest z hz hkey
  · exact absurd (List.mem_singleton.mp hz ▸ hkey) hne

omit [DecidableEq κ] in
/-- Neither does one of its own key whose rank is not greater. -/
theorem IsNewest.snoc_of_le (h : IsNewest key rank xs x) (hle : rank y ≤ rank x) :
    IsNewest key rank (xs ++ [y]) x := by
  obtain ⟨before, after, heq, hbefore⟩ := h.first
  refine ⟨List.mem_append_left _ h.mem, fun z hz hkey => ?_,
    before, after ++ [y], by simp [heq], hbefore⟩
  rcases List.mem_append.mp hz with hz | hz
  · exact h.greatest z hz hkey
  · exact List.mem_singleton.mp hz ▸ hle

omit [DecidableEq κ] in
theorem isNewest_snoc_self (h : ∀ z ∈ xs, key z = key y → rank z < rank y) :
    IsNewest key rank (xs ++ [y]) y := by
  refine ⟨by simp, fun z hz hkey => ?_, xs, [], rfl, h⟩
  rcases List.mem_append.mp hz with hz | hz
  · exact (h z hz hkey).le
  · exact (congrArg rank (List.mem_singleton.mp hz)).le

theorem get?_keepNewer_of_ne {d : Dict κ α} {k : κ} (h : k ≠ key x) :
    (keepNewer key rank d x).get? k = d.get? k := by
  unfold keepNewer
  split
  · rw [Dict.get?_insert, if_neg h]
  · split
    · rw [Dict.get?_insert, if_neg h]
    · rfl

theorem get?_keepNewer_self_of_lt {d : Dict κ α}
    (h : ∀ y, d.get? (key x) = some y → rank y < rank x) :
    (keepNewer key rank d x).get? (key x) = some x := by
  unfold keepNewer
  split
  · rw [Dict.get?_insert, if_pos rfl]
  · rename_i y hget
    rw [if_pos (h y hget), Dict.get?_insert, if_pos rfl]

theorem get?_keepNewer_self_of_le {d : Dict κ α} (hget : d.get? (key x) = some y)
    (hle : rank x ≤ rank y) : (keepNewer key rank d x).get? (key x) = some y := by
  simp only [keepNewer, hget, if_neg (not_lt.mpr hle)]

theorem newest_snoc (xs : List α) (x : α) :
    newest key rank (xs ++ [x]) = keepNewer key rank (newest key rank xs) x := by
  unfold newest
  rw [List.foldl_append, List.foldl_cons, List.foldl_nil]

omit [DecidableEq κ] [LinearOrder ρ] in
theorem forall_ne_snoc {k : κ} (h : ∀ z ∈ xs, key z ≠ k) (hy : key y ≠ k) :
    ∀ z ∈ xs ++ [y], key z ≠ k := by
  intro z hz
  rcases List.mem_append.mp hz with hz | hz
  · exact h z hz
  · rwa [List.mem_singleton.mp hz]

variable (key rank) in
/-- The merge has the newest entry of a key that occurs, and nothing for another key. -/
theorem newest_spec (xs : List α) (k : κ) :
    (∃ x, (newest key rank xs).get? k = some x ∧ key x = k ∧ IsNewest key rank xs x) ∨
      (newest key rank xs).get? k = none ∧ ∀ y ∈ xs, key y ≠ k := by
  -- The entries are merged one after the other, so the induction appends the last one.
  induction xs using List.reverseRecOn with
  | nil => exact .inr ⟨rfl, by simp⟩
  | append_singleton xs x ih =>
    rw [newest_snoc]
    by_cases hk : k = key x
    · subst hk
      left
      rcases ih with ⟨y, hget, hkey, hnewest⟩ | ⟨hget, hnone⟩
      · by_cases hlt : rank y < rank x
        · -- It replaces the entry that was the newest one of its key.
          refine ⟨x, get?_keepNewer_self_of_lt fun z hz => ?_, rfl,
            isNewest_snoc_self fun z hz hkey' => ?_⟩
          · rw [hget] at hz
            rwa [← Option.some.inj hz]
          · exact (hnewest.greatest z hz (hkey'.trans hkey.symm)).trans_lt hlt
        · -- An equal rank leaves the entry that came first.
          exact ⟨y, get?_keepNewer_self_of_le hget (not_lt.mp hlt), hkey,
            hnewest.snoc_of_le (not_lt.mp hlt)⟩
      · -- It is the first entry of its key.
        refine ⟨x, get?_keepNewer_self_of_lt fun z hz => ?_, rfl,
          isNewest_snoc_self fun z hz hkey => absurd hkey (hnone z hz)⟩
        rw [hget] at hz
        cases hz
    · rw [get?_keepNewer_of_ne hk]
      rcases ih with ⟨y, hget, hkey, hnewest⟩ | ⟨hget, hnone⟩
      · exact .inl ⟨y, hget, hkey, hnewest.snoc_of_ne fun h => hk (hkey ▸ h.symm)⟩
      · exact .inr ⟨hget, forall_ne_snoc hnone fun h => hk h.symm⟩

/-- **The merge keeps the newest entries**. -/
theorem get?_newest {k : κ} :
    (newest key rank xs).get? k = some x ↔ key x = k ∧ IsNewest key rank xs x := by
  rcases newest_spec key rank xs k with ⟨y, hget, hkey, hnewest⟩ | ⟨hget, hnone⟩
  · rw [hget]
    constructor
    · intro h
      rw [← Option.some.inj h]
      exact ⟨hkey, hnewest⟩
    · rintro ⟨hk, hx⟩
      rw [hnewest.unique hx (hkey.trans hk.symm)]
  · rw [hget]
    constructor
    · intro h
      cases h
    · rintro ⟨hk, hx⟩
      exact absurd hk (hnone x hx.mem)

variable (key rank) in
/-- Every entry has one of its key that is the newest. -/
theorem exists_isNewest (h : y ∈ xs) : ∃ x, IsNewest key rank xs x ∧ key x = key y := by
  rcases newest_spec key rank xs (key y) with ⟨x, -, hkey, hnewest⟩ | ⟨-, hnone⟩
  · exact ⟨x, hnewest, hkey⟩
  · exact absurd rfl (hnone y h)

variable (key rank) in
/-- `list(merged.values())`. -/
def newestValues (xs : List α) : List α := (newest key rank xs).items.map Prod.snd

theorem mem_newestValues : x ∈ newestValues key rank xs ↔ IsNewest key rank xs x := by
  unfold newestValues
  rw [List.mem_map]
  constructor
  · rintro ⟨⟨k, z⟩, hmem, rfl⟩
    exact (get?_newest.mp (Dict.mem_items.mp hmem)).2
  · intro h
    exact ⟨(key x, x), Dict.mem_items.mpr (get?_newest.mpr ⟨rfl, h⟩), rfl⟩

theorem map_newestValues : (newestValues key rank xs).map key = (newest key rank xs).keys := by
  unfold newestValues
  rw [← Dict.map_fst_items, List.map_map]
  apply List.map_congr_left
  rintro ⟨k, x⟩ hmem
  exact (get?_newest.mp (Dict.mem_items.mp hmem)).1

/-- There is one entry for each key. -/
theorem nodup_newestValues : ((newestValues key rank xs).map key).Nodup := by
  rw [map_newestValues]
  exact (newest key rank xs).nodup

theorem newestValues_eq_nil : newestValues key rank xs = [] ↔ xs = [] := by
  constructor
  · intro h
    by_contra hne
    obtain ⟨y, hy⟩ := List.exists_mem_of_ne_nil xs hne
    obtain ⟨x, hx, -⟩ := exists_isNewest key rank hy
    rw [← mem_newestValues, h] at hx
    cases hx
  · rintro rfl
    rfl

end Foundation
