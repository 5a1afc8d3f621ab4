import Mathlib.Data.Finset.Max
import Mathlib.Data.List.Pairwise
import Mathlib.Tactic.Common
import Portex.Foundation.Search

/-!
# Leftmost matches that do not overlap

A scan from left to right that takes the first match it meets, steps over it, and goes on. What it
takes is determined by the places of the matches and by their width, however the matches are found.

## Main definitions

* `OccursAt`: an occurrence in a list, by its place
* `Leftmost`: the places that a scan takes
* `scan`: the scan for occurrences, by repeated search

## Main results

* `leftmost_iff`: disjoint matches, such that every match begins within one of them
* `Leftmost.unique`: there is one such list of places
* `leftmost_scan`: repeated search finds it
-/

namespace Foundation

universe u

variable {p : ℕ → Prop} {width position : ℕ} {os os' : List ℕ}

/-- The places from `position` on that a scan takes, where `p` are the places of the matches. -/
inductive Leftmost (p : ℕ → Prop) (width : ℕ) : ℕ → List ℕ → Prop
  | done {position : ℕ} (none : ∀ i, position ≤ i → ¬ p i) : Leftmost p width position []
  | next {position o : ℕ} {os : List ℕ} (le : position ≤ o) (here : p o)
      (first : ∀ i, position ≤ i → i < o → ¬ p i) (rest : Leftmost p width (o + width) os) :
      Leftmost p width position (o :: os)

namespace Leftmost

theorem mem (h : Leftmost p width position os) : ∀ o ∈ os, position ≤ o ∧ p o := by
  induction h with
  | done => simp
  | @next position o os le here _ _ ih =>
    intro i hi
    rcases List.mem_cons.mp hi with rfl | hi
    · exact ⟨le, here⟩
    · have := ih i hi
      exact ⟨by omega, this.2⟩

theorem separated (h : Leftmost p width position os) :
    os.Pairwise fun o o' => o + width ≤ o' := by
  induction h with
  | done => exact .nil
  | next _ _ _ rest ih => exact .cons (fun o' ho' => (rest.mem o' ho').1) ih

theorem covers (h : Leftmost p width position os) {i : ℕ} (hi : position ≤ i) (hp : p i) :
    ∃ o ∈ os, o ≤ i ∧ i < o + width := by
  induction h with
  | done none => exact absurd hp (none i hi)
  | @next position o os le here first rest ih =>
    by_cases hio : i < o
    · exact absurd hp (first i hi hio)
    · by_cases hend : i < o + width
      · exact ⟨o, List.mem_cons_self, Nat.not_lt.mp hio, hend⟩
      · obtain ⟨o', ho', hcover⟩ := ih (Nat.not_lt.mp hend)
        exact ⟨o', List.mem_cons_of_mem _ ho', hcover⟩

end Leftmost

/-- What a scan takes are disjoint matches, and every match begins within one of them. -/
theorem leftmost_iff (hwidth : 0 < width) : Leftmost p width position os ↔
    (∀ o ∈ os, position ≤ o ∧ p o) ∧ os.Pairwise (fun o o' => o + width ≤ o') ∧
      ∀ i, position ≤ i → p i → ∃ o ∈ os, o ≤ i ∧ i < o + width := by
  refine ⟨fun h => ⟨h.mem, h.separated, fun i => h.covers⟩, ?_⟩
  rintro ⟨hmem, hpair, hcovers⟩
  -- The scan goes on behind each match, so the position has to vary.
  induction os generalizing position with
  | nil => exact .done fun i hi hp => by obtain ⟨_, hnil, _⟩ := hcovers i hi hp; cases hnil
  | cons o os ih =>
    obtain ⟨hafter, hpair⟩ := List.pairwise_cons.mp hpair
    obtain ⟨hle, hp⟩ := hmem o List.mem_cons_self
    refine .next hle hp (fun i hi hio hpi => ?_) (ih (fun o' ho' => ?_) hpair fun i hi hpi => ?_)
    · -- A match before the first place would begin within one.
      obtain ⟨o', ho', hle', -⟩ := hcovers i hi hpi
      rcases List.mem_cons.mp ho' with rfl | ho'
      · omega
      · have := hafter o' ho'
        omega
    · exact ⟨hafter o' ho', (hmem o' (List.mem_cons_of_mem _ ho')).2⟩
    · obtain ⟨o', ho', hcover⟩ := hcovers i (by omega) hpi
      rcases List.mem_cons.mp ho' with rfl | ho'
      · omega
      · exact ⟨o', ho', hcover⟩

theorem Leftmost.unique (h : Leftmost p width position os) (h' : Leftmost p width position os') :
    os = os' := by
  induction h generalizing os' with
  | done none =>
    cases h' with
    | done => rfl
    | next le here => exact absurd here (none _ le)
  | next le here first rest ih =>
    cases h' with
    | done none => exact absurd here (none _ le)
    | @next _ o' os' le' here' first' rest' =>
      -- Each scan takes the first match there is, so neither can be ahead of the other.
      obtain rfl := Nat.le_antisymm (Nat.not_lt.mp fun hlt => first o' le' hlt here')
        (Nat.not_lt.mp fun hlt => first' _ le hlt here)
      rw [ih rest']

/-! ## Occurrences -/

variable {α : Type u}

/-- `sub` occurs in `text` at a place. -/
def OccursAt (sub text : List α) (i : ℕ) : Prop := sub <+: text.drop i

instance [DecidableEq α] (sub text : List α) : DecidablePred (OccursAt sub text) := fun i =>
  inferInstanceAs (Decidable (sub <+: text.drop i))

variable {sub text : List α}

theorem OccursAt.add_length_le {i : ℕ} (h : OccursAt sub text i) (hsub : sub ≠ []) :
    i + sub.length ≤ text.length := by
  have hle := h.length_le
  have hpos := List.length_pos_iff.mpr hsub
  rw [List.length_drop] at hle
  omega

theorem occursAt_append (before sub after : List α) :
    OccursAt sub (before ++ sub ++ after) before.length := by
  unfold OccursAt
  rw [List.append_assoc, List.drop_left]
  exact List.prefix_append _ _

variable [DecidableEq α]

/-- The first place from `position` on where `sub` occurs. -/
def findFrom (sub text : List α) (position : ℕ) : Option ℕ :=
  (find? sub (text.drop position)).map fun i => position + i

theorem findFrom_eq_none (h : findFrom sub text position = none) {i : ℕ}
    (hi : position ≤ i) : ¬ OccursAt sub text i := by
  intro hocc
  have hnone := find?_eq_none (Option.map_eq_none_iff.mp h)
  obtain ⟨j, rfl⟩ := Nat.exists_eq_add_of_le hi
  unfold OccursAt at hocc
  rw [← List.drop_drop] at hocc
  exact hnone (hocc.isInfix.trans (List.drop_suffix j _).isInfix)

theorem findFrom_eq_some {o : ℕ} (h : findFrom sub text position = some o) :
    position ≤ o ∧ OccursAt sub text o ∧
      ∀ i, position ≤ i → i < o → ¬ OccursAt sub text i := by
  obtain ⟨k, hk, rfl⟩ := Option.map_eq_some_iff.mp h
  obtain ⟨⟨before, after, hsplit, rfl⟩, hleast⟩ := find?_eq_some hk
  refine ⟨Nat.le_add_right _ _, ?_, fun i hi hlt hocc => ?_⟩
  · unfold OccursAt
    rw [← List.drop_drop, hsplit, List.append_assoc, List.drop_left]
    exact List.prefix_append _ _
  · obtain ⟨j, rfl⟩ := Nat.exists_eq_add_of_le hi
    obtain ⟨rest, hrest⟩ := hocc
    rw [← List.drop_drop] at hrest
    -- An earlier occurrence would have been found first.
    have hle := hleast ((text.drop position).take j) rest
      (by rw [List.append_assoc, hrest, List.take_append_drop])
    have htake := List.length_take_le j (text.drop position)
    omega

/-- The places found by repeated search, each from the end of the occurrence before. The first
argument bounds the number of searches. -/
def scan (sub text : List α) (width : ℕ) : ℕ → ℕ → List ℕ
  | 0, _ => []
  | fuel + 1, position =>
    match findFrom sub text position with
    | none => []
    | some found => found :: scan sub text width fuel (found + width)

theorem leftmost_scan_of_lt (hsub : sub ≠ []) (hwidth : 0 < width) :
    ∀ fuel position, text.length < fuel + position →
      Leftmost (OccursAt sub text) width position (scan sub text width fuel position)
  | 0, position, hlt => .done fun i hi hocc => by
    have := hocc.add_length_le hsub
    omega
  | fuel + 1, position, hlt => by
    unfold scan
    cases h : findFrom sub text position with
    | none => exact .done fun i hi => findFrom_eq_none h hi
    | some found =>
      obtain ⟨hle, hocc, hfirst⟩ := findFrom_eq_some h
      exact .next hle hocc hfirst (leftmost_scan_of_lt hsub hwidth fuel _ (by omega))

/-- **The scan**, with as many searches as the text has places. -/
theorem leftmost_scan (hsub : sub ≠ []) (hwidth : 0 < width) :
    Leftmost (OccursAt sub text) width 0 (scan sub text width (text.length + 1) 0) :=
  leftmost_scan_of_lt hsub hwidth _ _ (by omega)

end Foundation
