import Mathlib.Data.List.Sort
import Mathlib.Data.Nat.Notation

/-!
# Pipelines

Events enter a pipeline under increasing numbers and leave it one by one, possibly in another
order. Some of them are chunks of a stream and must not overtake each other, some are marks that
must not overtake a chunk, and the others may leave at any time.

## Main definitions

* `Pipeline`: the events that have entered and those that have left, in order
* `Pipeline.Valid`: events enter under increasing numbers, and leave once
* `Pipeline.Ordered`: chunks leave in their order, and marks after the chunks before them

## Main results

* `Pipeline.ordered_leave_iff`: an event that leaves keeps the order if it overtakes no chunk
* `Pipeline.Ordered.eq_of_settled`: once no chunk is inside, all of them have left in their order
-/

namespace Foundation

universe u

/-- The events that have entered and those that have left, with their numbers. -/
structure Pipeline (ε : Type u) where
  entered : List (ℕ × ε)
  left : List (ℕ × ε)

namespace Pipeline

variable {ε : Type u} {chunk mark : ε → Bool} {p : Pipeline ε} {bound : ℕ} {x y : ℕ × ε}

def enter (p : Pipeline ε) (x : ℕ × ε) : Pipeline ε := { p with entered := p.entered ++ [x] }

def leave (p : Pipeline ε) (x : ℕ × ε) : Pipeline ε := { p with left := p.left ++ [x] }

@[simp] theorem left_enter (p : Pipeline ε) (x : ℕ × ε) : (p.enter x).left = p.left := rfl

@[simp] theorem left_leave (p : Pipeline ε) (x : ℕ × ε) : (p.leave x).left = p.left ++ [x] := rfl

/-- The event has entered and has not left. -/
def Inside (p : Pipeline ε) (x : ℕ × ε) : Prop := x ∈ p.entered ∧ x ∉ p.left

/-- Events enter under increasing numbers below the bound, and leave once. -/
structure Valid (p : Pipeline ε) (bound : ℕ) : Prop where
  sorted : p.entered.Pairwise fun x y => x.1 < y.1
  lt : ∀ x ∈ p.entered, x.1 < bound
  entered : ∀ x ∈ p.left, x ∈ p.entered
  nodup : p.left.Nodup

/-- The chunks leave in the order in which they entered, and a mark leaves after every chunk that
entered before it. -/
structure Ordered (chunk mark : ε → Bool) (p : Pipeline ε) : Prop where
  chunks : p.left.filter (fun x => chunk x.2) <+: p.entered.filter fun x => chunk x.2
  marks : ∀ front x back, p.left = front ++ x :: back → mark x.2 = true →
    ∀ y ∈ p.entered, chunk y.2 = true → y.1 < x.1 → y ∈ front

/-! ## Increasing numbers -/

/-- What is smaller than an element of a prefix is in the prefix. -/
theorem mem_of_isPrefix {l m : List (ℕ × ε)} (hm : m.Pairwise fun x y => x.1 < y.1)
    (h : l <+: m) (hx : x ∈ l) (hy : y ∈ m) (hlt : y.1 < x.1) : y ∈ l := by
  obtain ⟨r, rfl⟩ := h
  rcases List.mem_append.mp hy with hy | hy
  · exact hy
  · exact absurd ((List.pairwise_append.mp hm).2.2 x hx y hy) (by omega)

/-! ## Events that enter -/

theorem valid_enter (h : p.Valid bound) (hx : x.1 = bound) : (p.enter x).Valid (bound + 1) where
  sorted := by
    refine List.pairwise_append.mpr ⟨h.sorted, List.pairwise_singleton _ _, fun y hy z hz => ?_⟩
    rw [List.mem_singleton.mp hz, hx]
    exact h.lt y hy
  lt y hy := by
    rcases List.mem_append.mp hy with hy | hy
    · exact Nat.lt_succ_of_lt (h.lt y hy)
    · rw [List.mem_singleton.mp hy, hx]
      exact Nat.lt_succ_self _
  entered y hy := List.mem_append_left _ (h.entered y hy)
  nodup := h.nodup

theorem Valid.mono (h : p.Valid bound) {bound' : ℕ} (hle : bound ≤ bound') : p.Valid bound' where
  sorted := h.sorted
  lt x hx := Nat.lt_of_lt_of_le (h.lt x hx) hle
  entered := h.entered
  nodup := h.nodup

theorem inside_enter (h : p.Valid bound) (hx : bound ≤ x.1) :
    (p.enter x).Inside y ↔ p.Inside y ∨ y = x := by
  have hnot : x ∉ p.left := fun hmem => absurd (h.lt x (h.entered x hmem)) (Nat.not_lt_of_le hx)
  constructor
  · rintro ⟨hy, hleft⟩
    rcases List.mem_append.mp hy with hy | hy
    · exact .inl ⟨hy, hleft⟩
    · exact .inr (List.mem_singleton.mp hy)
  · rintro (⟨hy, hleft⟩ | rfl)
    · exact ⟨List.mem_append_left _ hy, hleft⟩
    · exact ⟨List.mem_append_right _ (List.mem_singleton.mpr rfl), hnot⟩

/-- An event may always enter. -/
theorem Ordered.enter (h : p.Ordered chunk mark) (hv : p.Valid bound) (hx : bound ≤ x.1) :
    (p.enter x).Ordered chunk mark where
  chunks := by
    show p.left.filter _ <+: (p.entered ++ [x]).filter _
    rw [List.filter_append]
    exact h.chunks.trans (List.prefix_append _ _)
  marks front z back hleft hmark y hy hchunk hlt := by
    rcases List.mem_append.mp hy with hy | hy
    · exact h.marks front z back hleft hmark y hy hchunk hlt
    · -- The new event is younger than all that have left.
      have hz := hv.lt z (hv.entered z (hleft ▸ by simp))
      rw [List.mem_singleton.mp hy] at hlt
      omega

/-! ## Events that leave -/

theorem valid_leave (h : p.Valid bound) (hx : p.Inside x) : (p.leave x).Valid bound where
  sorted := h.sorted
  lt := h.lt
  entered y hy := by
    rcases List.mem_append.mp hy with hy | hy
    · exact h.entered y hy
    · rw [List.mem_singleton.mp hy]
      exact hx.1
  nodup := by
    refine List.nodup_append.mpr ⟨h.nodup, List.nodup_singleton x, fun y hy z hz => ?_⟩
    rw [List.mem_singleton.mp hz]
    rintro rfl
    exact hx.2 hy

theorem inside_leave : (p.leave x).Inside y ↔ p.Inside y ∧ y ≠ x := by
  simp only [Inside, leave, List.mem_append, List.mem_singleton, not_or]
  tauto

/-- The oldest chunk inside is the next one of the stream. -/
theorem Ordered.next (h : p.Ordered chunk mark) (hv : p.Valid bound) (hx : p.Inside x)
    (hchunk : chunk x.2 = true) (holdest : ∀ y, p.Inside y → chunk y.2 = true → ¬ y.1 < x.1) :
    p.left.filter (fun x => chunk x.2) ++ [x] <+: p.entered.filter fun x => chunk x.2 := by
  obtain ⟨rest, hrest⟩ := h.chunks
  have hsorted : (p.entered.filter fun x => chunk x.2).Pairwise fun x y => x.1 < y.1 :=
    hv.sorted.sublist List.filter_sublist
  have hmem : x ∈ p.entered.filter fun x => chunk x.2 := List.mem_filter.mpr ⟨hx.1, hchunk⟩
  rw [← hrest] at hsorted hmem
  have hxrest : x ∈ rest := by
    rcases List.mem_append.mp hmem with hleft | hxrest
    · exact absurd (List.mem_filter.mp hleft).1 hx.2
    · exact hxrest
  cases rest with
  | nil => cases hxrest
  | cons z rest =>
    have hz : z ∈ p.entered.filter fun x => chunk x.2 := by
      rw [← hrest]
      simp
    obtain ⟨hz, hzchunk⟩ := List.mem_filter.mp hz
    have hzleft : z ∉ p.left := by
      intro hmem
      have hlt := (List.pairwise_append.mp hsorted).2.2 z (List.mem_filter.mpr ⟨hmem, hzchunk⟩) z
        List.mem_cons_self
      exact Nat.lt_irrefl _ hlt
    have hzx : z = x := by
      rcases List.mem_cons.mp hxrest with rfl | hxrest
      · rfl
      · have hlt := (List.pairwise_cons.mp (List.pairwise_append.mp hsorted).2.1).1 x hxrest
        exact absurd hlt (holdest z ⟨hz, hzleft⟩ hzchunk)
    subst hzx
    exact ⟨rest, by rw [← hrest, List.append_assoc]; rfl⟩

/-- **An event that leaves** keeps the order exactly if it is no chunk and no mark, or overtakes no
chunk. -/
theorem ordered_leave_iff (h : p.Ordered chunk mark) (hv : p.Valid bound) (hx : p.Inside x) :
    (p.leave x).Ordered chunk mark ↔ (chunk x.2 = true ∨ mark x.2 = true →
      ∀ y, p.Inside y → chunk y.2 = true → ¬ y.1 < x.1) := by
  constructor
  · rintro hordered (hchunk | hmark) y hy hychunk hlt
    · have hsorted : (p.entered.filter fun x => chunk x.2).Pairwise fun x y => x.1 < y.1 :=
        hv.sorted.sublist List.filter_sublist
      have hmem : x ∈ (p.left ++ [x]).filter fun x => chunk x.2 :=
        List.mem_filter.mpr ⟨by simp, hchunk⟩
      have hleft := mem_of_isPrefix hsorted hordered.chunks hmem
        (List.mem_filter.mpr ⟨hy.1, hychunk⟩) hlt
      rcases List.mem_append.mp (List.mem_filter.mp hleft).1 with hleft | hleft
      · exact hy.2 hleft
      · rw [List.mem_singleton.mp hleft] at hlt
        exact Nat.lt_irrefl _ hlt
    · exact hy.2 (hordered.marks p.left x [] rfl hmark y hy.1 hychunk hlt)
  · intro holdest
    constructor
    · show (p.left ++ [x]).filter _ <+: p.entered.filter _
      rw [List.filter_append]
      by_cases hchunk : chunk x.2 = true
      · rw [show [x].filter (fun x => chunk x.2) = [x] by simp [hchunk]]
        exact h.next hv hx hchunk (holdest (.inl hchunk))
      · rw [show [x].filter (fun x => chunk x.2) = [] by simp [hchunk], List.append_nil]
        exact h.chunks
    · intro front z back hleft hmark y hy hchunk hlt
      rcases List.eq_nil_or_concat back with rfl | ⟨back, w, rfl⟩
      · obtain ⟨rfl, hz⟩ := List.append_inj' (hleft : p.left ++ [x] = front ++ [z]) rfl
        obtain rfl := List.singleton_inj.mp hz
        by_contra hnot
        exact holdest (.inr hmark) y ⟨hy, hnot⟩ hchunk hlt
      · have heq : p.left ++ [x] = (front ++ z :: back) ++ [w] := by
          rw [show p.left ++ [x] = _ from hleft]
          simp
        exact h.marks front z back (List.append_inj' heq rfl).1 hmark y hy hchunk hlt

/-- Once no chunk is inside, all chunks have left, in their order. -/
theorem Ordered.eq_of_settled (h : p.Ordered chunk mark) (hv : p.Valid bound)
    (hsettled : ∀ x, p.Inside x → chunk x.2 = false) :
    p.left.filter (fun x => chunk x.2) = p.entered.filter fun x => chunk x.2 := by
  obtain ⟨rest, hrest⟩ := h.chunks
  have hsorted : (p.entered.filter fun x => chunk x.2).Pairwise fun x y => x.1 < y.1 :=
    hv.sorted.sublist List.filter_sublist
  cases rest with
  | nil => rw [← hrest, List.append_nil]
  | cons z rest =>
    have hz : z ∈ p.entered.filter fun x => chunk x.2 := by
      rw [← hrest]
      simp
    obtain ⟨hz, hchunk⟩ := List.mem_filter.mp hz
    by_cases hleft : z ∈ p.left
    · -- A chunk that has left is not among the rest.
      rw [← hrest] at hsorted
      have hlt := (List.pairwise_append.mp hsorted).2.2 z (List.mem_filter.mpr ⟨hleft, hchunk⟩) z
        List.mem_cons_self
      exact absurd hlt (Nat.lt_irrefl _)
    · rw [hsettled z ⟨hz, hleft⟩] at hchunk
      cases hchunk

end Pipeline

end Foundation
