import Mathlib.Data.List.Basic
import Mathlib.Data.List.Infix
import Mathlib.Tactic.Common

/-!
# Replacing a string

`str.replace`: each occurrence of a string that does not overlap one before it gives way to another
string. In a text of atoms, in which the string begins nowhere but with an atom that is this string,
these atoms are replaced.

## Main definitions

* `replaceAll`: the replacement

## Main results

* `replaceAll_self_append`, `replaceAll_append`: at an occurrence, and where there is none
* `replaceAll_flatMap`, `infix_flatMap`: the replacement in a text of atoms
-/

namespace Foundation

universe u v

variable {α : Type u} [DecidableEq α] {ν : Type v} {old new front back text : List α}

/-- The replacement, so many elements of the text being passed over. -/
def replaceFrom (old new : List α) : ℕ → List α → List α
  | _, [] => []
  | skip + 1, _ :: text => replaceFrom old new skip text
  | 0, a :: text =>
    if old <+: a :: text then new ++ replaceFrom old new (old.length - 1) text
    else a :: replaceFrom old new 0 text

/-- `text.replace(old, new)`, where `old` is not empty. -/
def replaceAll (old new text : List α) : List α := replaceFrom old new 0 text

@[simp] theorem replaceAll_nil : replaceAll old new [] = [] := rfl

theorem replaceFrom_length (old new front back : List α) :
    replaceFrom old new front.length (front ++ back) = replaceAll old new back := by
  induction front with
  | nil => rfl
  | cons a front ih => exact ih

/-- An occurrence at the beginning. -/
theorem replaceAll_self_append (hold : old ≠ []) :
    replaceAll old new (old ++ back) = new ++ replaceAll old new back := by
  obtain ⟨a, old, rfl⟩ := List.exists_cons_of_ne_nil hold
  have h := replaceFrom_length (a :: old) new old back
  have hprefix : a :: old <+: a :: (old ++ back) := List.prefix_append (a :: old) back
  rw [← h]
  exact if_pos hprefix

theorem replaceAll_cons_of_not {a : α} (h : ¬ old <+: a :: text) :
    replaceAll old new (a :: text) = a :: replaceAll old new text :=
  if_neg h

/-- Where no occurrence begins within a text, it stays. -/
theorem replaceAll_append
    (h : ∀ x y, front = x ++ y → y ≠ [] → ¬ old <+: y ++ back) :
    replaceAll old new (front ++ back) = front ++ replaceAll old new back := by
  induction front with
  | nil => rfl
  | cons a front ih =>
    have hfirst : ¬ old <+: a :: (front ++ back) := h [] _ rfl (List.cons_ne_nil _ _)
    rw [List.cons_append, replaceAll_cons_of_not hfirst,
      ih fun x y hxy hy => h (a :: x) y (by rw [hxy]; rfl) hy]
    rfl

/-- An element that is not the string's parts the text. -/
theorem replaceAll_append_cons {c : α} (hold : old ≠ []) (hc : c ∉ old) :
    replaceAll old new (front ++ c :: back) =
      replaceAll old new front ++ c :: replaceAll old new back := by
  have hwithin {x : List α} : old <+: x ++ c :: back ↔ old <+: x := by
    constructor
    · intro h
      obtain ⟨y, hy⟩ := h
      rcases List.append_eq_append_iff.mp hy with ⟨z, rfl, -⟩ | ⟨z, rfl, hz⟩
      · exact List.prefix_append _ _
      · cases z with
        | nil => simp
        | cons d z =>
          obtain ⟨rfl, -⟩ := List.cons.inj hz
          exact absurd (by simp) hc
    · exact fun h => h.trans (List.prefix_append _ _)
  induction hn : front.length using Nat.strong_induction_on generalizing front with
  | _ n ih =>
    cases front with
    | nil =>
      have hnot : ¬ old <+: c :: back := fun h => hold (List.prefix_nil.mp (hwithin.mp h))
      exact replaceAll_cons_of_not hnot
    | cons a front =>
      by_cases h : old <+: a :: front
      · obtain ⟨rest, hrest⟩ := h
        have hlength := congrArg List.length hrest
        have hpos := List.length_pos_iff.mpr hold
        simp only [List.length_append, List.length_cons] at hlength hn
        rw [← hrest, List.append_assoc, replaceAll_self_append hold, replaceAll_self_append hold,
          ih rest.length (by omega) rfl, List.append_assoc]
      · have hnot : ¬ old <+: a :: (front ++ c :: back) := fun h' => h (hwithin.mp h')
        rw [List.cons_append, replaceAll_cons_of_not hnot, replaceAll_cons_of_not h,
          ih front.length (by simpa using hn ▸ Nat.lt_succ_self _) rfl]
        rfl

/-! ## A text of atoms -/

section Atoms

variable {shown : ν → List α} {hit : ν → Prop} {as : List ν}

/-- The string begins in the text of atoms with an atom that is this string, and nowhere else. -/
def Placed (old : List α) (shown : ν → List α) (hit : ν → Prop) (as : List ν) : Prop :=
  ∀ a cs, a :: cs <:+ as → ∀ x y, shown a = x ++ y → y ≠ [] → old <+: y ++ cs.flatMap shown →
    hit a ∧ x = []

omit [DecidableEq α] in
theorem Placed.tail {a : ν} (h : Placed old shown hit (a :: as)) : Placed old shown hit as :=
  fun b cs hcs => h b cs (hcs.trans (List.suffix_cons a as))

/-- **Replacing a string in a text of atoms** is replacing atoms. -/
theorem replaceAll_flatMap [DecidablePred hit] (hold : old ≠ [])
    (hshown : ∀ a ∈ as, hit a → shown a = old) (hplaced : Placed old shown hit as) :
    replaceAll old new (as.flatMap shown) =
      as.flatMap fun a => if hit a then new else shown a := by
  induction as with
  | nil => rfl
  | cons a as ih =>
    have hrest := ih (fun b hb => hshown b (List.mem_cons_of_mem _ hb)) hplaced.tail
    rw [List.flatMap_cons, List.flatMap_cons, ← hrest]
    split
    · rename_i ha
      rw [hshown a List.mem_cons_self ha, replaceAll_self_append hold]
    · rename_i ha
      exact replaceAll_append fun x y hxy hy h =>
        ha (hplaced a as (List.suffix_refl _) x y hxy hy h).1

omit [DecidableEq α] in
/-- **A string that occurs in a text of atoms** is an atom. -/
theorem infix_flatMap (hold : old ≠ []) (hplaced : Placed old shown hit as)
    (h : old <:+: as.flatMap shown) : ∃ a ∈ as, hit a := by
  induction as with
  | nil => exact absurd (List.infix_nil.mp h) hold
  | cons a as ih =>
    obtain ⟨x, y, hxy⟩ := h
    rw [List.flatMap_cons, List.append_assoc] at hxy
    rcases List.append_eq_append_iff.mp hxy with ⟨z, hz, hzy⟩ | ⟨z, hz, hzy⟩
    · rcases eq_or_ne z [] with rfl | hne
      · have hinfix : old <:+: as.flatMap shown := ⟨[], y, hzy⟩
        obtain ⟨b, hb, hhit⟩ := ih hplaced.tail hinfix
        exact ⟨b, List.mem_cons_of_mem _ hb, hhit⟩
      · exact ⟨a, List.mem_cons_self,
          (hplaced a as (List.suffix_refl _) x z hz hne ⟨y, hzy⟩).1⟩
    · obtain ⟨b, hb, hhit⟩ := ih hplaced.tail ⟨z, y, by rw [hzy, List.append_assoc]⟩
      exact ⟨b, List.mem_cons_of_mem _ hb, hhit⟩

end Atoms

end Foundation
