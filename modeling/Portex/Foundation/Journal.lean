import Mathlib.Data.List.Induction
import Mathlib.Data.List.Pairwise

/-!
# Files written by delayed jobs

Values are taken one after another, each for some files, and written to all of its files by a job
that runs later. The newest value of a file is the one taken last. A file is current in the end if
no job writes over the newest value and none that carries it is dropped.

## Main definitions

* `last files file l`: the last of the values `l` that is for a file
* `Current`: what a file holds is its newest value, or that value is pending

## Main results

* `Current.next`: a step keeps the files current if it neither writes over the newest value of a
  file nor drops it
* `Current.last_written`: with nothing pending, every file holds its newest value
-/

namespace Foundation

universe u v

variable {α : Type u} {κ : Type v} [DecidableEq κ] (files : α → List κ)

/-- The last value of a list that is for a file. -/
def last (file : κ) (l : List α) : Option α := (l.filter fun x => file ∈ files x).getLast?

variable {files} {file : κ} {l m : List α} {x y : α}

@[simp] theorem last_nil : last files file [] = none := rfl

theorem last_append : last files file (l ++ m) = (last files file m).or (last files file l) := by
  unfold last
  rw [List.filter_append, List.getLast?_append]

theorem last_singleton : last files file [x] = if file ∈ files x then some x else none := by
  by_cases h : file ∈ files x <;> simp [last, h]

/-- A later value replaces the earlier ones of its files, and only those. -/
theorem last_snoc : last files file (l ++ [x]) =
    if file ∈ files x then some x else last files file l := by
  rw [last_append, last_singleton]
  split <;> rfl

theorem mem_of_last (h : last files file l = some x) : x ∈ l ∧ file ∈ files x := by
  simpa using List.mem_filter.mp (List.mem_of_getLast? h)

theorem last_eq_none_iff : last files file l = none ↔ ∀ x ∈ l, file ∉ files x := by
  simp [last]

theorem last_congr {κ' : Type*} [DecidableEq κ'] {files' : α → List κ'} {file' : κ'}
    (h : ∀ x, file' ∈ files' x ↔ file ∈ files x) (l : List α) :
    last files' file' l = last files file l := by
  unfold last
  congr 2
  funext x
  exact decide_eq_decide.mpr (h x)

/-- The last value of a file is any value of the file, or comes after it. -/
theorem last_of_pairwise {R : α → α → Prop} (hR : l.Pairwise R) (hx : x ∈ l)
    (hfile : file ∈ files x) : ∃ y, last files file l = some y ∧ (y = x ∨ R x y) := by
  induction l using List.reverseRecOn with
  | nil => cases hx
  | append_singleton l z ih =>
    obtain ⟨hl, -, hlast⟩ := List.pairwise_append.mp hR
    rw [last_snoc]
    rcases List.mem_append.mp hx with hx | hx
    · split
      · exact ⟨z, rfl, .inr (hlast x hx z (List.mem_singleton.mpr rfl))⟩
      · exact ih hl hx
    · obtain rfl := List.mem_singleton.mp hx
      rw [if_pos hfile]
      exact ⟨x, rfl, .inl rfl⟩

/-- Files that are for fewer values: where the values a file is not for come first, it has the same
last value. -/
theorem last_filter {κ' : Type*} [DecidableEq κ'] {files' : α → List κ'} {file' : κ'} {keep : α → Bool}
    (hfile : ∀ x, file' ∈ files' x ↔ file ∈ files x ∧ keep x = true)
    (hkeep : l.Pairwise fun x y => file ∈ files x → file ∈ files y → keep x = true →
      keep y = true) :
    last files' file' l = (last files file l).filter keep := by
  induction l using List.reverseRecOn with
  | nil => rfl
  | append_singleton l z ih =>
    obtain ⟨hl, -, hlast⟩ := List.pairwise_append.mp hkeep
    rw [last_snoc, last_snoc]
    by_cases hz : file ∈ files z
    · by_cases hk : keep z = true
      · rw [if_pos ((hfile z).mpr ⟨hz, hk⟩), if_pos hz, Option.filter_some, if_pos hk]
      · -- What came before was not kept either.
        rw [if_neg (fun h => hk ((hfile z).mp h).2), if_pos hz, Option.filter_some, if_neg hk,
          last_eq_none_iff]
        intro x hx hx'
        obtain ⟨hxf, hxk⟩ := (hfile x).mp hx'
        exact hk (hlast x hx z (List.mem_singleton.mpr rfl) hxf hz hxk)
    · rw [if_neg (fun h => hz ((hfile z).mp h).1), if_neg hz]
      exact ih hl

/-! ## Current files -/

/-- What has been taken and written, and what is pending: the newest value of a file is what the
file holds, or it is pending. -/
structure Current (files : α → List κ) (taken written : List α) (pending : α → Prop) : Prop where
  newest : ∀ file x, last files file taken = some x →
    last files file written = some x ∨ pending x
  written : ∀ x ∈ written, x ∈ taken
  pending : ∀ x, pending x → x ∈ taken

variable {taken written : List α} {pending pending' lost : α → Prop} {new put : Option α}

/-- **Steps.** A value may be taken, one may be written and some may be dropped. The files stay
current where the write is not over the newest value of a file, and that value is not dropped. -/
theorem Current.next (h : Current files taken written pending)
    (hnew : ∀ x, new = some x → pending' x)
    (hput : ∀ x, put = some x → pending x)
    (hkept : ∀ x, pending x → pending' x ∨ put = some x ∨ lost x)
    (honly : ∀ x, pending' x → pending x ∨ new = some x)
    (hover : ∀ x, put = some x → ∀ file ∈ files x,
      last files file written = last files file (taken ++ new.toList) →
        last files file written = some x)
    (hlost : ∀ x, lost x → ∀ file ∈ files x,
      last files file (taken ++ new.toList) ≠ some x) :
    Current files (taken ++ new.toList) (written ++ put.toList) pending' where
  newest file x hx := by
    -- A new value is pending, and an older one was written or pending before.
    by_cases hold : last files file taken = some x
    · rcases h.newest file x hold with hw | hp
      · left
        cases put with
        | none => simpa using hw
        | some y =>
          rw [Option.toList_some, last_snoc]
          split
          · rename_i hy
            rw [← hover y rfl file hy (hw.trans hx.symm)]
            exact hw
          · exact hw
      · rcases hkept x hp with hp' | rfl | hl
        · exact .inr hp'
        · left
          rw [Option.toList_some, last_snoc, if_pos (mem_of_last hx).2]
        · exact absurd hx (hlost x hl file (mem_of_last hx).2)
    · right
      cases new with
      | none => exact absurd (by simpa using hx) hold
      | some y =>
        rw [Option.toList_some, last_snoc] at hx
        split at hx
        · exact hnew x hx
        · exact absurd hx hold
  written x hx := by
    rcases List.mem_append.mp hx with hx | hx
    · exact List.mem_append_left _ (h.written x hx)
    · exact List.mem_append_left _ (h.pending x (hput x (Option.mem_toList.mp hx)))
  pending x hx := by
    rcases honly x hx with hp | hn
    · exact List.mem_append_left _ (h.pending x hp)
    · exact List.mem_append_right _ (Option.mem_toList.mpr hn)

/-- **Settled files.** With nothing pending, every file holds its newest value. -/
theorem Current.last_written (h : Current files taken written pending)
    (hnone : ∀ x, ¬ pending x) : last files file written = last files file taken := by
  cases hx : last files file taken with
  | some x =>
    rcases h.newest file x hx with hw | hp
    · exact hw
    · exact absurd hp (hnone x)
  | none =>
    rw [last_eq_none_iff] at hx ⊢
    exact fun x hmem => hx x (h.written x hmem)

end Foundation
