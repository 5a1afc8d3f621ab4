import Portex.Foundation.Transition
import Mathlib.Logic.Function.Basic

/-!
# Read, modify, write

Several requests share a store. Each reads all of it, works out from what it has read what the store
is to become, and writes that in a step of its own; a request that changes nothing ends with its
read. The steps of different requests come in any order.

## Main definitions

* `Sharing`: the store and where each request stands
* `Sharing.access update`: the reads and writes
* `Sharing.Fresh`: a write overwrites what its request has read
* `serially update s order`: the store after requests one after another

## Main results

* `Sharing.exists_serial`: a run whose writes are all fresh leaves what its requests leave one after
  another
-/

namespace Foundation

universe u v

variable {ι : Type u} {σ : Type v}

/-- Where a request stands. -/
inductive SharingPhase (σ : Type v)
  | waiting
  /-- The request has read the store, and will write. -/
  | loaded (seen : σ)
  | ended
  deriving DecidableEq

/-- A store and the requests on it. -/
structure Sharing (ι : Type u) (σ : Type v) where
  store : σ
  phase : ι → SharingPhase σ

/-- A step of a request. -/
inductive Access (ι : Type u)
  | read (i : ι)
  | write (i : ι)

namespace Sharing

variable (update : ι → σ → Option σ)

/-- The requests `ids`, before their first steps. -/
def start (s : σ) : Sharing ι σ where
  store := s
  phase _ := .waiting

variable [DecidableEq ι]

/-- A step of a request: `update i s` is what the request writes where it has read `s`. -/
def access (s : Sharing ι σ) : Access ι → Option (Sharing ι σ)
  | .read i =>
    match s.phase i with
    | .waiting =>
      match update i s.store with
      | none => some { s with phase := Function.update s.phase i .ended }
      | some _ => some { s with phase := Function.update s.phase i (.loaded s.store) }
    | _ => none
  | .write i =>
    match s.phase i with
    | .loaded seen =>
      (update i seen).map fun next =>
        { store := next, phase := Function.update s.phase i .ended }
    | _ => none

/-- A write of one of the requests overwrites what the request has read. -/
def Fresh (s : Sharing ι σ) : Access ι → Prop
  | .read _ => True
  | .write i => ∀ seen, s.phase i = .loaded seen → s.store = seen

/-- The step is one of the requests `ids`. -/
def Among (ids : List ι) (_ : Sharing ι σ) : Access ι → Prop
  | .read i => i ∈ ids
  | .write i => i ∈ ids

/-- All of `ids` have ended. -/
def AllEnded (ids : List ι) (s : Sharing ι σ) : Prop := ∀ i ∈ ids, s.phase i = .ended

instance [DecidableEq σ] (s : Sharing ι σ) : ∀ a, Decidable (s.Fresh a)
  | .read _ => isTrue trivial
  | .write i =>
    match h : s.phase i with
    | .loaded seen =>
      decidable_of_iff (s.store = seen)
        ⟨fun heq seen' h' => heq.trans (SharingPhase.loaded.inj (h.symm.trans h')),
          fun hall => hall seen h⟩
    | .waiting => isTrue fun seen h' => by simp [h] at h'
    | .ended => isTrue fun seen h' => by simp [h] at h'

instance (ids : List ι) (s : Sharing ι σ) : ∀ a, Decidable (Among ids s a)
  | .read i => inferInstanceAs (Decidable (i ∈ ids))
  | .write i => inferInstanceAs (Decidable (i ∈ ids))

instance [DecidableEq σ] (ids : List ι) (s : Sharing ι σ) : Decidable (s.AllEnded ids) :=
  inferInstanceAs (Decidable (∀ i ∈ ids, s.phase i = .ended))

omit [DecidableEq ι] in
/-- The store after requests one after another. -/
def serially (s : σ) (order : List ι) : σ :=
  order.foldl (fun s i => (update i s).getD s) s

variable {update} {s : σ} {ids : List ι}

omit [DecidableEq ι] in
theorem serially_snoc (order : List ι) (i : ι) : serially update s (order ++ [i]) =
    (update i (serially update s order)).getD (serially update s order) := by
  simp [serially, List.foldl_append]

variable {t u : Sharing ι σ}

/-- **What a read can do.** -/
theorem access_read {i : ι} (h : access update t (.read i) = some u) :
    t.phase i = .waiting ∧ u.store = t.store ∧
      ((update i t.store = none ∧ u.phase = Function.update t.phase i .ended) ∨
        ∃ next, update i t.store = some next ∧
          u.phase = Function.update t.phase i (.loaded t.store)) := by
  unfold access at h
  cases hphase : t.phase i with
  | waiting =>
    simp only [hphase] at h
    cases hupdate : update i t.store with
    | none =>
      simp only [hupdate, Option.some.injEq] at h
      subst h
      exact ⟨rfl, rfl, .inl ⟨rfl, rfl⟩⟩
    | some next =>
      simp only [hupdate, Option.some.injEq] at h
      subst h
      exact ⟨rfl, rfl, .inr ⟨next, rfl, rfl⟩⟩
  | loaded seen => simp [hphase] at h
  | ended => simp [hphase] at h

/-- **What a write can do.** -/
theorem access_write {i : ι} (h : access update t (.write i) = some u) :
    ∃ seen, t.phase i = .loaded seen ∧ update i seen = some u.store ∧
      u.phase = Function.update t.phase i .ended := by
  unfold access at h
  cases hphase : t.phase i with
  | waiting => simp [hphase] at h
  | loaded seen =>
    simp only [hphase, Option.map_eq_some_iff] at h
    obtain ⟨next, hupdate, rfl⟩ := h
    exact ⟨seen, rfl, hupdate, rfl⟩
  | ended => simp [hphase] at h

/-! ### Serial orders -/

/-- The store is what the requests that have ended leave, in the order `order`. -/
structure Serial (update : ι → σ → Option σ) (s : σ) (ids order : List ι) (t : Sharing ι σ) :
    Prop where
  nodup : order.Nodup
  ended : ∀ i, i ∈ order ↔ t.phase i = .ended
  among : ∀ i ∈ order, i ∈ ids
  store : serially update s order = t.store

omit [DecidableEq ι] in
theorem serial_start : Serial update s ids [] (start s) where
  nodup := .nil
  ended i := by simp [start]
  among i hi := by cases hi
  store := rfl

/-- A request that ends where the store is what it has read takes its place at the end. -/
theorem Serial.snoc {order : List ι} {i : ι} (h : Serial update s ids order t) (hi : i ∈ ids)
    (hrunning : t.phase i ≠ .ended) (hphase : u.phase = Function.update t.phase i .ended)
    (hstore : u.store = (update i t.store).getD t.store) :
    Serial update s ids (order ++ [i]) u where
  nodup := by
    have hnew : i ∉ order := fun hmem => hrunning ((h.ended i).mp hmem)
    refine List.nodup_append.mpr ⟨h.nodup, by simp, ?_⟩
    rintro j hj k hk rfl
    exact hnew (List.mem_singleton.mp hk ▸ hj)
  ended j := by
    rw [List.mem_append, List.mem_singleton, h.ended, hphase]
    by_cases hj : j = i
    · subst hj
      simp
    · simp [hj]
  among j hj := by
    rcases List.mem_append.mp hj with hj | hj
    · exact h.among j hj
    · rwa [List.mem_singleton.mp hj]
  store := by rw [serially_snoc, h.store, hstore]

/-- A step that ends no request keeps the order. -/
theorem Serial.keep {order : List ι} {i : ι} {seen : σ} (h : Serial update s ids order t)
    (hwaiting : t.phase i = .waiting) (hstore : u.store = t.store)
    (hphase : u.phase = Function.update t.phase i (.loaded seen)) :
    Serial update s ids order u where
  nodup := h.nodup
  ended j := by
    rw [h.ended, hphase]
    by_cases hj : j = i
    · subst hj
      simp [hwaiting]
    · simp [hj]
  among := h.among
  store := h.store.trans hstore.symm

/-- **A fresh step** keeps the store that of a serial order. -/
theorem Serial.step {order : List ι} {a : Access ι} (h : Serial update s ids order t)
    (hamong : Among ids t a) (hfresh : Fresh t a) (hstep : access update t a = some u) :
    ∃ order, Serial update s ids order u := by
  cases a with
  | read i =>
    obtain ⟨hwaiting, hstore, ⟨hupdate, hphase⟩ | ⟨next, -, hphase⟩⟩ := access_read hstep
    · -- A request that writes nothing ends in the place of its read.
      refine ⟨order ++ [i], h.snoc hamong (by simp [hwaiting]) hphase ?_⟩
      rw [hstore, hupdate]
      rfl
    · exact ⟨order, h.keep hwaiting hstore hphase⟩
  | write i =>
    obtain ⟨seen, hloaded, hupdate, hphase⟩ := access_write hstep
    have hseen : t.store = seen := hfresh seen hloaded
    -- The others take the place of their writes.
    refine ⟨order ++ [i], h.snoc hamong (by simp [hloaded]) hphase ?_⟩
    rw [hseen, hupdate]
    rfl

/-- **Fresh runs are serial**: where every write overwrites what its request has read, the requests
leave what they leave one after another. -/
theorem exists_serial {l : List (Access ι)} (hids : ids.Nodup)
    (h : Run (access update) (fun t a => Among ids t a ∧ Fresh t a) (start s) l t)
    (hended : AllEnded ids t) :
    ∃ order, order.Perm ids ∧ t.store = serially update s order := by
  obtain ⟨order, horder⟩ := h.invariant (I := fun t => ∃ order, Serial update s ids order t)
    ⟨[], serial_start⟩ fun ⟨order, horder⟩ ha hstep => horder.step ha.1 ha.2 hstep
  refine ⟨order, ?_, horder.store.symm⟩
  rw [List.perm_ext_iff_of_nodup horder.nodup hids]
  exact fun i => ⟨horder.among i, fun hi => (horder.ended i).mpr (hended i hi)⟩

end Sharing

end Foundation
