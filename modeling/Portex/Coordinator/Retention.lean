import Portex.Coordinator.Postings

/-!
# The runs a coordinator remembers

The results of finished runs are kept for the `max_completed_runs` most recent ones. The keys of
the maps of the coordinator are determined by what was submitted and what was stored: a run that
is open is in the maps of requests and futures, one that is open or retained in those of statuses
and snapshots.

## Main definitions

* `Books.Retention`: the keys of the books, against what was submitted and stored
* `Coordinator.Active`: the runs with status queued or running

## Main results

* `Books.Retention.posting`: every posting keeps the books in step
* `retention`: the bookkeeping of every run of the coordinator
-/

namespace Portex

open Foundation

/-- What the last `n` entries of a log are does not depend on those dropped before. -/
theorem rtake_concat_rtake {α : Type} (l : List α) (n : ℕ) (a : α) :
    (l.rtake n ++ [a]).rtake n = (l ++ [a]).rtake n := by
  cases n with
  | zero => rw [List.rtake_zero, List.rtake_zero]
  | succ n =>
    have hshorter : (l.rtake (n + 1)).rtake n = l.rtake n := by
      simp only [List.rtake, List.length_drop, List.drop_drop]
      congr 1
      omega
    rw [List.rtake_concat_succ, List.rtake_concat_succ, hshorter]

/-- An entry of a log without duplicates is dropped or kept. -/
theorem mem_drop_iff_of_nodup {α : Type} {l : List α} (h : l.Nodup) (n : ℕ) (a : α) :
    a ∈ l.drop n ↔ a ∈ l ∧ a ∉ l.take n := by
  have hparts : (l.take n ++ l.drop n).Nodup := by rwa [List.take_append_drop]
  have hdisjoint := (List.nodup_append'.mp hparts).2.2
  constructor
  · intro ha
    exact ⟨List.mem_of_mem_drop ha, fun htake => hdisjoint htake ha⟩
  · rintro ⟨ha, hnot⟩
    rw [← List.take_append_drop n l, List.mem_append] at ha
    exact ha.resolve_left hnot

namespace Books

variable {b b' : Books} {maxCompletedRuns : ℕ}

def storedIds (b : Books) : List String := b.stored.map ExecutionResult.runId

/-- The run was submitted and has no terminal result yet. -/
def Open (b : Books) (runId : String) : Prop :=
  runId ∈ b.submitted.map Prod.fst ∧ runId ∉ b.storedIds

/-- The keys of the books, against what was submitted and stored. -/
structure Retention (maxCompletedRuns : ℕ) (b : Books) : Prop where
  submitted_nodup : (b.submitted.map Prod.fst).Nodup
  stored_nodup : b.storedIds.Nodup
  stored_submitted : ∀ r ∈ b.storedIds, r ∈ b.submitted.map Prod.fst
  order : b.order = b.storedIds.rtake maxCompletedRuns
  results : ∀ r, r ∈ b.results.keys ↔ r ∈ b.order
  statuses : ∀ r, r ∈ b.statuses.keys ↔ b.Open r ∨ r ∈ b.order
  snapshots : ∀ r, (b.originOf r).isSome = true ↔ b.Open r ∨ r ∈ b.order

theorem Retention.order_subset (h : Retention maxCompletedRuns b) :
    ∀ r ∈ b.order, r ∈ b.storedIds := by
  intro r hr
  rw [h.order] at hr
  exact List.mem_of_mem_drop hr

theorem Retention.quiet (h : Retention maxCompletedRuns b) (k : Quiet b b') :
    Retention maxCompletedRuns b' := by
  have hstored : b'.storedIds = b.storedIds := congrArg (List.map ExecutionResult.runId) k.stored
  have hopen : ∀ r, b'.Open r ↔ b.Open r := by
    intro r
    unfold Open
    rw [k.submitted, hstored]
  constructor
  · rw [k.submitted]
    exact h.submitted_nodup
  · rw [hstored]
    exact h.stored_nodup
  · rw [hstored, k.submitted]
    exact h.stored_submitted
  · rw [hstored, k.order]
    exact h.order
  · rw [k.results, k.order]
    exact h.results
  · intro r
    rw [k.statuses, hopen, k.order]
    exact h.statuses r
  · intro r
    rw [k.origins, hopen, k.order]
    exact h.snapshots r

theorem Retention.submit (h : Retention maxCompletedRuns b) {runId : String}
    {request : ExecutionRequest} {snapshot : ExecutionRunSnapshot}
    (fresh : runId ∉ b.submitted.map Prod.fst) :
    Retention maxCompletedRuns
      { b with
        statuses := b.statuses.insert runId .queued
        snapshots := b.snapshots.insert runId snapshot
        submitted := b.submitted ++ [(runId, request)] } := by
  have hunstored : runId ∉ b.storedIds := fun hr => fresh (h.stored_submitted runId hr)
  have hopen : ∀ r, Open
      { b with
        statuses := b.statuses.insert runId .queued
        snapshots := b.snapshots.insert runId snapshot
        submitted := b.submitted ++ [(runId, request)] } r ↔ r = runId ∨ b.Open r := by
    intro r
    simp only [Open, storedIds, List.map_append, List.map_cons, List.map_nil, List.mem_append,
      List.mem_singleton]
    constructor
    · rintro ⟨hr | hr, hs⟩
      · exact .inr ⟨hr, hs⟩
      · exact .inl hr
    · rintro (rfl | ⟨hr, hs⟩)
      · exact ⟨.inr rfl, hunstored⟩
      · exact ⟨.inl hr, hs⟩
  refine ⟨?_, h.stored_nodup, fun r hr => ?_, h.order, h.results, fun r => ?_, fun r => ?_⟩
  · rw [List.map_append]
    exact List.nodup_append'.mpr ⟨h.submitted_nodup, List.nodup_singleton _, by simpa using fresh⟩
  · rw [List.map_append]
    exact List.mem_append_left _ (h.stored_submitted r hr)
  · rw [hopen, or_assoc, ← h.statuses r, Dict.mem_keys_insert]
  · rw [hopen, or_assoc, ← h.snapshots r]
    unfold originOf
    rw [Dict.get?_insert]
    by_cases hr : r = runId
    · simp [hr]
    · simp [hr]

/-- The end of a run: it goes last, and the oldest are dropped. -/
theorem Retention.store (h : Retention maxCompletedRuns b) {result : ExecutionResult}
    (listed : result.runId ∈ b.submitted.map Prod.fst) (unstored : result.runId ∉ b.storedIds)
    (k : Filing maxCompletedRuns result b b') : Retention maxCompletedRuns b' := by
  have hstored : b'.storedIds = b.storedIds ++ [result.runId] := by
    rw [storedIds, k.stored, List.map_append]
    rfl
  have hordered : result.runId ∉ b.order := fun hr => unstored (h.order_subset _ hr)
  have hlog : (b.order ++ [result.runId]).Nodup := by
    refine List.nodup_append'.mpr ⟨?_, List.nodup_singleton _, ?_⟩
    · rw [h.order]
      exact h.stored_nodup.sublist (List.drop_sublist _ _)
    · simpa using hordered
  -- A run is still in the log if it was or is the new one, and is not stale.
  have hkept : ∀ r, r ∈ b'.order ↔
      (r ∈ b.order ∨ r = result.runId) ∧ r ∉ b.stale maxCompletedRuns result.runId := by
    intro r
    rw [k.order, List.rtake, mem_drop_iff_of_nodup hlog, List.mem_append, List.mem_singleton,
      List.length_append, List.length_singleton]
    rfl
  have hstale : ∀ r ∈ b.stale maxCompletedRuns result.runId, r ∈ b.order ∨ r = result.runId := by
    intro r hr
    simpa using List.mem_of_mem_take hr
  have hopen : ∀ r, b'.Open r ↔ b.Open r ∧ r ≠ result.runId := by
    intro r
    unfold Open
    rw [k.submitted, hstored, List.mem_append, List.mem_singleton, not_or, and_assoc]
  have hclosed : ∀ r ∈ b.order, ¬ b.Open r := fun r hr ho => ho.2 (h.order_subset r hr)
  constructor
  · rw [k.submitted]
    exact h.submitted_nodup
  · rw [hstored]
    exact List.nodup_append'.mpr ⟨h.stored_nodup, List.nodup_singleton _, by simpa using unstored⟩
  · intro r hr
    rw [hstored, List.mem_append, List.mem_singleton] at hr
    rw [k.submitted]
    rcases hr with hr | rfl
    · exact h.stored_submitted r hr
    · exact listed
  · rw [k.order, h.order, hstored]
    exact rtake_concat_rtake _ _ _
  · intro r
    have hold := h.results r
    rw [← Dict.isSome_get?] at hold ⊢
    rw [k.results r, hkept]
    grind
  · intro r
    have hold := h.statuses r
    have := hstale r
    have := hclosed r
    rw [← Dict.isSome_get?] at hold ⊢
    rw [k.statuses r, hkept, hopen]
    have : b.Open result.runId := ⟨listed, unstored⟩
    grind
  · intro r
    have hold := h.snapshots r
    have := hstale r
    have := hclosed r
    rw [k.origins r, hkept, hopen]
    have : b.Open result.runId := ⟨listed, unstored⟩
    have : ((b.originOf r).map fun origin =>
        if r = result.runId then { origin with slotId := result.slotId } else origin).isSome =
          (b.originOf r).isSome := Option.isSome_map ..
    grind

/-- **Every posting keeps the books in step.** -/
theorem Retention.posting {proper : Prop} (h : Retention maxCompletedRuns b)
    (k : Posting proper maxCompletedRuns b b') : Retention maxCompletedRuns b' := by
  cases k with
  | quiet quiet => exact h.quiet quiet
  | submit fresh => exact h.submit fresh
  | store request listed unstored filed filing =>
    exact h.store (List.mem_map.mpr ⟨_, listed, rfl⟩) unstored filing

end Books

namespace Coordinator

open Books

variable {cfg : Config} {c c' : Coordinator}

theorem retention_of_run {l : List Action} (h : Run (step cfg) Ordinary {} l c) :
    c.books.Retention cfg.maxCompletedRuns := by
  refine (h.invariant (I := fun d => Inv d ∧ d.FilesResults ∧
    d.books.Retention cfg.maxCompletedRuns) ⟨inv_empty, ?_, ?_⟩ ?_).2.2
  · intro task e result he
    cases he
  · constructor <;> simp [Books.storedIds, Books.Open, originOf]
  · rintro d d' a ⟨hinv, hfiles, hretention⟩ ha hstep
    refine ⟨hinv.step ha hstep, hfiles.step ha hstep, ?_⟩
    have hpostings : Postings False cfg.maxCompletedRuns d.books d'.books :=
      step_postings hinv hfiles ha False.elim hstep
    exact hpostings.keep hretention fun hb k => hb.posting k

/-- The run is queued or running. -/
def Active (c : Coordinator) (runId : String) : Prop :=
  c.statuses.get? runId = some .queued ∨ c.statuses.get? runId = some .running

instance (c : Coordinator) : DecidablePred c.Active := fun _ =>
  inferInstanceAs (Decidable (_ ∨ _))

theorem Ledger.active_iff (h : Ledger c) (r : String) : c.Active r ↔ c.Open r := by
  unfold Active
  rw [h.queued_iff, h.running_iff]
  by_cases hr : r ∈ c.startedIds <;> simp [hr]

/-- Two runs finish, the second by a cancel, where the result of one is kept. -/
def retainedOne : List Action :=
  [.submit (.sample "first") "", .submit (.sample "second") "", .submit (.sample "third") "",
    .worker 0, .execution 0, .backendEnds 0 (.dict {}), .worker 0, .cancel "second", .tick,
    .submit (.sample "fourth") ""]

end Coordinator

end Portex
