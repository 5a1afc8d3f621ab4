import Portex.Coordinator.Moves

/-!
# The invariant of the coordinator

The maps of the coordinator, its deques, tasks and futures say the same about every run. The
invariant ties them to the history: a run is queued, running or stored according to whether it
was started and stored, the deque of a group is what is left of the group's submissions, and a
task in flight is awaited by the one worker of its group.

## Main definitions

* `Ledger`: the maps of runs, against the history
* `Queues`: the deques, against the history
* `Tasks`: workers, executions and the maps of running runs
* `Cancels`: the runs cancelled under their workers
* `Inv`: all of these

## Main results

* `Inv.move`: every move keeps the invariant
* `inv_of_run`: it holds in every run with distinct run ids and conforming backends
-/

namespace Portex

open Foundation

namespace Coordinator

/-! ## What the history says -/

def submittedIds (c : Coordinator) : List String := c.history.submitted.map Prod.fst

def startedIds (c : Coordinator) : List String := c.history.started.map Prod.fst

/-- The submissions of a group, in order. -/
def submittedIn (c : Coordinator) (groupFolder : String) : List (String × ExecutionRequest) :=
  c.history.submitted.filter fun entry => entry.2.groupFolder = groupFolder

/-- The runs of a group that started, in order. -/
def startedIn (c : Coordinator) (groupFolder : String) : List (String × ExecutionRequest) :=
  c.history.started.filter fun entry => entry.2.groupFolder = groupFolder

/-- The run was submitted and has no terminal result yet. -/
def Open (c : Coordinator) (runId : String) : Prop :=
  runId ∈ c.submittedIds ∧ runId ∉ c.storedIds

/-- The maps of runs, against the history. -/
structure Ledger (c : Coordinator) : Prop where
  submitted_nodup : c.submittedIds.Nodup
  stored_nodup : c.storedIds.Nodup
  stored_submitted : ∀ r ∈ c.storedIds, r ∈ c.submittedIds
  stored_terminal : ∀ result ∈ c.history.stored,
    result.status ≠ .queued ∧ result.status ≠ .running
  request_iff : ∀ r q, c.runRequests.get? r = some q ↔
    (r, q) ∈ c.history.submitted ∧ r ∉ c.storedIds
  future_ids : c.futures.cells.map Future.runId = c.submittedIds
  future_iff : ∀ r i, c.runFutures.get? r = some i ↔
    c.submittedIds[i]? = some r ∧ r ∉ c.storedIds
  pending : ∀ i f, c.futures.get? i = some f → f.state = .pending → f.runId ∉ c.storedIds
  resolved : ∀ i f result, c.futures.get? i = some f → f.state = .resolved result →
    result ∈ c.history.stored ∧ result.runId = f.runId
  queued_iff : ∀ r, c.statuses.get? r = some .queued ↔ c.Open r ∧ r ∉ c.startedIds
  running_iff : ∀ r, c.statuses.get? r = some .running ↔ c.Open r ∧ r ∈ c.startedIds
  closed : ∀ r s, c.statuses.get? r = some s → s ≠ .queued → s ≠ .running →
    ∃ result ∈ c.history.stored, result.runId = r ∧ result.status = s
  order : c.completedOrder <:+ c.storedIds
  results : ∀ r result, c.completedResults.get? r = some result →
    result ∈ c.history.stored ∧ result.runId = r

/-- The deques, against the history. -/
structure Queues (c : Coordinator) : Prop where
  fifo : ∀ g, ∃ passed, c.submittedIn g = passed ++ c.queue g ∧ (c.startedIn g).Sublist passed
  cancelled_entry : ∀ g, ∀ entry ∈ c.queue g, entry.1 ∈ c.storedIds →
    (entry.1, ExecutionStatus.queued) ∈ c.history.cancelled
  cancelled_queued : ∀ r, (r, ExecutionStatus.queued) ∈ c.history.cancelled →
    r ∈ c.storedIds ∧ r ∉ c.startedIds

/-- The worker stands at the `await` of the execution task of a run. -/
def Awaits (c : Coordinator) (worker : ℕ) (groupFolder runId : String)
    (request : ExecutionRequest) (task : ℕ) : Prop :=
  c.workers.get? worker = some { groupFolder, phase := .awaiting runId request task }

/-- Some worker stands at the `await` of the execution task of the run. -/
def Awaited (c : Coordinator) (runId : String) : Prop :=
  ∃ worker groupFolder request task, c.Awaits worker groupFolder runId request task

/-- Workers, executions and the maps of running runs. -/
structure Tasks (c : Coordinator) : Prop where
  group_worker : ∀ g worker, c.groupWorkers.get? g = some worker →
    ∃ phase, c.workers.get? worker = some { groupFolder := g, phase }
  live_worker : ∀ worker w, c.workers.get? worker = some w → w.phase.done = false →
    c.groupWorkers.get? w.groupFolder = some worker
  execution_ids : c.executions.cells.map (fun e => (e.runId, e.request)) = c.history.started
  conforming : ∀ task e, c.executions.get? task = some e → e.Conforming
  awaits : ∀ worker g r q task, c.Awaits worker g r q task →
    q.groupFolder = g ∧ c.runningTasks.get? r = some task ∧
      ∃ e, c.executions.get? task = some e ∧ e.runId = r ∧ e.request = q
  running_task : ∀ r task, c.runningTasks.get? r = some task →
    ∃ worker g q, c.Awaits worker g r q task
  running_backend : ∀ r, (c.runningBackends.get? r).isSome = (c.runningTasks.get? r).isSome
  undone : ∀ task e, c.executions.get? task = some e → ¬ e.IsDone →
    ∃ worker, c.Awaits worker e.request.groupFolder e.runId e.request task
  calls : ∀ call ∈ c.history.calls, (call.runId, call.request) ∈ c.history.started

/-- The runs whose workers are to drop what they await. -/
structure Cancels (c : Coordinator) : Prop where
  cancelled_nodup : c.cancelledRunIds.Nodup
  cancelled_iff : ∀ r, r ∈ c.cancelledRunIds ↔ r ∈ c.storedIds ∧ c.Awaited r
  requested : ∀ task e, c.executions.get? task = some e → e.cancelRequested = true →
    e.runId ∈ c.storedIds

/-- **The invariant.** -/
structure Inv (c : Coordinator) : Prop extends Ledger c, Queues c, Tasks c, Cancels c

variable {c c' : Coordinator} {guards : Guards}

/-! ## First consequences -/

theorem Ledger.request_unique (h : Ledger c) {r : String} {q q' : ExecutionRequest}
    (hq : (r, q) ∈ c.history.submitted) (hq' : (r, q') ∈ c.history.submitted) : q = q' := by
  have := List.inj_on_of_nodup_map h.submitted_nodup hq hq' rfl
  exact congrArg Prod.snd this

theorem Ledger.future_of_open (h : Ledger c) {r : String} (hr : c.Open r) :
    ∃ i, c.runFutures.get? r = some i := by
  obtain ⟨i, hi⟩ := List.getElem?_of_mem hr.1
  exact ⟨i, (h.future_iff r i).mpr ⟨hi, hr.2⟩⟩

theorem Ledger.runId_future (h : Ledger c) {i : ℕ} {f : Future} (hf : c.futures.get? i = some f) :
    c.submittedIds[i]? = some f.runId := by
  rw [← h.future_ids, List.getElem?_map]
  exact congrArg (Option.map Future.runId) hf

/-- A future of the run of another future is that future. -/
theorem Ledger.future_unique (h : Ledger c) {r : String} {i j : ℕ}
    (hi : c.submittedIds[i]? = some r) (hj : c.submittedIds[j]? = some r) : i = j := by
  obtain ⟨hi', hi⟩ := List.getElem?_eq_some_iff.mp hi
  obtain ⟨hj', hj⟩ := List.getElem?_eq_some_iff.mp hj
  exact (List.Nodup.getElem_inj_iff h.submitted_nodup).mp (hi.trans hj.symm)

/-! ## Closing a run -/

namespace Closing

variable {result : ExecutionResult} (k : Closing c result)

@[simp] theorem storedIds_apply : k.apply.storedIds = c.storedIds ++ [result.runId] := by
  simp [storedIds, apply]

@[simp] theorem statuses_apply : k.apply.statuses = k.statuses := rfl

@[simp] theorem completedResults_apply : k.apply.completedResults = k.results := rfl

@[simp] theorem completedOrder_apply : k.apply.completedOrder = k.order := rfl

@[simp] theorem runFutures_apply : k.apply.runFutures = c.runFutures.erase result.runId := rfl

@[simp] theorem futures_apply : k.apply.futures = k.futures := rfl

@[simp] theorem runRequests_apply : k.apply.runRequests = c.runRequests.erase result.runId := rfl

@[simp] theorem stored_apply : k.apply.history.stored = c.history.stored ++ [result] := rfl

@[simp] theorem submitted_apply : k.apply.history.submitted = c.history.submitted := rfl

@[simp] theorem submittedIds_apply : k.apply.submittedIds = c.submittedIds := rfl

@[simp] theorem startedIds_apply : k.apply.startedIds = c.startedIds := rfl

theorem mem_stored_of_mem_evicted (h : Ledger c) {r : String} (hr : r ∈ k.evicted) :
    r ∈ c.storedIds ++ [result.runId] := by
  have hmem : r ∈ c.completedOrder ++ [result.runId] := by
    rw [k.order_eq]
    exact List.mem_append_left _ hr
  rcases List.mem_append.mp hmem with hmem | hmem
  · exact List.mem_append_left _ (h.order.subset hmem)
  · exact List.mem_append_right _ hmem

theorem open_apply {r : String} : k.apply.Open r ↔ c.Open r ∧ r ≠ result.runId := by
  simp [Open, and_assoc]

theorem get?_futures (h : Ledger c) (hopen : c.Open result.runId) (i : ℕ) :
    k.futures.get? i = (c.futures.get? i).map fun f =>
      if f.runId = result.runId then f.setResult result else f := by
  obtain ⟨j, hj⟩ := h.future_of_open hopen
  have hk : k.futures = c.futures.modify j (Future.setResult result) := by
    unfold futures
    rw [hj]
  rw [hk, Heap.get?_modify]
  have hj' := ((h.future_iff _ j).mp hj).1
  cases hf : c.futures.get? i with
  | none => simp
  | some f =>
    have hi := h.runId_future hf
    by_cases hij : i = j
    · subst hij
      have : f.runId = result.runId := Option.some.inj (hi.symm.trans hj')
      simp [this]
    · have : f.runId ≠ result.runId := fun he => hij (h.future_unique (he ▸ hi) hj')
      simp [hij, this]

/-- The ledger after a run is stored. -/
theorem ledger (h : Ledger c) (hopen : c.Open result.runId)
    (hterminal : result.status ≠ .queued ∧ result.status ≠ .running) : Ledger k.apply where
  submitted_nodup := h.submitted_nodup
  stored_nodup := by
    rw [storedIds_apply]
    exact List.nodup_append'.mpr ⟨h.stored_nodup, List.nodup_singleton _, by
      simpa using hopen.2⟩
  stored_submitted r hr := by
    rw [storedIds_apply, List.mem_append, List.mem_singleton] at hr
    rcases hr with hr | rfl
    · exact h.stored_submitted r hr
    · exact hopen.1
  stored_terminal res hres := by
    rcases List.mem_append.mp hres with hres | hres
    · exact h.stored_terminal res hres
    · exact List.mem_singleton.mp hres ▸ hterminal
  -- The maps of the open runs lose the entry of this one.
  request_iff r q := by
    have := h.request_iff r q
    simp only [runRequests_apply, submitted_apply, storedIds_apply, Dict.get?_erase]
    grind
  future_ids := by
    obtain ⟨j, hj⟩ := h.future_of_open hopen
    have hk : k.futures = c.futures.modify j (Future.setResult result) := by
      unfold futures
      rw [hj]
    rw [futures_apply, hk, Heap.map_cells_modify Future.runId _ (Future.runId_setResult result)]
    exact h.future_ids
  future_iff r i := by
    have := h.future_iff r i
    simp only [runFutures_apply, submittedIds_apply, storedIds_apply, Dict.get?_erase]
    grind
  pending i f hf hpending := by
    rw [futures_apply, k.get?_futures h hopen] at hf
    obtain ⟨f', hf', rfl⟩ := Option.map_eq_some_iff.mp hf
    rw [storedIds_apply, List.mem_append, List.mem_singleton]
    split at hpending <;> rename_i hown
    · unfold Future.setResult at hpending
      cases hstate : f'.state <;> simp [hstate] at hpending
    · rw [if_neg hown]
      rintro (hr | hr)
      · exact h.pending i f' hf' hpending hr
      · exact hown hr
  resolved i f res hf hres := by
    rw [futures_apply, k.get?_futures h hopen] at hf
    obtain ⟨f', hf', rfl⟩ := Option.map_eq_some_iff.mp hf
    rw [stored_apply]
    have hold (hstate : f'.state = .resolved res) :
        res ∈ c.history.stored ++ [result] ∧ res.runId = f'.runId := by
      obtain ⟨hmem, hown⟩ := h.resolved i f' res hf' hstate
      exact ⟨List.mem_append_left _ hmem, hown⟩
    split at hres <;> rename_i hown
    · -- The future of the run takes the result, unless it was given up.
      rw [if_pos hown, Future.runId_setResult]
      unfold Future.setResult at hres
      cases hstate : f'.state with
      | pending =>
        simp only [hstate, FutureState.resolved.injEq] at hres
        exact ⟨by simp [hres], by rw [← hres, hown]⟩
      | resolved res' =>
        simp only [hstate] at hres
        exact hold (hstate.trans hres)
      | cancelled => simp [hstate] at hres
    · rw [if_neg hown]
      exact hold hres
  -- A run that is evicted has a result, so its status is of no open run.
  queued_iff r := by
    have hev := k.mem_stored_of_mem_evicted h (r := r)
    have := h.queued_iff r
    rw [statuses_apply, k.get?_statuses, open_apply, startedIds_apply]
    grind [Open]
  running_iff r := by
    have hev := k.mem_stored_of_mem_evicted h (r := r)
    have := h.running_iff r
    rw [statuses_apply, k.get?_statuses, open_apply, startedIds_apply]
    grind [Open]
  closed r s hs := by
    rw [statuses_apply, k.get?_statuses] at hs
    rw [stored_apply]
    intro hq hr
    have := h.closed r s
    grind
  order := by
    rw [completedOrder_apply, storedIds_apply]
    obtain ⟨front, hfront⟩ := h.order
    refine ⟨front ++ k.evicted, ?_⟩
    rw [List.append_assoc, ← k.order_eq, ← List.append_assoc, hfront]
  results r res hres := by
    rw [completedResults_apply, k.get?_results] at hres
    rw [stored_apply]
    have := h.results r res
    grind

end Closing

/-! ## Entries, started runs and awaited runs -/

theorem mem_startedIds {r : String} : r ∈ c.startedIds ↔ ∃ q, (r, q) ∈ c.history.started := by
  simp [startedIds]

theorem Queues.started_submitted (h : Queues c) {entry : String × ExecutionRequest}
    (hs : entry ∈ c.history.started) : entry ∈ c.history.submitted := by
  obtain ⟨passed, hpassed, hsub⟩ := h.fifo entry.2.groupFolder
  have hin : entry ∈ c.startedIn entry.2.groupFolder := List.mem_filter.mpr ⟨hs, by simp⟩
  have : entry ∈ c.submittedIn entry.2.groupFolder := by
    rw [hpassed]
    exact List.mem_append_left _ (hsub.subset hin)
  exact (List.mem_filter.mp this).1

theorem Queues.entry_submitted (h : Queues c) {g : String} {entry : String × ExecutionRequest}
    (he : entry ∈ c.queue g) : entry ∈ c.history.submitted ∧ entry.2.groupFolder = g := by
  obtain ⟨passed, hpassed, -⟩ := h.fifo g
  have : entry ∈ c.submittedIn g := by
    rw [hpassed]
    exact List.mem_append_right _ he
  simpa [submittedIn] using this

/-- The runs in a deque were not started. -/
theorem Inv.entry_unstarted (h : Inv c) {g : String} {entry : String × ExecutionRequest}
    (he : entry ∈ c.queue g) : entry.1 ∉ c.startedIds := by
  intro hs
  obtain ⟨q, hq⟩ := mem_startedIds.mp hs
  obtain ⟨hsub, hg⟩ := h.entry_submitted he
  obtain rfl : q = entry.2 := h.request_unique (h.started_submitted hq) hsub
  obtain ⟨passed, hpassed, hpass⟩ := h.fifo g
  have hnodup : (c.submittedIn g).Nodup :=
    (List.Nodup.of_map _ h.submitted_nodup).filter _
  rw [hpassed, List.nodup_append] at hnodup
  have hin : entry ∈ passed := hpass.subset (List.mem_filter.mpr ⟨hq, by simp [hg]⟩)
  exact hnodup.2.2 entry hin entry he rfl

theorem Ledger.open_of_wanted (h : Ledger c) {r : String} (hr : c.wanted r = true) :
    c.Open r := by
  unfold wanted at hr
  split at hr
  · cases hr
  · rename_i i hi
    obtain ⟨hid, hstored⟩ := (h.future_iff r i).mp hi
    exact ⟨List.mem_of_getElem? hid, hstored⟩

theorem Tasks.started_of_awaits (h : Tasks c) {worker task : ℕ} {g r : String}
    {q : ExecutionRequest} (ha : c.Awaits worker g r q task) : (r, q) ∈ c.history.started := by
  obtain ⟨-, -, e, he, rfl, rfl⟩ := h.awaits worker g r q task ha
  rw [← h.execution_ids]
  exact List.mem_map.mpr ⟨e, List.mem_of_getElem? he, rfl⟩

/-- An awaited run that was not cancelled is open. -/
theorem Inv.open_of_awaits (h : Inv c) {worker task : ℕ} {g r : String} {q : ExecutionRequest}
    (ha : c.Awaits worker g r q task) (hr : r ∉ c.cancelledRunIds) : c.Open r := by
  refine ⟨?_, fun hs => hr ((h.cancelled_iff r).mpr ⟨hs, worker, g, q, task, ha⟩)⟩
  exact List.mem_map.mpr ⟨_, h.started_submitted (h.started_of_awaits ha), rfl⟩

/-- What an awaited task returned is a result of the awaited run, with a terminal status. -/
theorem Tasks.own_result (h : Tasks c) {worker task : ℕ} {g r : String} {q : ExecutionRequest}
    {e : Execution} {result : ExecutionResult} (ha : c.Awaits worker g r q task)
    (he : c.executions.get? task = some e) (hdone : e.phase = .done (.returned result)) :
    result.runId = r ∧ result.status ∈ [ExecutionStatus.completed, .failed, .timeout] := by
  obtain ⟨-, -, e', he', hr, -⟩ := h.awaits _ _ _ _ _ ha
  obtain rfl := Option.some.inj (he.symm.trans he')
  rcases h.conforming _ _ he _ hdone with hcancel | ⟨result', hresult, hown, hterminal⟩
  · cases hcancel
  · cases hresult
    exact ⟨hown.trans hr, hterminal⟩

/-! ## Moves keep the ledger -/

section Submitted

variable (runId : String) (request : ExecutionRequest)

@[simp] theorem runFutures_submitted :
    (c.submitted runId request).runFutures = c.runFutures.insert runId c.futures.size := rfl

@[simp] theorem futures_submitted :
    (c.submitted runId request).futures = c.futures.alloc { runId } := rfl

@[simp] theorem runRequests_submitted :
    (c.submitted runId request).runRequests = c.runRequests.insert runId request := rfl

@[simp] theorem statuses_submitted :
    (c.submitted runId request).statuses = c.statuses.insert runId .queued := rfl

@[simp] theorem history_submitted : (c.submitted runId request).history =
    { c.history with submitted := c.history.submitted ++ [(runId, request)] } := rfl

@[simp] theorem storedIds_submitted : (c.submitted runId request).storedIds = c.storedIds := rfl

@[simp] theorem startedIds_submitted :
    (c.submitted runId request).startedIds = c.startedIds := rfl

@[simp] theorem submittedIds_submitted :
    (c.submitted runId request).submittedIds = c.submittedIds ++ [runId] := by
  simp [submittedIds]

end Submitted

theorem open_submitted {runId : String} {request : ExecutionRequest} (h : Ledger c)
    (fresh : runId ∉ c.submittedIds) {r : String} :
    (c.submitted runId request).Open r ↔ c.Open r ∨ r = runId := by
  have := h.stored_submitted r
  simp only [Open, submittedIds_submitted, storedIds_submitted, List.mem_append,
    List.mem_singleton]
  grind

theorem Ledger.submit (h : Inv c) {runId : String} {request : ExecutionRequest}
    (fresh : runId ∉ c.submittedIds) : Ledger (c.submitted runId request) := by
  -- There is a future for each run that was submitted, so the next one is its last.
  have hsize : c.futures.size = c.submittedIds.length := by
    rw [← h.future_ids, List.length_map]
    rfl
  have hstored : runId ∉ c.storedIds := fun hr => fresh (h.stored_submitted _ hr)
  have hstarted : runId ∉ c.startedIds := by
    intro hr
    obtain ⟨q, hq⟩ := mem_startedIds.mp hr
    exact fresh (List.mem_map.mpr ⟨_, h.started_submitted hq, rfl⟩)
  have hfresh : ∀ q, (runId, q) ∉ c.history.submitted := fun q hq =>
    fresh (List.mem_map.mpr ⟨_, hq, rfl⟩)
  exact
  { h.toLedger with
    submitted_nodup := by
      rw [submittedIds_submitted]
      exact List.nodup_append'.mpr ⟨h.submitted_nodup, List.nodup_singleton _, by
        simpa using fresh⟩
    stored_submitted := by
      intro r hr
      rw [submittedIds_submitted]
      exact List.mem_append_left _ (h.stored_submitted r hr)
    request_iff := by
      intro r q
      have := h.request_iff r q
      simp only [runRequests_submitted, history_submitted, storedIds_submitted, Dict.get?_insert,
        List.mem_append, List.mem_singleton, Prod.mk.injEq]
      grind
    future_ids := by
      rw [submittedIds_submitted, ← h.future_ids, futures_submitted]
      simp [Heap.alloc]
    future_iff := by
      intro r i
      have := h.future_iff r i
      have hlt : c.submittedIds[i]? = some r → i < c.submittedIds.length := fun hi =>
        (List.getElem?_eq_some_iff.mp hi).1
      have hmem : c.submittedIds[i]? = some r → r ∈ c.submittedIds := List.mem_of_getElem?
      simp only [runFutures_submitted, submittedIds_submitted, storedIds_submitted,
        Dict.get?_insert, hsize, List.getElem?_append]
      grind
    pending := by
      intro i f hf hpending
      have := h.pending i f
      simp only [futures_submitted, Heap.get?_alloc] at hf
      rw [storedIds_submitted]
      grind
    resolved := by
      intro i f res hf hres
      have := h.resolved i f res
      simp only [futures_submitted, Heap.get?_alloc] at hf
      rw [history_submitted]
      grind
    queued_iff := by
      intro r
      have := h.queued_iff r
      rw [open_submitted h.toLedger fresh, startedIds_submitted]
      rw [statuses_submitted, Dict.get?_insert]
      grind
    running_iff := by
      intro r
      have := h.running_iff r
      rw [open_submitted h.toLedger fresh, startedIds_submitted]
      rw [statuses_submitted, Dict.get?_insert]
      grind
    closed := by
      intro r s hs hq hr
      have := h.closed r s
      rw [statuses_submitted, Dict.get?_insert] at hs
      rw [history_submitted]
      grind }

section Launched

variable (worker : ℕ) (g runId : String) (request : ExecutionRequest)
  (rest : List (String × ExecutionRequest)) (backendName key sessionId : String)

@[simp] theorem statuses_launched :
    (c.launched worker g runId request rest backendName key sessionId).statuses =
      c.statuses.insert runId .running := rfl

@[simp] theorem storedIds_launched :
    (c.launched worker g runId request rest backendName key sessionId).storedIds =
      c.storedIds := rfl

@[simp] theorem submittedIds_launched :
    (c.launched worker g runId request rest backendName key sessionId).submittedIds =
      c.submittedIds := rfl

@[simp] theorem started_launched :
    (c.launched worker g runId request rest backendName key sessionId).history.started =
      c.history.started ++ [(runId, request)] := rfl

@[simp] theorem startedIds_launched :
    (c.launched worker g runId request rest backendName key sessionId).startedIds =
      c.startedIds ++ [runId] := by
  simp [startedIds]

theorem open_launched {r : String} :
    (c.launched worker g runId request rest backendName key sessionId).Open r ↔ c.Open r :=
  Iff.rfl

end Launched

theorem Ledger.launch (h : Ledger c) {worker : ℕ} {g runId : String} {request : ExecutionRequest}
    {rest : List (String × ExecutionRequest)} {backendName key sessionId : String}
    (hopen : c.Open runId) :
    Ledger (c.launched worker g runId request rest backendName key sessionId) :=
  { h with
    queued_iff := by
      intro r
      have := h.queued_iff r
      rw [open_launched, startedIds_launched, statuses_launched, Dict.get?_insert]
      grind
    running_iff := by
      intro r
      have := h.running_iff r
      rw [open_launched, startedIds_launched, statuses_launched, Dict.get?_insert]
      grind
    closed := by
      intro r s hs hq hr
      have hold := h.closed r s
      rw [statuses_launched, Dict.get?_insert] at hs
      split at hs
      · exact absurd (Option.some.inj hs).symm hr
      · exact hold hs hq hr }

/-- **Moves keep the ledger.** -/
theorem Ledger.move (h : Inv c) (m : Move guards c c') : Ledger c' := by
  cases m with
  | noise => exact { h.toLedger with }
  | submit fresh => exact .submit h fresh
  | spawn fresh => exact { Ledger.submit h fresh with }
  | cancelQueued k hstatus hcancelled =>
    have hopen := ((h.queued_iff _).mp hstatus).1
    exact { k.ledger h.toLedger hopen (by simp [hcancelled]) with }
  | cancelRunning hstatus hbackend k hcancelled =>
    have hopen := ((h.running_iff _).mp hstatus).1
    exact { k.ledger { h.toLedger with } hopen (by simp [hcancelled]) with }
  | wake => exact { h.toLedger with }
  | skip => exact { h.toLedger with }
  | reject active queue hwanted hfailed k =>
    exact k.ledger { h.toLedger with } (h.open_of_wanted hwanted) (by simp [hfailed])
  | launch active queue hwanted => exact .launch h.toLedger (h.open_of_wanted hwanted)
  | finish => exact { h.toLedger with }
  | collectCancelled => exact { h.toLedger with }
  | collectResult ha he hdone hkept k =>
    obtain ⟨rfl, hterminal⟩ := h.own_result ha he hdone
    refine k.ledger { h.toLedger with } (h.open_of_awaits ha hkept) ?_
    constructor <;> intro hs <;> simp [hs] at hterminal
  | turn => exact { h.toLedger with }

/-! ## Moves keep the deques -/

theorem queue_of_groupQueues {g : String} {rest : List (String × ExecutionRequest)}
    (hc : c'.groupQueues = c.groupQueues.insert g rest) (g' : String) :
    c'.queue g' = if g' = g then rest else c.queue g' := by
  simp only [Coordinator.queue, Dict.getD, hc, Dict.get?_insert]
  split <;> rfl

/-- The rest of a deque does not hold its head's run again. -/
theorem Inv.head_not_mem (h : Inv c) {g r : String} {q : ExecutionRequest}
    {rest : List (String × ExecutionRequest)} (hq : c.queue g = (r, q) :: rest)
    {g' : String} {entry : String × ExecutionRequest}
    (he : entry ∈ if g' = g then rest else c.queue g') : entry.1 ≠ r := by
  rintro rfl
  have hhead : (entry.1, q) ∈ c.queue g := hq ▸ List.mem_cons_self
  obtain ⟨hsub, hg⟩ := h.entry_submitted hhead
  obtain ⟨passed, hpassed, -⟩ := h.fifo g
  have hnodup : (c.submittedIn g).Nodup :=
    (List.Nodup.of_map _ h.submitted_nodup).filter _
  rw [hpassed, hq, List.nodup_append, List.nodup_cons] at hnodup
  split at he
  · have : entry ∈ c.queue g := hq ▸ List.mem_cons_of_mem _ he
    have heq : entry = (entry.1, q) := Prod.ext rfl
      (h.request_unique (h.entry_submitted this).1 hsub)
    exact hnodup.2.1.1 (heq ▸ he)
  · rename_i hne
    obtain ⟨hsub', hg'⟩ := h.entry_submitted he
    obtain rfl : entry.2 = q := h.request_unique hsub' hsub
    exact hne (hg'.symm.trans hg)

/-- Dropping the head of a deque. -/
theorem Queues.pop (h : Queues c) {g r : String} {q : ExecutionRequest}
    {rest : List (String × ExecutionRequest)} (hq : c.queue g = (r, q) :: rest) :
    Queues { c with groupQueues := c.groupQueues.insert g rest } where
  fifo g' := by
    obtain ⟨passed, hpassed, hsub⟩ := h.fifo g'
    rw [queue_of_groupQueues (c := c) rfl]
    split
    · rename_i hg
      subst hg
      refine ⟨passed ++ [(r, q)], ?_, hsub.trans (List.sublist_append_left _ _)⟩
      rw [List.append_assoc]
      exact hpassed.trans (by rw [hq]; rfl)
    · exact ⟨passed, hpassed, hsub⟩
  cancelled_entry g' entry he hs := by
    rw [queue_of_groupQueues (c := c) rfl] at he
    split at he
    · exact h.cancelled_entry g entry (hq ▸ List.mem_cons_of_mem _ he) hs
    · exact h.cancelled_entry g' entry he hs
  cancelled_queued := h.cancelled_queued

/-- Storing the result of a run that is in no deque. -/
theorem Closing.queues {result : ExecutionResult} (k : Closing c result) (h : Queues c)
    (hout : ∀ g, ∀ entry ∈ c.queue g, entry.1 ≠ result.runId) : Queues k.apply where
  fifo := h.fifo
  cancelled_entry g entry he hs := by
    rw [Closing.storedIds_apply, List.mem_append, List.mem_singleton] at hs
    rcases hs with hs | hs
    · exact h.cancelled_entry g entry he hs
    · exact absurd hs (hout g entry he)
  cancelled_queued r hr := by
    obtain ⟨hs, hn⟩ := h.cancelled_queued r hr
    rw [Closing.storedIds_apply]
    exact ⟨List.mem_append_left _ hs, hn⟩

/-- Runs that started are in no deque. -/
theorem Inv.started_not_queued (h : Inv c) {r : String} (hr : r ∈ c.startedIds) (g : String) :
    ∀ entry ∈ c.queue g, entry.1 ≠ r :=
  fun _ he heq => h.entry_unstarted he (heq ▸ hr)

theorem Queues.cancelQueued (h : Queues c) {result : ExecutionResult} (k : Closing c result)
    (hr : result.runId ∉ c.startedIds) :
    Queues (k.apply.recordCancel result.runId .queued) where
  fifo := h.fifo
  cancelled_entry g entry he hs := by
    have hs : entry.1 ∈ k.apply.storedIds := hs
    rw [Closing.storedIds_apply, List.mem_append, List.mem_singleton] at hs
    rcases hs with hs | hs
    · exact List.mem_append_left _ (h.cancelled_entry g entry he hs)
    · exact List.mem_append_right _ (by rw [hs]; exact List.mem_cons_self)
  cancelled_queued r hc := by
    show r ∈ k.apply.storedIds ∧ _
    rw [Closing.storedIds_apply]
    rcases List.mem_append.mp hc with hc | hc
    · obtain ⟨hs, hn⟩ := h.cancelled_queued r hc
      exact ⟨List.mem_append_left _ hs, hn⟩
    · obtain rfl := (Prod.mk.inj (List.mem_singleton.mp hc)).1
      exact ⟨by simp, hr⟩

theorem Queues.submit (h : Inv c) {runId : String} {request : ExecutionRequest}
    (fresh : runId ∉ c.submittedIds) : Queues (c.submitted runId request) where
  fifo g := by
    obtain ⟨passed, hpassed, hsub⟩ := h.fifo g
    refine ⟨passed, ?_, hsub⟩
    rw [queue_of_groupQueues (c := c) rfl]
    have hin : (c.submitted runId request).submittedIn g = c.submittedIn g ++
        if request.groupFolder = g then [(runId, request)] else [] := by
      simp [submittedIn, List.filter_cons]
    rw [hin, hpassed]
    split
    · rename_i hg
      rw [if_pos hg.symm, List.append_assoc, hg]
    · rename_i hg
      rw [if_neg (Ne.symm hg), List.append_nil]
  cancelled_entry g entry he hs := by
    rw [queue_of_groupQueues (c := c) rfl] at he
    have hstored : runId ∉ c.storedIds := fun hr => fresh (h.stored_submitted _ hr)
    split at he
    · rcases List.mem_append.mp he with he | he
      · exact h.cancelled_entry _ entry he hs
      · obtain rfl := List.mem_singleton.mp he
        exact absurd hs hstored
    · exact h.cancelled_entry g entry he hs
  cancelled_queued := h.cancelled_queued

theorem Queues.launch (h : Inv c) {worker : ℕ} {g runId : String} {request : ExecutionRequest}
    {rest : List (String × ExecutionRequest)} {backendName key sessionId : String}
    (hq : c.queue g = (runId, request) :: rest) (hopen : c.Open runId) :
    Queues (c.launched worker g runId request rest backendName key sessionId) where
  fifo g' := by
    obtain ⟨passed, hpassed, hsub⟩ := h.fifo g'
    have hg := (h.entry_submitted (hq ▸ List.mem_cons_self : (runId, request) ∈ c.queue g)).2
    rw [queue_of_groupQueues (c := c) rfl]
    have hin : (c.launched worker g runId request rest backendName key sessionId).startedIn g' =
        c.startedIn g' ++ if g' = g then [(runId, request)] else [] := by
      simp only at hg
      simp [startedIn, List.filter_cons, hg, eq_comm]
    rw [hin]
    split
    · rename_i hg'
      subst hg'
      refine ⟨passed ++ [(runId, request)], ?_, hsub.append (List.Sublist.refl _)⟩
      rw [List.append_assoc]
      exact hpassed.trans (by rw [hq]; rfl)
    · rw [List.append_nil]
      exact ⟨passed, hpassed, hsub⟩
  cancelled_entry g' entry he hs := by
    exact (h.toQueues.pop hq).cancelled_entry g' entry he hs
  cancelled_queued r hr := by
    obtain ⟨hs, hn⟩ := h.cancelled_queued r hr
    rw [startedIds_launched]
    refine ⟨hs, ?_⟩
    rw [List.mem_append, List.mem_singleton]
    rintro (hr | rfl)
    · exact hn hr
    · exact hopen.2 hs

/-- **Moves keep the deques.** -/
theorem Queues.move (h : Inv c) (m : Move guards c c') : Queues c' := by
  cases m with
  | noise => exact { h.toQueues with }
  | submit fresh => exact .submit h fresh
  | spawn fresh => exact { Queues.submit h fresh with }
  | cancelQueued k hstatus hcancelled =>
    exact h.toQueues.cancelQueued k ((h.queued_iff _).mp hstatus).2
  | cancelRunning hstatus hbackend k hcancelled =>
    have hr := ((h.running_iff _).mp hstatus).2
    have hclosed := k.queues { h.toQueues with } (h.started_not_queued hr)
    refine { hclosed with cancelled_entry := ?_, cancelled_queued := ?_ }
    · intro g entry he hs
      exact List.mem_append_left _ (hclosed.cancelled_entry g entry he hs)
    · intro r hc
      rcases List.mem_append.mp hc with hc | hc
      · exact hclosed.cancelled_queued r hc
      · simp at hc
  | wake => exact { h.toQueues with }
  | skip active hq => exact h.toQueues.pop hq
  | reject active hq hwanted hfailed k =>
    refine k.queues (h.toQueues.pop hq) fun g entry he => ?_
    rw [queue_of_groupQueues (c := c) rfl] at he
    exact h.head_not_mem hq he
  | launch active hq hwanted => exact .launch h hq (h.open_of_wanted hwanted)
  | finish => exact { h.toQueues with }
  | collectCancelled => exact { h.toQueues with }
  | collectResult ha he hdone hkept k =>
    obtain ⟨rfl, -⟩ := h.own_result ha he hdone
    exact k.queues { h.toQueues with } (h.started_not_queued
      (mem_startedIds.mpr ⟨_, h.started_of_awaits ha⟩))
  | turn => exact { h.toQueues with }

/-! ## Moves keep the tasks -/

theorem get?_setPhase {workers : Heap Worker} {worker : ℕ} {w : Worker}
    (hw : workers.get? worker = some w) (phase : WorkerPhase) (i : ℕ) :
    (workers.modify worker fun w => { w with phase }).get? i =
      if i = worker then some { groupFolder := w.groupFolder, phase } else workers.get? i := by
  rw [Heap.get?_modify]
  split
  · rename_i h
    rw [h, hw]
    rfl
  · rfl

/-- A run is awaited once. -/
theorem Tasks.awaits_unique (h : Tasks c) {worker worker' task task' : ℕ} {g g' r : String}
    {q q' : ExecutionRequest} (ha : c.Awaits worker g r q task)
    (ha' : c.Awaits worker' g' r q' task') :
    worker' = worker ∧ g' = g ∧ q' = q ∧ task' = task := by
  obtain ⟨hg, ht, e, he, -, hq⟩ := h.awaits _ _ _ _ _ ha
  obtain ⟨hg', ht', e', he', -, hq'⟩ := h.awaits _ _ _ _ _ ha'
  obtain rfl : task' = task := Option.some.inj (ht'.symm.trans ht)
  obtain rfl : e' = e := Option.some.inj (he'.symm.trans he)
  obtain rfl : q' = q := hq'.symm.trans hq
  obtain rfl : g' = g := hg'.symm.trans hg
  have hw := h.live_worker worker _ ha rfl
  have hw' := h.live_worker worker' _ ha' rfl
  exact ⟨Option.some.inj (hw'.symm.trans hw), rfl, rfl, rfl⟩

/-- The awaits of a coordinator in which one worker moved to a phase without an await. -/
theorem awaits_setPhase {worker : ℕ} {w : Worker} {phase : WorkerPhase}
    (hw : c.workers.get? worker = some w) (hphase : ∀ r q task, phase ≠ .awaiting r q task)
    (hc : c'.workers = c.workers.modify worker fun w => { w with phase }) {worker' task : ℕ}
    {g r : String} {q : ExecutionRequest} :
    c'.Awaits worker' g r q task ↔ worker' ≠ worker ∧ c.Awaits worker' g r q task := by
  unfold Awaits
  rw [hc, get?_setPhase hw]
  split
  · rename_i h
    simp [h, hphase]
  · rename_i h
    simp [h]

/-- A worker that changes between phases in which it awaits nothing. -/
theorem Tasks.setPhase (h : Tasks c) {worker : ℕ} {g : String} {phase : WorkerPhase}
    (phase' : WorkerPhase) (hw : c.workers.get? worker = some { groupFolder := g, phase })
    (hphase : ∀ r q task, phase ≠ .awaiting r q task)
    (hphase' : ∀ r q task, phase' ≠ .awaiting r q task)
    (hlive : phase'.done = false → phase.done = false) :
    Tasks { c with workers := c.workers.modify worker fun w => { w with phase := phase' } } := by
  -- The worker awaits nothing in either phase.
  have hsame : ∀ worker' g' r q task, Awaits
      { c with workers := c.workers.modify worker fun w => { w with phase := phase' } }
      worker' g' r q task ↔ c.Awaits worker' g' r q task := by
    intro worker' g' r q task
    rw [awaits_setPhase hw hphase' rfl]
    refine and_iff_right_of_imp fun ha heq => ?_
    subst heq
    exact hphase r q task (congrArg Worker.phase (Option.some.inj (hw.symm.trans ha)))
  exact
  { h with
    group_worker := by
      intro g' worker' hg
      obtain ⟨p, hp⟩ := h.group_worker g' worker' hg
      simp only [get?_setPhase hw]
      split
      · rename_i heq
        subst heq
        rw [hw] at hp
        exact ⟨phase', by rw [(Worker.mk.inj (Option.some.inj hp)).1]⟩
      · exact ⟨p, hp⟩
    live_worker := by
      intro worker' w hw' hdone
      simp only [get?_setPhase hw] at hw'
      split at hw'
      · rename_i heq
        obtain rfl := Option.some.inj hw'
        exact heq ▸ h.live_worker worker _ hw (hlive hdone)
      · exact h.live_worker worker' w hw' hdone
    awaits := fun worker' g' r q task ha => h.awaits worker' g' r q task ((hsame ..).mp ha)
    running_task := by
      intro r task hr
      obtain ⟨worker', g', q, ha⟩ := h.running_task r task hr
      exact ⟨worker', g', q, (hsame ..).mpr ha⟩
    undone := by
      intro task e he hundone
      obtain ⟨worker', ha⟩ := h.undone task e he hundone
      exact ⟨worker', (hsame ..).mpr ha⟩ }

/-- A worker that stops awaiting a task that is done. -/
theorem Tasks.release (h : Tasks c) {worker task : ℕ} {g r : String} {q : ExecutionRequest}
    {e : Execution} (phase : WorkerPhase) (ha : c.Awaits worker g r q task)
    (he : c.executions.get? task = some e) (hdone : e.IsDone)
    (hphase : ∀ r q task, phase ≠ .awaiting r q task) :
    Tasks (c.released worker r phase) := by
  have hiff := @awaits_setPhase c (c.released worker r phase) worker _ phase ha hphase rfl
  exact
  { h with
    group_worker := by
      intro g' worker' hg
      obtain ⟨p, hp⟩ := h.group_worker g' worker' hg
      simp only [released, get?_setPhase ha]
      split
      · rename_i heq
        subst heq
        rw [ha] at hp
        exact ⟨phase, by rw [(Worker.mk.inj (Option.some.inj hp)).1]⟩
      · exact ⟨p, hp⟩
    live_worker := by
      intro worker' w hw' hdone
      simp only [released, get?_setPhase ha] at hw'
      split at hw'
      · rename_i heq
        obtain rfl := Option.some.inj hw'
        exact heq ▸ h.live_worker worker _ ha rfl
      · exact h.live_worker worker' w hw' hdone
    awaits := by
      intro worker' g' r' q' task' ha'
      obtain ⟨hne, ha'⟩ := hiff.mp ha'
      obtain ⟨hg, ht, he'⟩ := h.awaits worker' g' r' q' task' ha'
      -- Another worker awaits another run, whose task is not forgotten.
      have hr : r' ≠ r := fun heq => hne (h.awaits_unique ha (heq ▸ ha')).1
      exact ⟨hg, by simpa [released, hr] using ht, he'⟩
    running_task := by
      intro r' task' hr
      simp only [released, Dict.get?_erase] at hr
      split at hr
      · cases hr
      · rename_i hne
        obtain ⟨worker', g', q', ha'⟩ := h.running_task r' task' hr
        refine ⟨worker', g', q', hiff.mpr ⟨fun heq => ?_, ha'⟩⟩
        subst heq
        have := (Worker.mk.inj (Option.some.inj (ha.symm.trans ha'))).2
        exact hne (WorkerPhase.awaiting.inj this).1.symm
    running_backend := by
      intro r'
      have := h.running_backend r'
      simp only [released, Dict.get?_erase]
      split
      · rfl
      · exact this
    undone := by
      intro task' e' he' hundone
      obtain ⟨worker', ha'⟩ := h.undone task' e' he' hundone
      -- The task that is released is done, so it is not the one that is still awaited.
      refine ⟨worker', hiff.mpr ⟨fun heq => ?_, ha'⟩⟩
      subst heq
      have := (Worker.mk.inj (Option.some.inj (ha.symm.trans ha'))).2
      obtain ⟨-, -, rfl⟩ := WorkerPhase.awaiting.inj this
      obtain rfl : e = e' := Option.some.inj (he.symm.trans he')
      exact hundone hdone }

/-- A new worker awaits nothing. -/
theorem awaits_alloc {g : String} (hc : c'.workers = c.workers.alloc { groupFolder := g })
    {worker task : ℕ} {g' r : String} {q : ExecutionRequest} :
    c'.Awaits worker g' r q task ↔ c.Awaits worker g' r q task := by
  unfold Awaits
  rw [hc, Heap.get?_alloc]
  split
  · rename_i heq
    have hnone : c.workers.get? worker = none :=
      (Heap.get?_eq_none_iff _ _).mpr (Nat.le_of_eq heq.symm)
    simp [hnone]
  · rfl

theorem awaited_alloc {g : String} (hc : c'.workers = c.workers.alloc { groupFolder := g })
    (r : String) : c'.Awaited r ↔ c.Awaited r := by
  unfold Awaited
  simp only [awaits_alloc hc]

theorem Tasks.spawn (h : Tasks c) {g : String}
    (idle : ∀ worker w, c.groupWorkers.get? g = some worker →
      c.workers.get? worker = some w → w.phase.done = true) :
    Tasks (c.spawned g) := by
  have hlt : ∀ worker w, c.workers.get? worker = some w → worker ≠ c.workers.size :=
    fun worker w hw => Nat.ne_of_lt (Heap.lt_size_of_get? hw)
  exact
  { h with
    group_worker := by
      intro g' worker hg
      simp only [spawned, Dict.get?_insert, Heap.get?_alloc] at hg ⊢
      split at hg
      · rename_i heq
        obtain rfl := Option.some.inj hg
        exact ⟨.scheduled, by simp [heq]⟩
      · obtain ⟨p, hp⟩ := h.group_worker g' worker hg
        exact ⟨p, by rw [if_neg (hlt _ _ hp), hp]⟩
    live_worker := by
      intro worker w hw hdone
      simp only [spawned, Dict.get?_insert, Heap.get?_alloc] at hw ⊢
      split at hw
      · rename_i heq
        obtain rfl := Option.some.inj hw
        simp [heq]
      · have hreg := h.live_worker worker w hw hdone
        split
        · -- The worker that the group had is done, or none would be started.
          rename_i hg
          rw [hg] at hreg
          exact absurd (idle worker w hreg hw) (by simp [hdone])
        · exact hreg
    awaits := fun worker' g' r q task ha => h.awaits worker' g' r q task ((awaits_alloc rfl).mp ha)
    running_task := by
      intro r task hr
      obtain ⟨worker', g', q, ha⟩ := h.running_task r task hr
      exact ⟨worker', g', q, (awaits_alloc rfl).mpr ha⟩
    undone := by
      intro task e he hundone
      obtain ⟨worker', ha⟩ := h.undone task e he hundone
      exact ⟨worker', (awaits_alloc rfl).mpr ha⟩ }

theorem Tasks.launch (h : Inv c) {worker : ℕ} {g runId : String} {request : ExecutionRequest}
    {rest : List (String × ExecutionRequest)} {backendName key sessionId : String}
    (hw : c.workers.get? worker = some { groupFolder := g, phase := .active })
    (hq : c.queue g = (runId, request) :: rest) :
    Tasks (c.launched worker g runId request rest backendName key sessionId) := by
  have hhead : (runId, request) ∈ c.queue g := hq ▸ List.mem_cons_self
  have hunstarted : runId ∉ c.startedIds := h.entry_unstarted hhead
  -- What is awaited was started, and the head of the deque was not.
  have hfree : ∀ worker' g' r q task, c.Awaits worker' g' r q task → r ≠ runId := by
    rintro worker' g' r q task ha rfl
    exact hunstarted (mem_startedIds.mpr ⟨q, h.started_of_awaits ha⟩)
  have hphase : ∀ i, (c.launched worker g runId request rest backendName key
      sessionId).workers.get? i = if i = worker then
        some { groupFolder := g, phase := .awaiting runId request c.executions.size }
      else c.workers.get? i := fun i => get?_setPhase hw _ i
  -- The worker was active, so that nobody stops awaiting anything.
  have hold : ∀ worker' g' r q task, c.Awaits worker' g' r q task →
      (c.launched worker g runId request rest backendName key sessionId).Awaits
        worker' g' r q task := by
    intro worker' g' r q task ha
    unfold Awaits
    rw [hphase, if_neg]
    · exact ha
    · rintro rfl
      cases (Worker.mk.inj (Option.some.inj (hw.symm.trans ha))).2
  have hnew : (c.launched worker g runId request rest backendName key sessionId).Awaits
      worker g runId request c.executions.size := by
    unfold Awaits
    rw [hphase, if_pos rfl]
  have hexec : ∀ task e, c.executions.get? task = some e →
      (c.launched worker g runId request rest backendName key sessionId).executions.get? task =
        some e := by
    intro task e he
    simp [launched, Nat.ne_of_lt (Heap.lt_size_of_get? he), he]
  exact
  { group_worker := by
      intro g' worker' hg
      obtain ⟨p, hp⟩ := h.group_worker g' worker' hg
      rw [hphase]
      split
      · rename_i heq
        subst heq
        rw [hw] at hp
        exact ⟨_, by rw [(Worker.mk.inj (Option.some.inj hp)).1]⟩
      · exact ⟨p, hp⟩
    live_worker := by
      intro worker' w hw' hdone
      rw [hphase] at hw'
      split at hw'
      · rename_i heq
        obtain rfl := Option.some.inj hw'
        exact heq ▸ h.live_worker worker _ hw rfl
      · exact h.live_worker worker' w hw' hdone
    execution_ids := by
      rw [started_launched, ← h.execution_ids]
      simp [launched, Heap.alloc]
    conforming := by
      intro task e he
      rcases Heap.get?_alloc_cases he with ⟨-, rfl⟩ | he
      · intro outcome hdone
        cases hdone
      · exact h.conforming task e he
    awaits := by
      intro worker' g' r q task ha
      unfold Awaits at ha
      rw [hphase] at ha
      split at ha
      · obtain ⟨rfl, hp⟩ := Worker.mk.inj (Option.some.inj ha)
        obtain ⟨rfl, rfl, rfl⟩ := WorkerPhase.awaiting.inj hp
        exact ⟨(h.entry_submitted hhead).2, by simp [launched],
          { request, runId, backendName, workspaceKey := key, sessionId }, by simp [launched],
          rfl, rfl⟩
      · have ha : c.Awaits worker' g' r q task := ha
        obtain ⟨hg, ht, e, he, hids⟩ := h.awaits worker' g' r q task ha
        exact ⟨hg, by simpa [launched, hfree _ _ _ _ _ ha] using ht, e, hexec task e he, hids⟩
    running_task := by
      intro r task hr
      simp only [launched, Dict.get?_insert] at hr
      split at hr
      · rename_i heq
        obtain rfl := Option.some.inj hr
        exact ⟨worker, g, request, heq ▸ hnew⟩
      · obtain ⟨worker', g', q, ha⟩ := h.running_task r task hr
        exact ⟨worker', g', q, hold _ _ _ _ _ ha⟩
    running_backend := by
      intro r
      have := h.running_backend r
      simp only [launched, Dict.get?_insert]
      split
      · rfl
      · exact this
    undone := by
      intro task e he hundone
      rcases Heap.get?_alloc_cases he with ⟨heq, rfl⟩ | he
      · exact ⟨worker, by
          have hg := (h.entry_submitted hhead).2
          simp only at hg ⊢
          rw [hg, heq]
          exact hnew⟩
      · obtain ⟨worker', ha⟩ := h.undone task e he hundone
        exact ⟨worker', hold _ _ _ _ _ ha⟩
    calls := by
      intro call hcall
      exact List.mem_append_left _ (h.calls call hcall) }

/-- An execution task that changes, and stays the task of its run. -/
theorem Tasks.modifyExecution (h : Tasks c) {task : ℕ} {e : Execution}
    {f : Execution → Execution} (he : c.executions.get? task = some e)
    (hids : ∀ e, (f e).runId = e.runId ∧ (f e).request = e.request) (hconf : (f e).Conforming)
    (hundone : ¬ (f e).IsDone → ¬ e.IsDone) :
    Tasks { c with executions := c.executions.modify task f } :=
  { h with
    execution_ids := by
      rw [Heap.map_cells_modify (fun e => (e.runId, e.request)) f fun e => by
        rw [(hids e).1, (hids e).2]]
      exact h.execution_ids
    conforming := by
      intro task' e' he'
      simp only [Heap.get?_modify] at he'
      split at he'
      · rename_i heq
        rw [heq, he] at he'
        exact Option.some.inj he' ▸ hconf
      · exact h.conforming task' e' he'
    awaits := by
      intro worker g r q task' ha
      obtain ⟨hg, ht, e', he', hr, hq⟩ := h.awaits worker g r q task' ha
      refine ⟨hg, ht, ?_⟩
      simp only [Heap.get?_modify]
      split
      · exact ⟨f e', by rw [he']; rfl, (hids e').1.trans hr, (hids e').2.trans hq⟩
      · exact ⟨e', he', hr, hq⟩
    undone := by
      intro task' e' he' hun
      rcases Heap.get?_modify_cases he' with ⟨_, hbefore, rfl, rfl⟩ | ⟨-, he'⟩
      · obtain rfl := Option.some.inj (he.symm.trans hbefore)
        rw [(hids e).1, (hids e).2]
        exact h.undone task e he (hundone hun)
      · exact h.undone task' e' he' hun }

theorem Turn.conforming {e : Execution} {phase : ExecutionPhase} {calls : List BackendCall}
    {committed : List String} (t : Turn guards e phase calls committed) :
    Execution.Conforming { e with phase } := by
  cases t with
  | call => intro outcome h; cases h
  | drop => intro outcome h; cases h; exact .inl rfl
  | retry => intro outcome h; cases h
  | cancelled => intro outcome h; cases h; exact .inl rfl
  | result _ result hown hterminal =>
    intro outcome h
    cases h
    exact .inr ⟨result, rfl, hown, hterminal⟩

/-- Only a task that is not done takes a turn. -/
theorem Turn.undone {e : Execution} {phase : ExecutionPhase} {calls : List BackendCall}
    {committed : List String} (t : Turn guards e phase calls committed) : ¬ e.IsDone := by
  rintro ⟨outcome, hdone⟩
  cases t with
  | call h => rw [hdone] at h; cases h
  | drop h => rw [hdone] at h; cases h
  | retry _ h => rw [hdone] at h; cases h
  | cancelled h =>
    rcases h with h | ⟨_, h⟩ <;> rw [hdone] at h <;> cases h
  | result h =>
    rcases h with h | ⟨_, h⟩ <;> rw [hdone] at h <;> cases h

theorem Turn.calls_own {e : Execution} {phase : ExecutionPhase} {calls : List BackendCall}
    {committed : List String} (t : Turn guards e phase calls committed) :
    ∀ call ∈ calls, call.runId = e.runId ∧ call.request = e.request := by
  cases t <;> simp

theorem get?_cancelExecution {r : String} {task : ℕ} {e' : Execution}
    (h : (c.cancelExecution r).get? task = some e') :
    ∃ e, c.executions.get? task = some e ∧
      (e' = e ∨ e' = e.cancel ∧ c.runningTasks.get? r = some task) := by
  unfold cancelExecution at h
  split at h
  · exact ⟨e', h, .inl rfl⟩
  · rename_i task' htask
    rcases Heap.get?_modify_cases h with ⟨e, he, heq, rfl⟩ | ⟨-, h⟩
    · exact ⟨e, he, .inr ⟨rfl, heq ▸ htask⟩⟩
    · exact ⟨e', h, .inl rfl⟩

theorem Tasks.cancelExecution (h : Tasks c) (r : String) :
    Tasks { c with executions := c.cancelExecution r } := by
  unfold Coordinator.cancelExecution
  split
  · exact { h with }
  · rename_i task htask
    obtain ⟨worker, g, q, ha⟩ := h.running_task r task htask
    obtain ⟨-, -, e, he, -⟩ := h.awaits worker g r q task ha
    refine h.modifyExecution he (fun e => ⟨e.runId_cancel, e.request_cancel⟩) ?_ ?_
    · intro outcome hdone
      rw [Execution.phase_cancel] at hdone
      rw [Execution.runId_cancel]
      exact h.conforming task e he outcome hdone
    · intro hun ⟨outcome, hdone⟩
      exact hun ⟨outcome, by rw [Execution.phase_cancel, hdone]⟩

theorem Tasks.finish (h : Tasks c) {worker : ℕ} {g : String}
    (hw : c.workers.get? worker = some { groupFolder := g, phase := .active }) :
    Tasks { c with
      groupWorkers := c.groupWorkers.erase g
      workers := c.workers.modify worker fun w => { w with phase := .finished } } := by
  have hset := h.setPhase .finished hw nofun nofun nofun
  have hreg := h.live_worker worker _ hw rfl
  exact
  { hset with
    group_worker := by
      intro g' worker' hg
      simp only [Dict.get?_erase] at hg
      split at hg
      · cases hg
      · exact hset.group_worker g' worker' hg
    live_worker := by
      intro worker' w hw' hdone
      have hlive := hset.live_worker worker' w hw' hdone
      simp only [Dict.get?_erase]
      split
      · rename_i heq
        -- the one live worker of the group is the one that finished
        have hlive : c.groupWorkers.get? w.groupFolder = some worker' := hlive
        rw [heq, hreg] at hlive
        obtain rfl := Option.some.inj hlive
        rw [get?_setPhase hw, if_pos rfl] at hw'
        obtain rfl := Option.some.inj hw'
        cases hdone
      · exact hlive }

/-- **Moves keep the tasks.** -/
theorem Tasks.move (h : Inv c) (m : Move guards c c') : Tasks c' := by
  cases m with
  | noise => exact { h.toTasks with }
  | submit => exact { h.toTasks with }
  | @spawn runId request fresh idle =>
    exact Tasks.spawn (c := c.submitted runId request) { h.toTasks with } idle
  | cancelQueued => exact { h.toTasks with }
  | cancelRunning => exact { h.toTasks.cancelExecution _ with }
  | wake hw => exact h.toTasks.setPhase .active hw nofun nofun fun _ => rfl
  | skip => exact { h.toTasks with }
  | reject => exact { h.toTasks with }
  | launch hw hq => exact .launch h hw hq
  | finish hw => exact h.toTasks.finish hw
  | collectCancelled hawaits he hdone =>
    exact { h.toTasks.release .active hawaits he ⟨_, hdone⟩ nofun with }
  | collectResult hawaits he hdone =>
    exact { h.toTasks.release .active hawaits he ⟨_, hdone⟩ nofun with }
  | @turn task e phase calls committed he t =>
    have hmod := h.toTasks.modifyExecution (f := fun e => { e with phase }) he
      (fun _ => ⟨rfl, rfl⟩) t.conforming fun _ => t.undone
    refine { hmod with calls := fun call hcall => ?_ }
    rcases List.mem_append.mp hcall with hcall | hcall
    · exact h.calls call hcall
    · obtain ⟨hr, hq⟩ := t.calls_own call hcall
      rw [hr, hq]
      exact h.execution_ids ▸ List.mem_map.mpr ⟨_, List.mem_of_getElem? he, rfl⟩

/-! ## Moves keep the cancelled runs -/

/-- The awaited runs after a worker stopped awaiting one. -/
theorem Tasks.awaited_release (h : Tasks c) {worker task : ℕ} {g r : String}
    {q : ExecutionRequest} (phase : WorkerPhase) (ha : c.Awaits worker g r q task)
    (hphase : ∀ r q task, phase ≠ .awaiting r q task) (r' : String) :
    (c.released worker r phase).Awaited r' ↔ c.Awaited r' ∧ r' ≠ r := by
  constructor
  · rintro ⟨worker', g', q', task', ha'⟩
    obtain ⟨hne, ha'⟩ := (awaits_setPhase ha hphase rfl).mp ha'
    exact ⟨⟨worker', g', q', task', ha'⟩, fun heq => hne (h.awaits_unique ha (heq ▸ ha')).1⟩
  · rintro ⟨⟨worker', g', q', task', ha'⟩, hne⟩
    refine ⟨worker', g', q', task', (awaits_setPhase ha hphase rfl).mpr ⟨fun heq => ?_, ha'⟩⟩
    subst heq
    have := (Worker.mk.inj (Option.some.inj (ha.symm.trans ha'))).2
    exact hne (WorkerPhase.awaiting.inj this).1.symm

/-- The awaited runs after a worker changed between phases in which it awaits nothing. -/
theorem awaited_setPhase {worker : ℕ} {w : Worker} {phase : WorkerPhase}
    (hw : c.workers.get? worker = some w) (hw' : ∀ r q task, w.phase ≠ .awaiting r q task)
    (hphase : ∀ r q task, phase ≠ .awaiting r q task)
    (hc : c'.workers = c.workers.modify worker fun w => { w with phase }) (r : String) :
    c'.Awaited r ↔ c.Awaited r := by
  constructor
  · rintro ⟨worker', g, q, task, ha⟩
    exact ⟨worker', g, q, task, ((awaits_setPhase hw hphase hc).mp ha).2⟩
  · rintro ⟨worker', g, q, task, ha⟩
    refine ⟨worker', g, q, task, (awaits_setPhase hw hphase hc).mpr ⟨fun heq => ?_, ha⟩⟩
    subst heq
    exact hw' r q task (congrArg Worker.phase (Option.some.inj (hw.symm.trans ha)))

/-- Nobody awaits a run that has not started. -/
theorem Tasks.not_awaited (h : Tasks c) {r : String} (hr : r ∉ c.startedIds) : ¬ c.Awaited r :=
  fun ⟨_, _, q, _, ha⟩ => hr (mem_startedIds.mpr ⟨q, h.started_of_awaits ha⟩)

/-- Cancelled runs stay as they are where stored runs, awaits and executions do. -/
theorem Cancels.of_awaited (h : Cancels c) (hcancelled : c'.cancelledRunIds = c.cancelledRunIds)
    (hstored : c'.storedIds = c.storedIds) (hexec : c'.executions = c.executions)
    (hawaited : ∀ r, c'.Awaited r ↔ c.Awaited r) : Cancels c' where
  cancelled_nodup := hcancelled ▸ h.cancelled_nodup
  cancelled_iff r := by rw [hcancelled, hstored, hawaited, h.cancelled_iff]
  requested := by rw [hexec, hstored]; exact h.requested

/-- Storing the result of a run that is not awaited. -/
theorem Closing.cancels {result : ExecutionResult} (k : Closing c result) (h : Cancels c)
    (hr : ¬ c.Awaited result.runId) : Cancels k.apply where
  cancelled_nodup := h.cancelled_nodup
  cancelled_iff r := by
    have := h.cancelled_iff r
    have hsame : k.apply.Awaited r ↔ c.Awaited r := Iff.rfl
    have hids : k.apply.cancelledRunIds = c.cancelledRunIds := rfl
    rw [storedIds_apply, hsame, hids]
    grind
  requested task e he hreq := by
    rw [storedIds_apply]
    exact List.mem_append_left _ (h.requested task e he hreq)

theorem Cancels.cancelRunning (h : Inv c) {result : ExecutionResult}
    (hbackend : (c.runningBackends.get? result.runId).isSome = true)
    (k : Closing
      { c with
        cancelledRunIds := c.cancelledRunIds.insert result.runId
        executions := c.cancelExecution result.runId } result) : Cancels k.apply where
  cancelled_nodup := h.cancelled_nodup.insert
  cancelled_iff r := by
    rw [h.running_backend] at hbackend
    obtain ⟨task, htask⟩ := Option.isSome_iff_exists.mp hbackend
    obtain ⟨worker, g, q, ha⟩ := h.running_task _ task htask
    have hawaited : c.Awaited result.runId := ⟨worker, g, q, task, ha⟩
    have hold := h.cancelled_iff r
    have hsame : k.apply.Awaited r ↔ c.Awaited r := Iff.rfl
    have hids : k.apply.cancelledRunIds = c.cancelledRunIds.insert result.runId := rfl
    have hstored : k.apply.storedIds = c.storedIds ++ [result.runId] := k.storedIds_apply
    rw [hstored, hsame, hids, List.mem_insert_iff]
    grind
  requested task e he hreq := by
    have hstored : k.apply.storedIds = c.storedIds ++ [result.runId] := k.storedIds_apply
    rw [hstored]
    obtain ⟨e', he', rfl | ⟨rfl, htask⟩⟩ := get?_cancelExecution (c := c) he
    · exact List.mem_append_left _ (h.requested task e he' hreq)
    · obtain ⟨worker, g, q, ha⟩ := h.running_task _ _ htask
      obtain ⟨-, -, e'', he'', hr, -⟩ := h.awaits _ _ _ _ _ ha
      obtain rfl := Option.some.inj (he'.symm.trans he'')
      rw [Execution.runId_cancel, hr]
      simp

/-- The awaited runs after a launch. -/
theorem awaited_launched {worker : ℕ} {g runId : String} {request : ExecutionRequest}
    {rest : List (String × ExecutionRequest)} {backendName key sessionId : String}
    (hw : c.workers.get? worker = some { groupFolder := g, phase := .active }) (r : String) :
    (c.launched worker g runId request rest backendName key sessionId).Awaited r ↔
      c.Awaited r ∨ r = runId := by
  have hphase : ∀ i, (c.launched worker g runId request rest backendName key
      sessionId).workers.get? i = if i = worker then
        some { groupFolder := g, phase := .awaiting runId request c.executions.size }
      else c.workers.get? i := fun i => get?_setPhase hw _ i
  unfold Awaited Awaits
  constructor
  · rintro ⟨worker', g', q, task, ha⟩
    rw [hphase] at ha
    split at ha
    · have hp := (Worker.mk.inj (Option.some.inj ha)).2
      exact .inr (WorkerPhase.awaiting.inj hp).1.symm
    · exact .inl ⟨worker', g', q, task, ha⟩
  · rintro (⟨worker', g', q, task, ha⟩ | rfl)
    · refine ⟨worker', g', q, task, ?_⟩
      rw [hphase, if_neg]
      · exact ha
      · rintro rfl
        cases (Worker.mk.inj (Option.some.inj (hw.symm.trans ha))).2
    · exact ⟨worker, g, request, c.executions.size, by rw [hphase, if_pos rfl]⟩

theorem Cancels.launch (h : Cancels c) {worker : ℕ} {g runId : String}
    {request : ExecutionRequest} {rest : List (String × ExecutionRequest)}
    {backendName key sessionId : String}
    (hw : c.workers.get? worker = some { groupFolder := g, phase := .active })
    (hopen : c.Open runId) :
    Cancels (c.launched worker g runId request rest backendName key sessionId) where
  cancelled_nodup := h.cancelled_nodup
  cancelled_iff r := by
    have hold := h.cancelled_iff r
    have hids : (c.launched worker g runId request rest backendName key
      sessionId).cancelledRunIds = c.cancelledRunIds := rfl
    rw [awaited_launched hw, storedIds_launched, hids]
    have := hopen.2
    grind
  requested task e he hreq := by
    rcases Heap.get?_alloc_cases he with ⟨-, rfl⟩ | he
    · cases hreq
    · exact h.requested task e he hreq

/-- A worker drops the run it awaited, which was cancelled. -/
theorem Cancels.discard (h : Inv c) {worker task : ℕ} {g r : String} {q : ExecutionRequest}
    (ha : c.Awaits worker g r q task) :
    Cancels { c.released worker r .active with
      cancelledRunIds := c.cancelledRunIds.erase r } where
  cancelled_nodup := h.cancelled_nodup.erase r
  cancelled_iff r' := by
    have hiff := h.awaited_release .active ha nofun r'
    have hold := h.cancelled_iff r'
    show r' ∈ c.cancelledRunIds.erase r ↔ r' ∈ c.storedIds ∧ (c.released worker r .active).Awaited r'
    rw [hiff, h.cancelled_nodup.mem_erase_iff, hold]
    exact ⟨fun ⟨hne, hs, hr⟩ => ⟨hs, hr, hne⟩, fun ⟨hs, hr, hne⟩ => ⟨hne, hs, hr⟩⟩
  requested := h.requested

/-- A worker stops awaiting a run that was not cancelled. -/
theorem Cancels.release (h : Inv c) {worker task : ℕ} {g r : String} {q : ExecutionRequest}
    (phase : WorkerPhase) (ha : c.Awaits worker g r q task) (hkept : r ∉ c.cancelledRunIds)
    (hphase : ∀ r q task, phase ≠ .awaiting r q task) :
    Cancels (c.released worker r phase) where
  cancelled_nodup := h.cancelled_nodup
  cancelled_iff r' := by
    rw [h.awaited_release phase ha hphase]
    have := h.cancelled_iff r'
    show r' ∈ c.cancelledRunIds ↔ r' ∈ c.storedIds ∧ _
    grind
  requested := h.requested

/-- **Moves keep the cancelled runs.** -/
theorem Cancels.move (h : Inv c) (m : Move guards c c') : Cancels c' := by
  cases m with
  | noise => exact { h.toCancels with }
  | submit => exact { h.toCancels with }
  | spawn => exact h.toCancels.of_awaited rfl rfl rfl (awaited_alloc rfl)
  | cancelQueued k hstatus =>
    have hr := h.not_awaited ((h.queued_iff _).mp hstatus).2
    exact { k.cancels h.toCancels hr with }
  | cancelRunning hstatus hbackend k =>
    exact { Cancels.cancelRunning h hbackend k with }
  | wake hw =>
    exact h.toCancels.of_awaited rfl rfl rfl (awaited_setPhase hw (by simp) (by simp) rfl)
  | skip => exact { h.toCancels with }
  | reject active hq hwanted hfailed k =>
    have hr := h.not_awaited (h.entry_unstarted (hq ▸ List.mem_cons_self))
    exact k.cancels { h.toCancels with } hr
  | launch hw hq hwanted => exact h.toCancels.launch hw (h.open_of_wanted hwanted)
  | finish hw =>
    exact h.toCancels.of_awaited rfl rfl rfl (awaited_setPhase hw (by simp) (by simp) rfl)
  | collectCancelled ha he hdone hcancelled => exact .discard h ha
  | collectResult ha he hdone hkept k =>
    obtain ⟨rfl, -⟩ := h.own_result ha he hdone
    refine k.cancels (.release h .active ha hkept nofun) ?_
    rw [h.awaited_release .active ha nofun]
    exact fun hawaited => hawaited.2 rfl
  | @turn task e phase calls committed he t =>
    refine { h.toCancels with requested := ?_ }
    intro task' e' he' hreq
    rcases Heap.get?_modify_cases he' with ⟨e₀, he₀, -, rfl⟩ | ⟨-, he'⟩
    · exact h.requested task' e₀ he₀ hreq
    · exact h.requested task' e' he' hreq

/-! ## Moves, actions and runs keep the invariant -/

/-- **Every move keeps the invariant.** -/
theorem Inv.move (h : Inv c) (m : Move guards c c') : Inv c' :=
  { Ledger.move h m, Queues.move h m, Tasks.move h m, Cancels.move h m with }

theorem Inv.moves (h : Inv c) (m : Moves guards c c') : Inv c' := by
  induction m with
  | refl => exact h
  | tail _ m ih => exact ih.move m

/-- What every move keeps beside the invariant, moves keep. -/
theorem Moves.keep {P : Coordinator → Prop} (m : Moves guards c c') (h : Inv c) (hc : P c)
    (hP : ∀ {c c'}, Inv c → P c → Move guards c c' → P c') : P c' := by
  induction m with
  | refl => exact hc
  | tail hm m ih => exact hP (h.moves hm) ih m

/-- A worker ended by a `CancelledError` keeps the invariant. -/
theorem Inv.crash (h : Inv c) {worker : ℕ} {g r : String} (hcrash : c.Crashes worker g r) :
    Inv ((c.forgetRunning r).setWorkerPhase worker .crashed) := by
  obtain ⟨q, task, e, ha, he, hdone, hkept⟩ := hcrash
  exact
  { h.toLedger, h.toQueues, h.toTasks.release .crashed ha he ⟨_, hdone⟩ nofun,
    Cancels.release h .crashed ha hkept nofun with }

/-- Waiting tasks and their futures: a cancelled future keeps the invariant. -/
theorem Inv.cancelWaiter (h : Inv c) (waiter future : ℕ) : Inv (c.cancelWaiter waiter future) :=
  { h with
    future_ids := by
      have := Heap.map_cells_modify Future.runId _ Future.runId_cancel c.futures future
      exact this.trans h.future_ids
    pending := by
      intro i f hf hpending
      rcases Heap.get?_modify_cases hf with ⟨f', hf', -, rfl⟩ | ⟨-, hf⟩
      · unfold Future.cancel at hpending
        cases hstate : f'.state <;> simp [hstate] at hpending
      · exact h.pending i f hf hpending
    resolved := by
      intro i f result hf hresult
      rcases Heap.get?_modify_cases hf with ⟨f', hf', -, rfl⟩ | ⟨-, hf⟩
      · rw [Future.runId_cancel]
        unfold Future.cancel at hresult
        cases hstate : f'.state with
        | resolved result' =>
          simp only [hstate] at hresult
          exact h.resolved i f' result hf' (hstate.trans hresult)
        | pending => simp [hstate] at hresult
        | cancelled => simp [hstate] at hresult
      · exact h.resolved i f result hf hresult }

/-- The invariant holds at the start. -/
theorem inv_empty : Inv {} where
  submitted_nodup := List.nodup_nil
  stored_nodup := List.nodup_nil
  stored_submitted := by simp [storedIds]
  stored_terminal := by simp
  request_iff := by simp
  future_ids := rfl
  future_iff := by simp [submittedIds]
  pending := by simp
  resolved := by simp
  queued_iff := by simp [Open, submittedIds]
  running_iff := by simp [Open, submittedIds]
  closed := by simp
  order := List.suffix_rfl
  results := by simp
  fifo _ := ⟨[], rfl, .refl _⟩
  cancelled_entry := by simp [queue, Dict.getD]
  cancelled_queued := by simp
  group_worker := by simp
  live_worker := by simp
  execution_ids := rfl
  conforming := by simp
  awaits := by simp [Awaits]
  running_task := by simp
  running_backend _ := rfl
  undone := by simp
  calls := by simp
  cancelled_nodup := List.nodup_nil
  cancelled_iff := by simp [storedIds]
  requested := by simp

/-- **Every action keeps the invariant.** -/
theorem Inv.step {cfg : Config} {a : Action} (h : Inv c) (ha : c.Ordinary a)
    (hstep : step cfg c a = some c') : Inv c' := by
  cases hw : a.ofWaiter with
  | false =>
    rcases step_moves .none h.conforming ha hw nofun nofun hstep with
      hmoves | ⟨worker, g, r, -, hcrash, rfl⟩
    · exact h.moves hmoves
    · exact h.crash hcrash
  | true =>
    rcases step_waiter hw hstep with ⟨waiters, rfl, -⟩ | ⟨waiter, future, -, -, rfl⟩
    · exact { h with }
    · exact h.cancelWaiter waiter future

/-- **The invariant** holds in every run with distinct run ids and conforming backends. -/
theorem inv_of_run {cfg : Config} {allowed : Coordinator → Action → Prop} {l : List Action}
    (hallowed : ∀ c a, allowed c a → c.Ordinary a) (h : Run (step cfg) allowed {} l c) : Inv c :=
  h.invariant inv_empty fun hc ha hstep => hc.step (hallowed _ _ ha) hstep

end Coordinator

end Portex
