import Portex.Coordinator.Step
import Mathlib.Logic.Relation

/-!
# The moves of the coordinator's bookkeeping

An action of the event loop runs a task up to its next suspension point, and on the way the
bookkeeping may change several times: one turn of a worker can drop any number of entries of its
deque before it launches a run. A *move* is one such change. Every action is a sequence of moves,
but for two that are kept apart because of what they break: the cancellation of a waiting task,
and the end of a worker by a `CancelledError`.

## Main definitions

* `Closing`: the maps after `_store_terminal_result`
* `Move`: the single changes of the bookkeeping, with the guards the code has checked
* `Execution.Conforming`: the execution tasks of conforming backends
* `Starts`, `CallEnds`: what an execution task does when it starts and when its call ends

## Main results

* `storeTerminalResult_eq`: the end of a run is a `Closing`
* `starts_of_step`, `callEnds_of_step`: a step of an execution task is one of these
* `step_moves`: what an action does
-/

namespace Portex

open Foundation

/-- A done task was cancelled, or returned a result of its own run with a terminal status. -/
def Execution.Conforming (execution : Execution) : Prop :=
  ∀ outcome, execution.phase = .done outcome → outcome = .cancelledError ∨
    ∃ result, outcome = .returned result ∧ result.runId = execution.runId ∧
      result.status ∈ [ExecutionStatus.completed, .failed, .timeout]

namespace Coordinator

/-! ## The end of a run -/

/-- The maps after `_store_terminal_result`: `result` is recorded, and the oldest results are
evicted. -/
structure Closing (c : Coordinator) (result : ExecutionResult) where
  statuses : Dict String ExecutionStatus
  results : Dict String ExecutionResult
  order : List String
  snapshots : Dict String ExecutionRunSnapshot
  evicted : List String
  order_eq : c.completedOrder ++ [result.runId] = evicted ++ order
  get?_statuses : ∀ r, statuses.get? r = if r ∈ evicted then none else
    if r = result.runId then some result.status else c.statuses.get? r
  get?_results : ∀ r, results.get? r = if r ∈ evicted then none else
    if r = result.runId then some result else c.completedResults.get? r

namespace Closing

variable {c : Coordinator} {result : ExecutionResult}

/-- The futures of a closed run: its own is resolved unless it is done. -/
def futures (_ : Closing c result) : Heap Future :=
  match c.runFutures.get? result.runId with
  | none => c.futures
  | some future => c.futures.modify future (Future.setResult result)

/-- The coordinator after the closing. -/
def apply (k : Closing c result) : Coordinator :=
  { c with
    statuses := k.statuses
    completedResults := k.results
    completedOrder := k.order
    runSnapshots := k.snapshots
    runFutures := c.runFutures.erase result.runId
    futures := k.futures
    runRequests := c.runRequests.erase result.runId
    history := { c.history with stored := c.history.stored ++ [result] } }

end Closing

theorem dropStale_eq (maxCompletedRuns : ℕ) (order : List String) (c : Coordinator) :
    ∃ evicted kept statuses results snapshots,
      order = evicted ++ kept ∧
      (∀ r, Dict.get? statuses r = if r ∈ evicted then none else c.statuses.get? r) ∧
      (∀ r, Dict.get? results r = if r ∈ evicted then none else c.completedResults.get? r) ∧
      dropStale maxCompletedRuns order c =
        { c with
          completedOrder := kept, statuses, completedResults := results,
          runSnapshots := snapshots } := by
  induction order generalizing c with
  | nil => exact ⟨[], [], c.statuses, c.completedResults, c.runSnapshots, rfl, by simp, by simp, rfl⟩
  | cons stale order ih =>
    unfold dropStale
    split
    · obtain ⟨evicted, kept, statuses, results, snapshots, rfl, hs, hr, heq⟩ := ih
        { c with
          completedResults := c.completedResults.erase stale
          statuses := c.statuses.erase stale
          runSnapshots := c.runSnapshots.erase stale }
      refine ⟨stale :: evicted, kept, statuses, results, snapshots, rfl, fun r => ?_, fun r => ?_,
        heq⟩
      · rw [hs]
        by_cases h : r = stale <;> simp [h]
      · rw [hr]
        by_cases h : r = stale <;> simp [h]
    · exact ⟨[], stale :: order, c.statuses, c.completedResults, c.runSnapshots, rfl, by simp,
        by simp, rfl⟩

theorem modifySnapshot_eq (runId : String) (f : ExecutionRunSnapshot → ExecutionRunSnapshot)
    (c : Coordinator) :
    ∃ snapshots, c.modifySnapshot runId f = { c with runSnapshots := snapshots } := by
  unfold modifySnapshot
  split
  · exact ⟨c.runSnapshots, rfl⟩
  · exact ⟨_, rfl⟩

/-- **The end of a run** is a closing, also where the status was set just before. -/
theorem storeTerminalResult_eq (cfg : Config) (result : ExecutionResult) (c : Coordinator) :
    ∃ k : Closing c result, c.storeTerminalResult cfg result = k.apply := by
  obtain ⟨snapshots₁, h₁⟩ := modifySnapshot_eq result.runId
    (fun snapshot =>
      { snapshot with
        status := result.status, backend := some result.backend,
        sessionId := some result.sessionId, slotId := result.slotId,
        finalOutput := result.finalOutput, error := result.error,
        timeoutMs := result.timeoutMs, finishedAt := some c.now })
    { c with
      statuses := c.statuses.insert result.runId result.status
      completedResults := c.completedResults.insert result.runId result
      completedOrder := c.completedOrder ++ [result.runId] }
  obtain ⟨evicted, kept, statuses, results, snapshots, ho, hs, hr, h₂⟩ := dropStale_eq
    cfg.maxCompletedRuns (c.completedOrder ++ [result.runId])
    { c with
      statuses := c.statuses.insert result.runId result.status
      completedResults := c.completedResults.insert result.runId result
      completedOrder := c.completedOrder ++ [result.runId]
      runSnapshots := snapshots₁ }
  refine ⟨⟨statuses, results, kept, snapshots, evicted, ho, fun r => ?_, fun r => ?_⟩, ?_⟩
  · simpa using hs r
  · simpa using hr r
  · unfold storeTerminalResult markTerminal
    simp only
    rw [h₁, h₂]
    unfold resolveFuture Closing.apply Closing.futures
    cases h : c.runFutures.get? result.runId with
    | none => simp only [Dict.erase_of_get?_eq_none h]
    | some future => rfl

/-! ## Moves -/

/-- What is known of the actions behind the moves. -/
structure Guards where
  /-- Only cancelled tasks end with a `CancelledError`. -/
  requested : Prop := False
  /-- No cancel meets a run that has committed, and no cancelled run commits. -/
  timely : Prop := False

/-- Nothing is known. -/
def Guards.none : Guards := {}

def Guards.onlyRequested : Guards := { requested := True }

def Guards.onlyTimely : Guards := { timely := True }

/-- What one turn of an execution task does: its new phase, the backend calls it makes and the
commits. -/
inductive Turn (guards : Guards) (execution : Execution) :
    ExecutionPhase → List BackendCall → List String → Prop
  | call (created : execution.phase = .created) (kept : execution.cancelRequested = false) :
      Turn guards execution .executing
        [{ runId := execution.runId, request := execution.request,
           sessionId := execution.sessionId, retry := false }] []
  | drop (created : execution.phase = .created) (dropped : execution.cancelRequested = true) :
      Turn guards execution (.done .cancelledError) [] []
  | retry (sessionId : String) (executing : execution.phase = .executing) :
      Turn guards execution (.retrying sessionId)
        [{ runId := execution.runId, request := execution.request, sessionId, retry := true }] []
  | cancelled (inFlight : execution.InFlight)
      (asked : guards.requested → execution.cancelRequested = true) :
      Turn guards execution (.done .cancelledError) [] []
  | result (inFlight : execution.InFlight) (result : ExecutionResult)
      (own : result.runId = execution.runId)
      (terminal : result.status ∈ [ExecutionStatus.completed, .failed, .timeout])
      (committed : List String)
      (commits : committed = if usesWorkspaceSession execution.backendName ∧
        result.status = .completed then [execution.runId] else []) :
      Turn guards execution (.done (.returned result)) [] committed

/-- The coordinator after a submission, before its worker is looked after. -/
def submitted (runId : String) (request : ExecutionRequest) (c : Coordinator) : Coordinator :=
  { c with
    futures := c.futures.alloc { runId }
    runFutures := c.runFutures.insert runId c.futures.size
    runRequests := c.runRequests.insert runId request
    statuses := c.statuses.insert runId .queued
    groupQueues := c.groupQueues.insert request.groupFolder
      (c.queue request.groupFolder ++ [(runId, request)])
    history := { c.history with submitted := c.history.submitted ++ [(runId, request)] } }

/-- The coordinator after a worker was created. -/
def spawned (groupFolder : String) (c : Coordinator) : Coordinator :=
  { c with
    groupWorkers := c.groupWorkers.insert groupFolder c.workers.size
    workers := c.workers.alloc { groupFolder } }

/-- The group has a worker task that is not done. -/
def HasWorker (c : Coordinator) (groupFolder : String) : Prop :=
  ∃ worker w, c.groupWorkers.get? groupFolder = some worker ∧
    c.workers.get? worker = some w ∧ w.phase.done = false

instance (c : Coordinator) : DecidablePred c.HasWorker := fun groupFolder =>
  decidable_of_iff (((c.groupWorkers.get? groupFolder).bind c.workers.get?).any
    fun w => !w.phase.done) (by
      simp only [HasWorker, Option.any_eq_true, Option.bind_eq_some_iff, Bool.not_eq_true']
      grind)

/-- The coordinator after a worker handed the run at the head of its deque to a backend. -/
def launched (worker : ℕ) (groupFolder runId : String) (request : ExecutionRequest)
    (rest : List (String × ExecutionRequest)) (backendName workspaceKey sessionId : String)
    (c : Coordinator) : Coordinator :=
  { c with
    groupQueues := c.groupQueues.insert groupFolder rest
    statuses := c.statuses.insert runId .running
    history := { c.history with started := c.history.started ++ [(runId, request)] }
    runningBackends := c.runningBackends.insert runId backendName
    executions := c.executions.alloc { request, runId, backendName, workspaceKey, sessionId }
    runningTasks := c.runningTasks.insert runId c.executions.size
    workers := c.workers.modify worker fun w =>
      { w with phase := .awaiting runId request c.executions.size } }

/-- The coordinator after a worker stopped awaiting a run. -/
def released (worker : ℕ) (runId : String) (phase : WorkerPhase) (c : Coordinator) :
    Coordinator :=
  { c with
    runningBackends := c.runningBackends.erase runId
    runningTasks := c.runningTasks.erase runId
    workers := c.workers.modify worker fun w => { w with phase } }

/-- The coordinator after an execution task took a turn. -/
def turned (task : ℕ) (phase : ExecutionPhase) (calls : List BackendCall)
    (committed : List String) (c : Coordinator) : Coordinator :=
  { c with
    executions := c.executions.modify task fun execution => { execution with phase }
    history := { c.history with
      calls := c.history.calls ++ calls
      committed := c.history.committed ++ committed } }

/-- The single changes of the bookkeeping, with the guards the code has checked. -/
inductive Move (guards : Guards) : Coordinator → Coordinator → Prop
  /-- Session ids, snapshots, uuids and the clock. -/
  | noise (c : Coordinator) (draws : ℕ) (store : WorkspaceSessionStore)
      (snapshots : Dict String ExecutionRunSnapshot) (sessionIds : Dict String String) (now : ℕ) :
      Move guards c
        { c with
          draws, workspaceSessionStore := store, runSnapshots := snapshots,
          runSessionIds := sessionIds, now }
  | submit {c : Coordinator} {runId : String} {request : ExecutionRequest}
      (fresh : runId ∉ c.history.submitted.map Prod.fst)
      (live : c.HasWorker request.groupFolder) :
      Move guards c (c.submitted runId request)
  /-- A submission that finds no live worker. -/
  | spawn {c : Coordinator} {runId : String} {request : ExecutionRequest}
      (fresh : runId ∉ c.history.submitted.map Prod.fst)
      (idle : ∀ worker w, c.groupWorkers.get? request.groupFolder = some worker →
        c.workers.get? worker = some w → w.phase.done = true) :
      Move guards c ((c.submitted runId request).spawned request.groupFolder)
  | cancelQueued {c : Coordinator} {result : ExecutionResult} (k : Closing c result)
      (status : c.statuses.get? result.runId = some .queued)
      (cancelled : result.status = .cancelled) :
      Move guards c (k.apply.recordCancel result.runId .queued)
  | cancelRunning {c : Coordinator} {result : ExecutionResult}
      (status : c.statuses.get? result.runId = some .running)
      (backend : (c.runningBackends.get? result.runId).isSome = true)
      (k : Closing
        { c with
          cancelledRunIds := c.cancelledRunIds.insert result.runId
          executions := c.cancelExecution result.runId } result)
      (cancelled : result.status = .cancelled)
      (timely : guards.timely → ¬ c.HasCommitted result.runId) :
      Move guards c (k.apply.recordCancel result.runId .running)
  | wake {c : Coordinator} {worker : ℕ} {groupFolder : String}
      (scheduled : c.workers.get? worker = some { groupFolder, phase := .scheduled }) :
      Move guards c (c.setWorkerPhase worker .active)
  /-- An entry of the deque whose run is no longer wanted. -/
  | skip {c : Coordinator} {worker : ℕ} {groupFolder runId : String} {request : ExecutionRequest}
      {rest : List (String × ExecutionRequest)}
      (active : c.workers.get? worker = some { groupFolder, phase := .active })
      (queue : c.queue groupFolder = (runId, request) :: rest)
      (unwanted : c.wanted runId = false) :
      Move guards c { c with groupQueues := c.groupQueues.insert groupFolder rest }
  /-- An entry of the deque whose run fails before it reaches a backend. -/
  | reject {c : Coordinator} {worker : ℕ} {groupFolder : String} {request : ExecutionRequest}
      {rest : List (String × ExecutionRequest)} {result : ExecutionResult}
      (active : c.workers.get? worker = some { groupFolder, phase := .active })
      (queue : c.queue groupFolder = (result.runId, request) :: rest)
      (wanted : c.wanted result.runId = true)
      (failed : result.status = .failed)
      (k : Closing { c with groupQueues := c.groupQueues.insert groupFolder rest } result) :
      Move guards c k.apply
  | launch {c : Coordinator} {worker : ℕ} {groupFolder runId : String}
      {request : ExecutionRequest} {rest : List (String × ExecutionRequest)}
      (active : c.workers.get? worker = some { groupFolder, phase := .active })
      (queue : c.queue groupFolder = (runId, request) :: rest)
      (wanted : c.wanted runId = true) (backendName workspaceKey sessionId : String) :
      Move guards c
        (c.launched worker groupFolder runId request rest backendName workspaceKey sessionId)
  | finish {c : Coordinator} {worker : ℕ} {groupFolder : String}
      (active : c.workers.get? worker = some { groupFolder, phase := .active })
      (queue : c.queue groupFolder = []) :
      Move guards c
        { c with
          groupWorkers := c.groupWorkers.erase groupFolder
          workers := c.workers.modify worker fun w => { w with phase := .finished } }
  /-- The worker finds that the run it awaited was cancelled. -/
  | collectCancelled {c : Coordinator} {worker : ℕ} {groupFolder runId : String}
      {request : ExecutionRequest} {task : ℕ} {execution : Execution} {outcome : Outcome}
      (awaiting : c.workers.get? worker =
        some { groupFolder, phase := .awaiting runId request task })
      (awaited : c.executions.get? task = some execution)
      (done : execution.phase = .done outcome) (cancelled : runId ∈ c.cancelledRunIds) :
      Move guards c
        { c.released worker runId .active with
          cancelledRunIds := c.cancelledRunIds.erase runId }
  /-- The worker stores the result it awaited. -/
  | collectResult {c : Coordinator} {worker : ℕ} {groupFolder runId : String}
      {request : ExecutionRequest} {task : ℕ} {execution : Execution} {result : ExecutionResult}
      (awaiting : c.workers.get? worker =
        some { groupFolder, phase := .awaiting runId request task })
      (awaited : c.executions.get? task = some execution)
      (done : execution.phase = .done (.returned result)) (kept : runId ∉ c.cancelledRunIds)
      (k : Closing (c.released worker runId .active) result) :
      Move guards c k.apply
  | turn {c : Coordinator} {task : ℕ} {execution : Execution} {phase : ExecutionPhase}
      {calls : List BackendCall} {committed : List String}
      (task_eq : c.executions.get? task = some execution)
      (turn : Turn guards execution phase calls committed)
      (timely : guards.timely → committed ≠ [] → execution.runId ∉ c.cancelledRunIds) :
      Move guards c (c.turned task phase calls committed)

/-- Any number of moves. -/
abbrev Moves (guards : Guards) : Coordinator → Coordinator → Prop :=
  Relation.ReflTransGen (Move guards)

variable {cfg : Config} {guards : Guards} {c c' : Coordinator}

theorem resolveSessionId_eq (cfg : Config) (request : ExecutionRequest) (backendName : String)
    (freshSession : Option Bool) (c : Coordinator) :
    ∃ sessionId store, c.resolveSessionId cfg request backendName freshSession =
      (sessionId, { c with draws := c.draws + 1, workspaceSessionStore := store }) := by
  unfold resolveSessionId
  simp only
  split
  · exact ⟨_, _, rfl⟩
  · split
    · exact ⟨_, c.workspaceSessionStore, rfl⟩
    · exact ⟨_, c.workspaceSessionStore, rfl⟩

theorem failBeforeStart_eq (cfg : Config) (runId : String) (request : ExecutionRequest)
    (backend slotId error : String) (c : Coordinator) :
    ∃ store result, result.runId = runId ∧ result.status = .failed ∧
      ∃ k : Closing { c with draws := c.draws + 1, workspaceSessionStore := store } result,
        c.failBeforeStart cfg runId request backend slotId error = k.apply := by
  unfold failBeforeStart peekSessionId
  obtain ⟨sessionId, store, hpeek⟩ := resolveSessionId_eq cfg request backend none c
  rw [hpeek]
  obtain ⟨k, hk⟩ := storeTerminalResult_eq cfg
    { runId
      groupFolder := request.groupFolder
      backend
      sessionId
      slotId
      status := .failed
      error := some error }
    { c with draws := c.draws + 1, workspaceSessionStore := store }
  exact ⟨store, _, rfl, rfl, k, hk⟩

theorem launch_eq (cfg : Config) (runId : String) (request : ExecutionRequest)
    (backendName : String) (c : Coordinator) :
    ∃ store snapshots sessionId, c.launch cfg runId request backendName =
      { c with
        draws := c.draws + 1
        workspaceSessionStore := store
        runSnapshots := snapshots
        runSessionIds := c.runSessionIds.insert runId sessionId
        statuses := c.statuses.insert runId .running
        history := { c.history with started := c.history.started ++ [(runId, request)] }
        runningBackends := c.runningBackends.insert runId backendName
        executions := c.executions.alloc
          { request, runId, backendName, workspaceKey := workspaceKey cfg request, sessionId }
        runningTasks := c.runningTasks.insert runId c.executions.size } := by
  unfold launch markRunning
  obtain ⟨sessionId, store, hsession⟩ := resolveSessionId_eq cfg request backendName none c
  rw [hsession]
  simp only
  obtain ⟨snapshots, hsnapshots⟩ := modifySnapshot_eq runId
    (fun snapshot =>
      { snapshot with
        status := .running, backend := some backendName, sessionId := some sessionId,
        startedAt := some c.now })
    { c with
      draws := c.draws + 1
      workspaceSessionStore := store
      runSessionIds := c.runSessionIds.insert runId sessionId
      statuses := c.statuses.insert runId .running
      history := { c.history with started := c.history.started ++ [(runId, request)] } }
  rw [hsnapshots]
  exact ⟨store, snapshots, sessionId, rfl⟩

/-! ## The actions as moves -/

theorem Moves.of_eq {d : Coordinator} (h : Moves guards c d) (heq : c' = d) :
    Moves guards c c' := heq ▸ h

/-- A turn of the worker loop. -/
theorem drainQueue_cons {cfg : Config} (worker : ℕ) (groupFolder runId : String)
    (request : ExecutionRequest) (rest : List (String × ExecutionRequest)) (c popped : Coordinator)
    (hpopped : { c with groupQueues := c.groupQueues.insert groupFolder rest } = popped) :
    drainQueue cfg worker groupFolder ((runId, request) :: rest) c =
      if popped.wanted runId then
        match popped.executeRequest cfg runId request with
        | .inl c => drainQueue cfg worker groupFolder rest c
        | .inr (execution, c) => c.setWorkerPhase worker (.awaiting runId request execution)
      else drainQueue cfg worker groupFolder rest popped := by
  subst hpopped
  rfl

/-- A run popped from the deque fails at once or is launched, whatever the state. -/
theorem executeRequest_cases (cfg : Config) (runId : String) (request : ExecutionRequest) :
    (∃ backend slotId error, ∀ c : Coordinator, c.executeRequest cfg runId request =
        .inl (c.failBeforeStart cfg runId request backend slotId error)) ∨
      ∃ backendName, ∀ c : Coordinator, c.executeRequest cfg runId request =
        .inr (c.executions.size, c.launch cfg runId request backendName) := by
  unfold executeRequest
  split
  · exact .inl ⟨_, _, _, fun _ => rfl⟩
  · split
    · exact .inr ⟨_, fun _ => rfl⟩
    · exact .inl ⟨_, _, _, fun _ => rfl⟩

/-- The worker loop: it drops and rejects entries until it launches one or the deque is empty. -/
theorem drainQueue_moves (cfg : Config) {worker : ℕ} {groupFolder : String}
    (queue : List (String × ExecutionRequest))
    (hw : c.workers.get? worker = some { groupFolder, phase := .active })
    (hq : c.queue groupFolder = queue) :
    Moves guards c (drainQueue cfg worker groupFolder queue c) := by
  induction queue generalizing c with
  | nil => exact .single (.finish hw hq)
  | cons entry rest ih =>
    obtain ⟨runId, request⟩ := entry
    have hrest : ∀ d : Coordinator, d.groupQueues = c.groupQueues.insert groupFolder rest →
        d.queue groupFolder = rest := by
      intro d hd
      simp [Coordinator.queue, Dict.getD, hd]
    unfold drainQueue
    simp only
    split
    · rename_i hwanted
      rcases executeRequest_cases cfg runId request with
        ⟨backend, slotId, error, h⟩ | ⟨backendName, h⟩
      · obtain ⟨store, result, rfl, hfailed, k, hk⟩ := failBeforeStart_eq cfg runId request
          backend slotId error { c with groupQueues := c.groupQueues.insert groupFolder rest }
        rw [h, hk]
        refine .trans (.head (.noise c (c.draws + 1) store c.runSnapshots c.runSessionIds c.now)
          (.single (.reject (c := { c with draws := c.draws + 1, workspaceSessionStore := store })
            hw hq hwanted hfailed k))) (ih hw (hrest _ rfl))
      · obtain ⟨store, snapshots, sessionId, hlaunch⟩ := launch_eq cfg runId request backendName
          { c with groupQueues := c.groupQueues.insert groupFolder rest }
        rw [h, hlaunch]
        exact .tail (.single (.launch hw hq hwanted backendName (workspaceKey cfg request)
          sessionId)) (.noise _ (c.draws + 1) store snapshots
            (c.runSessionIds.insert runId sessionId) c.now)
    · rename_i hunwanted
      exact .trans (.single (.skip hw hq (eq_false_of_ne_true hunwanted))) (ih hw (hrest _ rfl))

/-- A worker is created unless the group has a live one. -/
theorem ensureWorker_cases (groupFolder : String) (c : Coordinator) :
    (c.ensureWorker groupFolder = c ∧ c.HasWorker groupFolder) ∨
      (c.ensureWorker groupFolder = c.spawned groupFolder ∧
        ∀ worker w, c.groupWorkers.get? groupFolder = some worker →
          c.workers.get? worker = some w → w.phase.done = true) := by
  unfold ensureWorker
  cases hg : c.groupWorkers.get? groupFolder with
  | none => exact .inr ⟨rfl, nofun⟩
  | some worker =>
    simp only
    split
    · rename_i hlive
      obtain ⟨w, hw, hdone⟩ := (Option.any_eq_true ..).mp hlive
      exact .inl ⟨rfl, worker, w, hg, hw, by simpa using hdone⟩
    · rename_i hlive
      refine .inr ⟨rfl, fun worker' w h hw => ?_⟩
      obtain rfl := Option.some.inj h
      simpa [hw] using hlive

theorem submitted_moves {runId : String} {request : ExecutionRequest}
    (fresh : runId ∉ c.history.submitted.map Prod.fst) :
    Moves guards c ((c.submitted runId request).ensureWorker request.groupFolder) := by
  rcases ensureWorker_cases request.groupFolder (c.submitted runId request) with
    ⟨h, hlive⟩ | ⟨h, hidle⟩
  · exact Moves.of_eq (.single (.submit fresh hlive)) h
  · exact Moves.of_eq (.single (.spawn fresh hidle)) h

theorem submitExecution_moves {request : ExecutionRequest} {uuid : String}
    (fresh : runIdOf request uuid ∉ c.history.submitted.map Prod.fst) :
    Moves guards c (c.submitExecution request uuid).2 := by
  unfold submitExecution
  exact .head (.noise c c.draws c.workspaceSessionStore (c.runSnapshots.insert _ _)
    c.runSessionIds c.now) (submitted_moves fresh)

theorem cancelQueued_moves (cfg : Config) {runId : String} (request : ExecutionRequest)
    (hstatus : c.statuses.get? runId = some .queued) :
    Moves guards c (c.cancelQueued cfg runId request) := by
  unfold cancelQueued peekSessionId
  obtain ⟨sessionId, store, hpeek⟩ := resolveSessionId_eq cfg request
    (safeSelectBackendName cfg request) none c
  simp only [hpeek]
  obtain ⟨k, hk⟩ := storeTerminalResult_eq cfg
    { runId
      groupFolder := request.groupFolder
      backend := safeSelectBackendName cfg request
      sessionId
      slotId := request.slotId
      status := .cancelled }
    { c with draws := c.draws + 1, workspaceSessionStore := store }
  rw [hk]
  exact .head (.noise c (c.draws + 1) store c.runSnapshots c.runSessionIds c.now)
    (.single (.cancelQueued k hstatus rfl))

/-- The status that `cancel` sets on a running run is set again where its result is stored. -/
def Closing.ofInsert {r : String} {s : ExecutionStatus} {result : ExecutionResult}
    (hr : result.runId = r) (k : Closing { c with statuses := c.statuses.insert r s } result) :
    Closing c result :=
  { k with
    get?_statuses := fun r' => by
      rw [k.get?_statuses]
      simp only [Dict.get?_insert]
      split
      · rfl
      · split
        · rfl
        · rename_i h
          rw [if_neg (hr ▸ h)] }

/-- The end of a running run by a cancel. -/
theorem storeCancelled_move (cfg : Config) {result : ExecutionResult}
    (hstatus : c.statuses.get? result.runId = some .running)
    (hbackend : (c.runningBackends.get? result.runId).isSome = true)
    (hcancelled : result.status = .cancelled)
    (htimely : guards.timely → ¬ c.HasCommitted result.runId) :
    Move guards c ((storeTerminalResult cfg result
      { c with
        cancelledRunIds := c.cancelledRunIds.insert result.runId
        statuses := c.statuses.insert result.runId .cancelled
        executions := c.cancelExecution result.runId }).recordCancel result.runId .running) := by
  obtain ⟨k, hk⟩ := storeTerminalResult_eq cfg result
    { c with
      cancelledRunIds := c.cancelledRunIds.insert result.runId
      statuses := c.statuses.insert result.runId .cancelled
      executions := c.cancelExecution result.runId }
  rw [hk]
  exact .cancelRunning hstatus hbackend (Closing.ofInsert (s := .cancelled)
    (c := { c with
      cancelledRunIds := c.cancelledRunIds.insert result.runId
      executions := c.cancelExecution result.runId }) rfl k) hcancelled htimely

theorem cancelRunning_moves (cfg : Config) {runId : String} (request : ExecutionRequest)
    (hstatus : c.statuses.get? runId = some .running)
    (htimely : guards.timely → ¬ c.HasCommitted runId) :
    Moves guards c (c.cancelRunning cfg runId request).2 := by
  unfold cancelRunning peekSessionId
  obtain ⟨sessionId, store, hpeek⟩ := resolveSessionId_eq cfg request
    (safeSelectBackendName cfg request) none c
  have hnoise : Move guards c
      { c with draws := c.draws + 1, workspaceSessionStore := store } :=
    .noise c (c.draws + 1) store c.runSnapshots c.runSessionIds c.now
  simp only [hpeek]
  split
  · exact .single hnoise
  · rename_i backend hbackend
    exact .head hnoise (.single (storeCancelled_move cfg
      (c := { c with draws := c.draws + 1, workspaceSessionStore := store }) hstatus
      (Option.isSome_iff_exists.mpr ⟨backend, hbackend⟩) rfl htimely))

theorem cancel_moves (cfg : Config) (runId : String)
    (htimely : guards.timely → c.Timely (.cancel runId)) :
    Moves guards c (c.cancel cfg runId).2 := by
  unfold cancel
  split
  · rename_i hstatus
    split
    · exact .refl
    · exact cancelQueued_moves cfg _ hstatus
  · rename_i hstatus
    split
    · exact .refl
    · exact cancelRunning_moves cfg _ hstatus fun ht => htimely ht hstatus
  · exact .refl

/-- The worker is to resume from a `CancelledError` of a run that `cancel` did not cancel. -/
def Crashes (c : Coordinator) (worker : ℕ) (groupFolder runId : String) : Prop :=
  ∃ request task execution,
    c.workers.get? worker = some { groupFolder, phase := .awaiting runId request task } ∧
    c.executions.get? task = some execution ∧ execution.phase = .done .cancelledError ∧
    runId ∉ c.cancelledRunIds

/-- What the worker does with the outcome of its execution task, up to the next turn of its
loop. -/
theorem collect_moves (cfg : Config) (guards : Guards)
    (hE : ∀ t e, c.executions.get? t = some e → e.Conforming)
    {worker task : ℕ} {groupFolder runId : String} {request : ExecutionRequest}
    {execution : Execution} {outcome : Outcome}
    (hw : c.workers.get? worker = some { groupFolder, phase := .awaiting runId request task })
    (he : c.executions.get? task = some execution) (hdone : execution.phase = .done outcome) :
    (∃ d, (c.setWorkerPhase worker .active).collect cfg runId request outcome = some d ∧
        Moves guards c d ∧ d.workers.get? worker = some { groupFolder, phase := .active }) ∨
      ((c.setWorkerPhase worker .active).collect cfg runId request outcome = none ∧
        c.Crashes worker groupFolder runId) := by
  have hactive : (c.setWorkerPhase worker .active).workers.get? worker =
      some { groupFolder, phase := .active } := by
    simp [setWorkerPhase, hw]
  have hcancelled (h : runId ∈ c.cancelledRunIds) : Moves guards c
      (((c.setWorkerPhase worker .active).forgetRunning runId).discardCancelled runId) :=
    .tail (.single (.collectCancelled hw he hdone h)) (.noise _ c.draws c.workspaceSessionStore
      c.runSnapshots (c.runSessionIds.erase runId) c.now)
  unfold collect
  rcases hE task execution he outcome hdone with rfl | ⟨result, rfl, hown, hterminal⟩
  · by_cases h : runId ∈ c.cancelledRunIds
    · exact .inl ⟨_, if_pos h, hcancelled h, hactive⟩
    · exact .inr ⟨if_neg h, _, _, _, hw, he, hdone, h⟩
  · by_cases h : runId ∈ c.cancelledRunIds
    · exact .inl ⟨_, if_pos h, hcancelled h, hactive⟩
    · obtain ⟨k, hk⟩ := storeTerminalResult_eq cfg result
        ((c.setWorkerPhase worker .active).forgetRunning runId)
      refine .inl ⟨_, (if_neg h).trans (congrArg some hk), ?_, hactive⟩
      exact .head (.noise c c.draws c.workspaceSessionStore c.runSnapshots
        (c.runSessionIds.erase runId) c.now) (.single (.collectResult
          (c := { c with runSessionIds := c.runSessionIds.erase runId }) hw he hdone h k))

/-- A worker turn is a sequence of moves, or the end of the worker. -/
theorem workerStep_moves (hE : ∀ t e, c.executions.get? t = some e → e.Conforming)
    {worker : ℕ} (h : c.workerStep cfg worker = some c') :
    Moves guards c c' ∨ ∃ groupFolder runId, c.Crashes worker groupFolder runId ∧
      c' = (c.forgetRunning runId).setWorkerPhase worker .crashed := by
  unfold workerStep at h
  split at h
  · rename_i groupFolder hw
    obtain rfl := Option.some.inj h
    exact .inl (.trans (.single (.wake hw)) (drainQueue_moves cfg _
      (by simp [setWorkerPhase, hw]) rfl))
  · rename_i groupFolder runId request task hw
    split at h
    · rename_i outcome hphase
      obtain ⟨execution, he, hdone⟩ := Option.map_eq_some_iff.mp hphase
      rcases collect_moves cfg guards hE hw he hdone with
        ⟨d, hd, hmoves, hactive⟩ | ⟨hnone, hcrash⟩
      · simp only [hd] at h
        obtain rfl := Option.some.inj h
        exact .inl (.trans hmoves (drainQueue_moves cfg _ hactive rfl))
      · simp only [hnone] at h
        obtain rfl := Option.some.inj h
        exact .inr ⟨groupFolder, runId, hcrash, rfl⟩
    · cases h
  · cases h

/-- What the first step of an execution task does, by whether it was cancelled before. -/
inductive Starts (c : Coordinator) (task : ℕ) (e : Execution) : Coordinator → Prop
  | drop (created : e.phase = .created) (cancelled : e.cancelRequested = true) :
      Starts c task e (c.setExecutionPhase task (.done .cancelledError))
  | call (created : e.phase = .created) (kept : e.cancelRequested = false) :
      Starts c task e ((c.recordCall e e.sessionId false).setExecutionPhase task .executing)

/-- **The start of a task** is one of these. -/
theorem starts_of_step {task : ℕ} (h : c.executionStep task = some c') :
    ∃ e, c.executions.get? task = some e ∧ Starts c task e c' := by
  unfold executionStep at h
  split at h
  · cases h
  · rename_i e he
    refine ⟨e, he, ?_⟩
    split at h
    · rename_i hcreated
      obtain rfl := Option.some.inj h
      unfold startExecution
      split
      · rename_i hcancelled
        exact .drop hcreated hcancelled
      · rename_i hkept
        exact .call hcreated (eq_false_of_ne_true hkept)
    · cases h

/-- The first step of an execution task is one move. -/
theorem executionStep_moves {task : ℕ} (h : c.executionStep task = some c') :
    Moves guards c c' := by
  obtain ⟨e, he, hstarts⟩ := starts_of_step h
  cases hstarts with
  | drop created cancelled =>
    exact Moves.of_eq (.single (.turn he (.drop created cancelled) (fun _ h => absurd rfl h)))
      (by simp [setExecutionPhase, turned])
  | call created kept =>
    exact Moves.of_eq (.single (.turn he (.call created kept) (fun _ h => absurd rfl h)))
      (by simp [setExecutionPhase, recordCall, turned])

theorem finishExecution_moves {task : ℕ} {execution : Execution} {result : ExecutionResult}
    (he : c.executions.get? task = some execution) (hin : execution.InFlight)
    (hown : result.runId = execution.runId)
    (hterminal : result.status ∈ [ExecutionStatus.completed, .failed, .timeout])
    (htimely : guards.timely → usesWorkspaceSession execution.backendName = true →
      result.status = .completed → execution.runId ∉ c.cancelledRunIds) :
    Moves guards c (c.finishExecution task execution result) := by
  unfold finishExecution
  split
  · rename_i hcommit
    refine .head (.noise c c.draws (c.workspaceSessionStore.commitSuccess execution.workspaceKey
      execution.backendName result.sessionId) c.runSnapshots c.runSessionIds c.now)
      (Moves.of_eq (.single (.turn he (.result hin result hown hterminal [execution.runId] ?_)
        (fun ht _ => htimely ht hcommit.1 hcommit.2))) ?_)
    · rw [if_pos hcommit]
    · simp [setExecutionPhase, turned]
  · rename_i hcommit
    refine Moves.of_eq (.single (.turn he (.result hin result hown hterminal [] ?_)
      (fun _ h => absurd rfl h))) ?_
    · rw [if_neg hcommit]
    · simp [setExecutionPhase, turned]

theorem markRecoveryAttempt_eq (runId reason : String) (c : Coordinator) :
    ∃ snapshots, c.markRecoveryAttempt runId reason = { c with runSnapshots := snapshots } :=
  modifySnapshot_eq _ _ c

theorem markRecoveryResult_eq (runId : String) (succeeded : Bool) (c : Coordinator) :
    ∃ snapshots, c.markRecoveryResult runId succeeded = { c with runSnapshots := snapshots } :=
  modifySnapshot_eq _ _ c

/-- A retry calls the backend again, with another session id. -/
theorem retryExecution_eq (cfg : Config) (task : ℕ) (execution : Execution) (reason : String)
    (c : Coordinator) : ∃ sessionId store snapshots,
    c.retryExecution cfg task execution reason =
      (recordCall execution sessionId true
        { c with
          draws := c.draws + 1
          workspaceSessionStore := store
          runSnapshots := snapshots
          runSessionIds := c.runSessionIds.insert execution.runId sessionId }).setExecutionPhase
        task (.retrying sessionId) := by
  obtain ⟨snapshots, hsnapshots⟩ := markRecoveryAttempt_eq execution.runId reason c
  obtain ⟨sessionId, store, hsession⟩ := resolveSessionId_eq cfg execution.request
    execution.backendName (some true)
    { c with
      runSnapshots := snapshots
      workspaceSessionStore := c.workspaceSessionStore.invalidate execution.workspaceKey }
  refine ⟨sessionId, store, snapshots, ?_⟩
  unfold retryExecution
  simp only [hsnapshots, hsession]

theorem retryExecution_moves (cfg : Config) {task : ℕ} {execution : Execution} (reason : String)
    (he : c.executions.get? task = some execution) (hin : execution.phase = .executing) :
    Moves guards c (c.retryExecution cfg task execution reason) := by
  obtain ⟨sessionId, store, snapshots, heq⟩ := retryExecution_eq cfg task execution reason c
  rw [heq]
  refine .head (.noise c (c.draws + 1) store snapshots
    (c.runSessionIds.insert execution.runId sessionId) c.now)
    (Moves.of_eq (.single (.turn he (.retry sessionId hin) (fun _ h => absurd rfl h))) ?_)
  simp [setExecutionPhase, recordCall, turned]

/-- A result that `_run_backend_with_timeout` builds is one of its run, with a terminal status. -/
theorem runBackendWithTimeout_ok {execution : Execution} {sessionId : String} {ending : Ending}
    {result : ExecutionResult} (hconf : ending.Conforming)
    (h : runBackendWithTimeout execution sessionId ending = .ok result) :
    result.runId = execution.runId ∧ result.sessionId = sessionId ∧
      result.status ∈ [ExecutionStatus.completed, .failed, .timeout] := by
  cases ending with
  | dict raw =>
    obtain rfl := Except.ok.inj h
    refine ⟨rfl, rfl, ?_⟩
    simp only [Ending.Conforming, List.mem_cons, List.not_mem_nil, or_false] at hconf
    rcases hconf with h | h | h | h <;> simp [h]
  | executionResult result => exact hconf.elim
  | malformed message => exact hconf.elim
  | timeoutError =>
    obtain rfl := Except.ok.inj h
    exact ⟨rfl, rfl, by simp⟩
  | exception message =>
    obtain rfl := Except.ok.inj h
    exact ⟨rfl, rfl, by simp⟩
  | runtimeError sessionResumeFailed message => cases h
  | cancelledError => cases h

theorem runBackendWithTimeout_completed {execution : Execution} {sessionId : String}
    {ending : Ending} {result : ExecutionResult} (hconf : ending.Conforming)
    (h : runBackendWithTimeout execution sessionId ending = .ok result)
    (hs : result.status = .completed) : ending.completes = true := by
  cases ending with
  | dict raw =>
    obtain rfl := Except.ok.inj h
    exact beq_iff_eq.mpr hs
  | executionResult result => exact hconf.elim
  | timeoutError =>
    obtain rfl := Except.ok.inj h
    cases hs
  | exception message =>
    obtain rfl := Except.ok.inj h
    cases hs
  | malformed message => cases h
  | runtimeError sessionResumeFailed message => cases h
  | cancelledError => cases h

theorem runBackendWithTimeout_cancelled {execution : Execution} {sessionId : String}
    {ending : Ending}
    (h : runBackendWithTimeout execution sessionId ending = .error .cancelledError) :
    ending = .cancelledError := by
  cases ending <;> first | rfl | cases h

theorem runBackendWithTimeout_runtimeError {execution : Execution} {sessionId message : String}
    {ending : Ending} {sessionResumeFailed : Bool}
    (h : runBackendWithTimeout execution sessionId ending =
      .error (.runtimeError sessionResumeFailed message)) :
    ending = .runtimeError sessionResumeFailed message := by
  cases ending with
  | runtimeError failed reason =>
    obtain ⟨rfl, rfl⟩ := BackendError.runtimeError.inj (Except.error.inj h)
    rfl
  | dict _ | executionResult _ | timeoutError | exception _ | cancelledError | malformed _ =>
    cases h

theorem runBackendWithTimeout_other {execution : Execution} {sessionId message : String}
    {ending : Ending}
    (h : runBackendWithTimeout execution sessionId ending = .error (.other message)) :
    ¬ ending.Conforming := by
  cases ending <;> first | exact id | cases h

/-! ## The end of a backend call -/

end Coordinator

/-- The task awaits its call with the session id: the first one with its own, or a retry. -/
def Execution.CalledWith (execution : Execution) (sessionId : String) : Prop :=
  execution.phase = .executing ∧ sessionId = execution.sessionId ∨
    execution.phase = .retrying sessionId

theorem Execution.CalledWith.inFlight {execution : Execution} {sessionId : String}
    (h : execution.CalledWith sessionId) : execution.InFlight := by
  rcases h with ⟨hphase, -⟩ | hphase
  · exact .inl hphase
  · exact .inr ⟨sessionId, hphase⟩

namespace Coordinator

/-- The end of a retry is noted in the snapshot of its run. -/
def noted (e : Execution) (succeeded : Bool) (c : Coordinator) : Coordinator :=
  if e.phase = .executing then c else c.markRecoveryResult e.runId succeeded

theorem noted_eq (e : Execution) (succeeded : Bool) (c : Coordinator) :
    ∃ snapshots, c.noted e succeeded = { c with runSnapshots := snapshots } := by
  unfold noted
  split
  · exact ⟨c.runSnapshots, rfl⟩
  · exact markRecoveryResult_eq e.runId succeeded c

/-- What the end of a backend call does, by what the call returns or raises. -/
inductive CallEnds (cfg : Config) (c : Coordinator) (task : ℕ) (ending : Ending) (e : Execution) :
    Coordinator → Prop
  | finish {sessionId : String} {result : ExecutionResult} (called : e.CalledWith sessionId)
      (run : runBackendWithTimeout e sessionId ending = .ok result) :
      CallEnds cfg c task ending e ((c.noted e true).finishExecution task e result)
  | retry {sessionResumeFailed : Bool} {message : String} (executing : e.phase = .executing)
      (run : runBackendWithTimeout e e.sessionId ending =
        .error (.runtimeError sessionResumeFailed message))
      (retried : shouldRetrySessionResume e sessionResumeFailed = true) :
      CallEnds cfg c task ending e (c.retryExecution cfg task e message)
  | fail {sessionId message : String} {sessionResumeFailed : Bool}
      (called : e.CalledWith sessionId)
      (run : runBackendWithTimeout e sessionId ending =
        .error (.runtimeError sessionResumeFailed message))
      (kept : e.phase = .executing → shouldRetrySessionResume e sessionResumeFailed = false) :
      CallEnds cfg c task ending e ((c.noted e false).setExecutionPhase task
        (.done (.returned (failedResult e sessionId message))))
  | cancelled {sessionId : String} (called : e.CalledWith sessionId)
      (run : runBackendWithTimeout e sessionId ending = .error .cancelledError) :
      CallEnds cfg c task ending e (c.setExecutionPhase task (.done .cancelledError))
  | raised {sessionId message : String} (called : e.CalledWith sessionId)
      (run : runBackendWithTimeout e sessionId ending = .error (.other message)) :
      CallEnds cfg c task ending e (c.setExecutionPhase task (.done (.raised message)))

/-- **The end of a call** is one of these. -/
theorem callEnds_of_step {task : ℕ} {ending : Ending}
    (h : c.backendEndsStep cfg task ending = some c') :
    ∃ e, c.executions.get? task = some e ∧ CallEnds cfg c task ending e c' := by
  unfold backendEndsStep at h
  split at h
  · cases h
  · rename_i e he
    refine ⟨e, he, ?_⟩
    split at h
    · rename_i hphase
      obtain rfl := Option.some.inj h
      have hcalled : e.CalledWith e.sessionId := .inl ⟨hphase, rfl⟩
      have hnoted (succeeded : Bool) : c.noted e succeeded = c := if_pos hphase
      unfold resumeExecuting
      split
      · rename_i result hrun
        have hends : CallEnds cfg c task ending e
            ((c.noted e true).finishExecution task e result) := .finish hcalled hrun
        rwa [hnoted] at hends
      · rename_i sessionResumeFailed message hrun
        split
        · rename_i hretried
          exact .retry hphase hrun hretried
        · rename_i hkept
          have hends : CallEnds cfg c task ending e ((c.noted e false).setExecutionPhase task
              (.done (.returned (failedResult e e.sessionId message)))) :=
            .fail hcalled hrun fun _ => eq_false_of_ne_true hkept
          rwa [hnoted] at hends
      · rename_i hrun
        exact .cancelled hcalled hrun
      · rename_i message hrun
        exact .raised hcalled hrun
    · rename_i retrySessionId hphase
      obtain rfl := Option.some.inj h
      have hcalled : e.CalledWith retrySessionId := .inr hphase
      have hnot : e.phase ≠ .executing := by simp [hphase]
      have hnoted (succeeded : Bool) :
          c.noted e succeeded = c.markRecoveryResult e.runId succeeded := if_neg hnot
      unfold resumeRetrying
      rw [← hnoted, ← hnoted]
      split
      · rename_i result hrun
        exact .finish hcalled hrun
      · rename_i sessionResumeFailed message hrun
        -- A retry is not retried.
        exact .fail hcalled hrun fun hexecuting => absurd hexecuting hnot
      · rename_i hrun
        exact .cancelled hcalled hrun
      · rename_i message hrun
        exact .raised hcalled hrun
    · cases h

/-- The end of a backend call is a sequence of moves. -/
theorem backendEndsStep_moves {task : ℕ} {ending : Ending} (hconf : ending.Conforming)
    (hasked : guards.requested → ending = .cancelledError → c.CancelRequested task)
    (htimely : guards.timely → c.Timely (.backendEnds task ending))
    (h : c.backendEndsStep cfg task ending = some c') : Moves guards c c' := by
  obtain ⟨e, he, hends⟩ := callEnds_of_step h
  cases hends with
  | finish called run =>
    obtain ⟨hown, -, hterminal⟩ := runBackendWithTimeout_ok hconf run
    obtain ⟨snapshots, hsnapshots⟩ := noted_eq e true c
    rw [hsnapshots]
    -- The note in the snapshot is a move of its own.
    refine .head (.noise c c.draws c.workspaceSessionStore snapshots c.runSessionIds c.now) ?_
    exact finishExecution_moves he called.inFlight hown hterminal
      fun ht hb hs => htimely ht (runBackendWithTimeout_completed hconf run hs) e he hb
  | retry executing => exact retryExecution_moves cfg _ he executing
  | @fail sessionId message _ called =>
    obtain ⟨snapshots, hsnapshots⟩ := noted_eq e false c
    rw [hsnapshots]
    refine .head (.noise c c.draws c.workspaceSessionStore snapshots c.runSessionIds c.now) ?_
    have hfailed : Turn guards e (.done (.returned (failedResult e sessionId message))) [] [] :=
      .result called.inFlight _ rfl (by simp [failedResult]) [] (by simp [failedResult])
    exact Moves.of_eq (.single (.turn he hfailed (fun _ h => absurd rfl h)))
      (by simp [setExecutionPhase, turned])
  | cancelled called run =>
    have hcancel : Turn guards e (.done .cancelledError) [] [] := by
      refine .cancelled called.inFlight fun hr => ?_
      simpa [CancelRequested, he] using hasked hr (runBackendWithTimeout_cancelled run)
    exact Moves.of_eq (.single (.turn he hcancel (fun _ h => absurd rfl h)))
      (by simp [setExecutionPhase, turned])
  | raised called run => exact absurd hconf (runBackendWithTimeout_other run)

/-! ## What an action does -/

/-- The actions of the tasks that wait for a run. -/
def Action.ofWaiter : Action → Bool
  | .wait _ | .waiter _ | .cancelWaiter _ => true
  | _ => false

/-- **What an action of the coordinator does**: a sequence of moves, or the end of a worker that
was not told of a cancellation. -/
theorem step_moves (guards : Guards) {a : Action}
    (hE : ∀ t e, c.executions.get? t = some e → e.Conforming)
    (ha : c.Ordinary a) (hw : a.ofWaiter = false)
    (hasked : guards.requested → ∀ task, a = .backendEnds task .cancelledError →
      c.CancelRequested task)
    (htimely : guards.timely → c.Timely a) (h : step cfg c a = some c') :
    Moves guards c c' ∨ ∃ worker groupFolder runId, a = .worker worker ∧
      c.Crashes worker groupFolder runId ∧
      c' = (c.forgetRunning runId).setWorkerPhase worker .crashed := by
  cases a with
  | submit request uuid =>
    obtain rfl := Option.some.inj h
    exact .inl (submitExecution_moves ha)
  | cancel runId =>
    obtain rfl := Option.some.inj h
    exact .inl (cancel_moves cfg runId htimely)
  | worker worker =>
    rcases workerStep_moves hE h with hmoves | ⟨groupFolder, runId, hcrash, rfl⟩
    · exact .inl hmoves
    · exact .inr ⟨worker, groupFolder, runId, rfl, hcrash, rfl⟩
  | execution task => exact .inl (executionStep_moves h)
  | backendEnds task ending =>
    refine .inl (backendEndsStep_moves ha (fun hr hending => hasked hr task ?_) htimely h)
    rw [hending]
  | wait runId => cases hw
  | waiter waiter => cases hw
  | cancelWaiter waiter => cases hw
  | tick =>
    obtain rfl := Option.some.inj h
    exact .inl (.single (.noise c c.draws c.workspaceSessionStore c.runSnapshots c.runSessionIds
      (c.now + 1)))

/-- **What an action of a waiting task does**: only a cancelled one touches a future. -/
theorem step_waiter {a : Action} (hw : a.ofWaiter = true) (h : step cfg c a = some c') :
    (∃ waiters, c' = { c with waiters } ∧ ∀ waiter, a ≠ .cancelWaiter waiter) ∨
      ∃ waiter future, a = .cancelWaiter waiter ∧ c.awaitedFuture waiter = some future ∧
        c' = c.cancelWaiter waiter future := by
  cases a with
  | wait runId =>
    obtain rfl := Option.some.inj h
    refine .inl ?_
    unfold waitForRun
    split
    · exact ⟨_, rfl, nofun⟩
    · split
      · exact ⟨c.waiters, rfl, nofun⟩
      · exact ⟨_, rfl, nofun⟩
  | waiter waiter =>
    refine .inl ?_
    simp only [step, waiterStep, Option.bind_eq_bind, Option.bind_eq_some_iff] at h
    obtain ⟨future, -, w, -, f, -, h⟩ := h
    unfold resumeWaiter at h
    simp only at h
    split at h
    · cases h
    · obtain rfl := Option.some.inj h
      exact ⟨_, rfl, nofun⟩
    · obtain rfl := Option.some.inj h
      exact ⟨_, rfl, nofun⟩
  | cancelWaiter waiter =>
    simp only [step, Option.map_eq_some_iff] at h
    obtain ⟨future, hf, rfl⟩ := h
    exact .inr ⟨waiter, future, rfl, hf, rfl⟩
  | _ => cases hw

end Coordinator

end Portex
