import Portex.Coordinator.State

/-!
# The operations of the execution coordinator

The methods of `ExecutionCoordinator`, each as a function of the state. A method that awaits is
cut at its `await`s: what a task does between two of them is one function here.

## Main definitions

* `submitExecution`, `cancel`, `waitForRun`: the public coroutines
* `storeTerminalResult`: the end of a run
* `drainQueue`, `collect`: the worker task, up to its next `await` and after it
* `startExecution`, `resumeExecuting`, `resumeRetrying`: the execution task, up to its next `await`
  and after it
* `getMonitorQueueSnapshot`: the queue overview
-/

namespace Portex

open Foundation

namespace Coordinator

/-- The run id of a request: its own unless it is missing or empty. -/
def runIdOf (request : ExecutionRequest) (uuid : String) : String :=
  match request.requestId with
  | some requestId => if requestId = "" then uuid else requestId
  | none => uuid

/-! ## Session ids -/

def usesWorkspaceSession (backendName : String) : Bool := backendName == "openai_runtime"

def workspaceKey (cfg : Config) (request : ExecutionRequest) : String :=
  cfg.resolveWorkspaceKey request.groupFolder request.slotId

/-- `_resolve_session_id`. Each call has a uuid of its own, drawn whether or not it is used. -/
def resolveSessionId (cfg : Config) (request : ExecutionRequest) (backendName : String)
    (freshSession : Option Bool) (c : Coordinator) : String × Coordinator :=
  let key := workspaceKey cfg request
  let effectiveFresh := freshSession.getD request.freshSession
  let drawn := { c with draws := c.draws + 1 }
  if usesWorkspaceSession backendName then
    let (sessionId, store) := c.workspaceSessionStore.previewSessionId key backendName
      effectiveFresh (cfg.newSessionId c.draws key)
    (sessionId, { drawn with workspaceSessionStore := store })
  else if effectiveFresh then (key ++ ":" ++ cfg.uuidHex c.draws, drawn)
  else (key, drawn)

def peekSessionId (cfg : Config) (request : ExecutionRequest) (backendName : String)
    (c : Coordinator) : String × Coordinator :=
  resolveSessionId cfg request backendName none c

def safeSelectBackendName (cfg : Config) (request : ExecutionRequest) : String :=
  match cfg.selectBackend request with
  | .ok backendName => backendName
  | .error _ => "unknown"

/-! ## Snapshots -/

def modifySnapshot (runId : String) (f : ExecutionRunSnapshot → ExecutionRunSnapshot)
    (c : Coordinator) : Coordinator :=
  match c.runSnapshots.get? runId with
  | none => c
  | some snapshot => { c with runSnapshots := c.runSnapshots.insert runId (f snapshot) }

def markRunning (runId backend sessionId : String) (c : Coordinator) : Coordinator :=
  c.modifySnapshot runId fun snapshot =>
    { snapshot with
      status := .running, backend := some backend, sessionId := some sessionId,
      startedAt := some c.now }

def markRecoveryAttempt (runId reason : String) (c : Coordinator) : Coordinator :=
  c.modifySnapshot runId fun snapshot =>
    { snapshot with
      recoveryAttempted := true, recoveryReason := some reason, recoverySucceeded := none }

def markRecoveryResult (runId : String) (succeeded : Bool) (c : Coordinator) : Coordinator :=
  c.modifySnapshot runId fun snapshot => { snapshot with recoverySucceeded := some succeeded }

def markTerminal (result : ExecutionResult) (c : Coordinator) : Coordinator :=
  c.modifySnapshot result.runId fun snapshot =>
    { snapshot with
      status := result.status, backend := some result.backend,
      sessionId := some result.sessionId, slotId := result.slotId,
      finalOutput := result.finalOutput, error := result.error,
      timeoutMs := result.timeoutMs, finishedAt := some c.now }

/-! ## The end of a run -/

/-- The eviction loop over `_completed_order`. -/
def dropStale (maxCompletedRuns : ℕ) : List String → Coordinator → Coordinator
  | [], c => { c with completedOrder := [] }
  | staleRunId :: order, c =>
    if maxCompletedRuns < order.length + 1 then
      dropStale maxCompletedRuns order
        { c with
          completedResults := c.completedResults.erase staleRunId
          statuses := c.statuses.erase staleRunId
          runSnapshots := c.runSnapshots.erase staleRunId }
    else { c with completedOrder := staleRunId :: order }

/-- `_run_futures.pop`, and `set_result` on a future that is not done. -/
def resolveFuture (result : ExecutionResult) (c : Coordinator) : Coordinator :=
  match c.runFutures.get? result.runId with
  | none => c
  | some future =>
    { c with
      runFutures := c.runFutures.erase result.runId
      futures := c.futures.modify future (Future.setResult result) }

def storeTerminalResult (cfg : Config) (result : ExecutionResult) (c : Coordinator) :
    Coordinator :=
  let c := { c with
    statuses := c.statuses.insert result.runId result.status
    completedResults := c.completedResults.insert result.runId result
    completedOrder := c.completedOrder ++ [result.runId] }
  let c := c.markTerminal result
  let c := dropStale cfg.maxCompletedRuns c.completedOrder c
  let c := c.resolveFuture result
  { c with
    runRequests := c.runRequests.erase result.runId
    history := { c.history with stored := c.history.stored ++ [result] } }

/-! ## Submission -/

/-- `_ensure_worker`: a new worker task unless the group's last one is still live. -/
def ensureWorker (groupFolder : String) (c : Coordinator) : Coordinator :=
  let live : Bool := match c.groupWorkers.get? groupFolder with
    | none => false
    | some worker => (c.workers.get? worker).any fun w => !w.phase.done
  if live then c
  else
    { c with
      groupWorkers := c.groupWorkers.insert groupFolder c.workers.size
      workers := c.workers.alloc { groupFolder } }

def submitExecution (request : ExecutionRequest) (uuid : String) (c : Coordinator) :
    ExecutionHandle × Coordinator :=
  let runId := runIdOf request uuid
  let snapshot : ExecutionRunSnapshot :=
    { runId
      groupFolder := request.groupFolder
      chatJid := request.chatJid
      userId := request.userId
      source := request.source
      slotId := request.slotId
      requestedMode := request.requestedMode
      status := .queued
      createdAt := c.now }
  let c := { c with
    futures := c.futures.alloc { runId }
    runFutures := c.runFutures.insert runId c.futures.size
    runRequests := c.runRequests.insert runId request
    statuses := c.statuses.insert runId .queued
    runSnapshots := c.runSnapshots.insert runId snapshot
    groupQueues := c.groupQueues.insert request.groupFolder
      (c.queue request.groupFolder ++ [(runId, request)])
    history := { c.history with submitted := c.history.submitted ++ [(runId, request)] } }
  ({ runId, groupFolder := request.groupFolder, status := .queued },
    c.ensureWorker request.groupFolder)

/-! ## Cancellation -/

/-- An accepted cancel, for the record. -/
def recordCancel (runId : String) (found : ExecutionStatus) (c : Coordinator) : Coordinator :=
  { c with
    history := { c.history with cancelled := c.history.cancelled ++ [(runId, found)] } }

def cancelQueued (cfg : Config) (runId : String) (request : ExecutionRequest) (c : Coordinator) :
    Coordinator :=
  let backend := safeSelectBackendName cfg request
  let (sessionId, c) := c.peekSessionId cfg request backend
  (c.storeTerminalResult cfg
    { runId
      groupFolder := request.groupFolder
      backend
      sessionId
      slotId := request.slotId
      status := .cancelled }).recordCancel runId .queued

/-- `execution_task.cancel()` on the execution task of a run. -/
def cancelExecution (runId : String) (c : Coordinator) : Heap Execution :=
  match c.runningTasks.get? runId with
  | none => c.executions
  | some execution => c.executions.modify execution Execution.cancel

def cancelRunning (cfg : Config) (runId : String) (request : ExecutionRequest)
    (c : Coordinator) : Bool × Coordinator :=
  let backendName := safeSelectBackendName cfg request
  let (peeked, c) := c.peekSessionId cfg request backendName
  let sessionId := c.runSessionIds.getD runId peeked
  match c.runningBackends.get? runId with
  | none => (false, c)
  | some _ =>
    let c := { c with
      cancelledRunIds := c.cancelledRunIds.insert runId
      statuses := c.statuses.insert runId .cancelled
      executions := c.cancelExecution runId }
    (true, (c.storeTerminalResult cfg
      { runId
        groupFolder := request.groupFolder
        backend := backendName
        sessionId
        slotId := request.slotId
        status := .cancelled }).recordCancel runId .running)

/-- `cancel`. The `none` cases of the request are the `KeyError` of `_run_requests[run_id]`. -/
def cancel (cfg : Config) (runId : String) (c : Coordinator) : Option Bool × Coordinator :=
  match c.statuses.get? runId with
  | some .queued =>
    match c.runRequests.get? runId with
    | none => (none, c)
    | some request => (some true, c.cancelQueued cfg runId request)
  | some .running =>
    match c.runRequests.get? runId with
    | none => (none, c)
    | some request =>
      let (accepted, c) := c.cancelRunning cfg runId request
      (some accepted, c)
  | _ => (some false, c)

/-! ## The worker task -/

/-- `future is None or future.done()`, negated: a run popped from the deque is still wanted. -/
def wanted (c : Coordinator) (runId : String) : Bool :=
  match c.runFutures.get? runId with
  | none => false
  | some future => (c.futures.get? future).any fun f => f.state = .pending

/-- A failed result, for a run that never reached a backend. -/
def failBeforeStart (cfg : Config) (runId : String) (request : ExecutionRequest)
    (backend slotId error : String) (c : Coordinator) : Coordinator :=
  let (sessionId, c) := c.peekSessionId cfg request backend
  c.storeTerminalResult cfg
    { runId
      groupFolder := request.groupFolder
      backend
      sessionId
      slotId
      status := .failed
      error := some error }

/-- The part of `_execute_request` that hands a run to its backend. -/
def launch (cfg : Config) (runId : String) (request : ExecutionRequest) (backendName : String)
    (c : Coordinator) : Coordinator :=
  let (sessionId, c) := c.resolveSessionId cfg request backendName none
  let c := { c with
    runSessionIds := c.runSessionIds.insert runId sessionId
    statuses := c.statuses.insert runId .running
    history := { c.history with started := c.history.started ++ [(runId, request)] } }
  let c := c.markRunning runId backendName sessionId
  { c with
    runningBackends := c.runningBackends.insert runId backendName
    executions := c.executions.alloc
      { request, runId, backendName, workspaceKey := workspaceKey cfg request, sessionId }
    runningTasks := c.runningTasks.insert runId c.executions.size }

/-- `_execute_request` up to its `await`. The left answer is a run that ended at once, the right
one the execution task that the worker now awaits. -/
def executeRequest (cfg : Config) (runId : String) (request : ExecutionRequest)
    (c : Coordinator) : Coordinator ⊕ (ℕ × Coordinator) :=
  match cfg.selectBackend request with
  | .error error =>
    .inl (c.failBeforeStart cfg runId request "unknown" request.slotId error)
  | .ok backendName =>
    if backendName ∈ cfg.backends then
      .inr (c.executions.size, c.launch cfg runId request backendName)
    else
      -- this result alone is built without a slot id, and gets the default
      .inl (c.failBeforeStart cfg runId request backendName "main"
        ("unknown execution backend: " ++ backendName))

def setWorkerPhase (worker : ℕ) (phase : WorkerPhase) (c : Coordinator) : Coordinator :=
  { c with workers := c.workers.modify worker fun w => { w with phase } }

/-- The loop of `_run_group_queue`, until it awaits or the deque is empty. -/
def drainQueue (cfg : Config) (worker : ℕ) (groupFolder : String) :
    List (String × ExecutionRequest) → Coordinator → Coordinator
  | [], c =>
    { c with groupWorkers := c.groupWorkers.erase groupFolder }.setWorkerPhase worker .finished
  | (runId, request) :: rest, c =>
    let c := { c with groupQueues := c.groupQueues.insert groupFolder rest }
    if c.wanted runId then
      match c.executeRequest cfg runId request with
      | .inl c => drainQueue cfg worker groupFolder rest c
      | .inr (execution, c) => c.setWorkerPhase worker (.awaiting runId request execution)
    else drainQueue cfg worker groupFolder rest c

/-- The `finally` block of `_execute_request`. -/
def forgetRunning (runId : String) (c : Coordinator) : Coordinator :=
  { c with
    runningBackends := c.runningBackends.erase runId
    runningTasks := c.runningTasks.erase runId
    runSessionIds := c.runSessionIds.erase runId }

def discardCancelled (runId : String) (c : Coordinator) : Coordinator :=
  { c with cancelledRunIds := c.cancelledRunIds.erase runId }

/-- `_execute_request` after its `await`, and the guard around it in `_run_group_queue`. `none`
is a `CancelledError` that leaves the worker. -/
def collect (cfg : Config) (runId : String) (request : ExecutionRequest) (outcome : Outcome)
    (c : Coordinator) : Option Coordinator :=
  let c := c.forgetRunning runId
  match outcome with
  | .cancelledError => if runId ∈ c.cancelledRunIds then some (c.discardCancelled runId) else none
  | .returned result =>
    if runId ∈ c.cancelledRunIds then some (c.discardCancelled runId)
    else some (c.storeTerminalResult cfg result)
  | .raised message =>
    some (c.failBeforeStart cfg runId request (safeSelectBackendName cfg request) request.slotId
      message)

/-! ## The execution task -/

/-- The dict a backend answers with. -/
structure RawResult where
  status : Option ExecutionStatus := none
  finalOutput : Option String := none
  error : Option String := none
  timeoutMs : Option Int := none
  deriving DecidableEq

/-- How a `backend.execute` ends. -/
inductive Ending
  | dict (raw : RawResult)
  | executionResult (result : ExecutionResult)
  /-- `asyncio.TimeoutError`, of `wait_for` or of the backend itself. -/
  | timeoutError
  /-- A `RuntimeError`, possibly a `SessionResumeFailedError`. -/
  | runtimeError (sessionResumeFailed : Bool) (message : String)
  /-- Any other `Exception`. -/
  | exception (message : String)
  | cancelledError
  /-- A value without a `get` method. -/
  | malformed (message : String)
  deriving DecidableEq

/-- What `_run_backend_with_timeout` lets through. -/
inductive BackendError
  | runtimeError (sessionResumeFailed : Bool) (message : String)
  | cancelledError
  | other (message : String)

def runBackendWithTimeout (execution : Execution) (sessionId : String) :
    Ending → Except BackendError ExecutionResult
  | .dict raw => .ok
    { runId := execution.runId
      groupFolder := execution.request.groupFolder
      backend := execution.backendName
      sessionId
      slotId := execution.request.slotId
      status := raw.status.getD .completed
      finalOutput := raw.finalOutput
      error := raw.error
      timeoutMs := raw.timeoutMs }
  | .executionResult result => .ok result
  | .timeoutError => .ok
    { runId := execution.runId
      groupFolder := execution.request.groupFolder
      backend := execution.backendName
      sessionId
      slotId := execution.request.slotId
      status := .timeout
      timeoutMs := execution.request.timeoutMs }
  | .runtimeError sessionResumeFailed message => .error (.runtimeError sessionResumeFailed message)
  | .exception message => .ok
    { runId := execution.runId
      groupFolder := execution.request.groupFolder
      backend := execution.backendName
      sessionId
      slotId := execution.request.slotId
      status := .failed
      error := some message }
  | .cancelledError => .error .cancelledError
  | .malformed message => .error (.other message)

def shouldRetrySessionResume (execution : Execution) (sessionResumeFailed : Bool) : Bool :=
  !execution.request.freshSession && usesWorkspaceSession execution.backendName &&
    sessionResumeFailed

def setExecutionPhase (task : ℕ) (phase : ExecutionPhase) (c : Coordinator) : Coordinator :=
  { c with executions := c.executions.modify task fun execution => { execution with phase } }

def recordCall (execution : Execution) (sessionId : String) (retry : Bool) (c : Coordinator) :
    Coordinator :=
  let call := { runId := execution.runId, request := execution.request, sessionId, retry }
  { c with history := { c.history with calls := c.history.calls ++ [call] } }

/-- The end of `_execute_backend_with_lifecycle`: a completed run commits its session. -/
def finishExecution (task : ℕ) (execution : Execution) (result : ExecutionResult)
    (c : Coordinator) : Coordinator :=
  let c := if usesWorkspaceSession execution.backendName ∧ result.status = .completed then
      { c with
        workspaceSessionStore := c.workspaceSessionStore.commitSuccess execution.workspaceKey
          execution.backendName result.sessionId
        history := { c.history with committed := c.history.committed ++ [execution.runId] } }
    else c
  c.setExecutionPhase task (.done (.returned result))

/-- The failed result of a run whose backend raised a `RuntimeError`. -/
def failedResult (execution : Execution) (sessionId message : String) : ExecutionResult :=
  { runId := execution.runId
    groupFolder := execution.request.groupFolder
    backend := execution.backendName
    sessionId
    slotId := execution.request.slotId
    status := .failed
    error := some message }

/-- The first step of an execution task: it calls the backend, unless it was cancelled first. -/
def startExecution (task : ℕ) (execution : Execution) (c : Coordinator) : Coordinator :=
  if execution.cancelRequested then c.setExecutionPhase task (.done .cancelledError)
  else (c.recordCall execution execution.sessionId false).setExecutionPhase task .executing

/-- The retry after a failed session resume. -/
def retryExecution (cfg : Config) (task : ℕ) (execution : Execution) (reason : String)
    (c : Coordinator) : Coordinator :=
  let c := c.markRecoveryAttempt execution.runId reason
  let c := { c with
    workspaceSessionStore := c.workspaceSessionStore.invalidate execution.workspaceKey }
  let (retrySessionId, c) :=
    c.resolveSessionId cfg execution.request execution.backendName (some true)
  let c := { c with runSessionIds := c.runSessionIds.insert execution.runId retrySessionId }
  (c.recordCall execution retrySessionId true).setExecutionPhase task (.retrying retrySessionId)

/-- The execution task from the end of its first `backend.execute`. -/
def resumeExecuting (cfg : Config) (task : ℕ) (execution : Execution) (ending : Ending)
    (c : Coordinator) : Coordinator :=
  match runBackendWithTimeout execution execution.sessionId ending with
  | .ok result => c.finishExecution task execution result
  | .error (.runtimeError sessionResumeFailed message) =>
    if shouldRetrySessionResume execution sessionResumeFailed then
      c.retryExecution cfg task execution message
    else
      c.setExecutionPhase task
        (.done (.returned (failedResult execution execution.sessionId message)))
  | .error .cancelledError => c.setExecutionPhase task (.done .cancelledError)
  | .error (.other message) => c.setExecutionPhase task (.done (.raised message))

/-- The execution task from the end of its second `backend.execute`. -/
def resumeRetrying (task : ℕ) (execution : Execution) (retrySessionId : String)
    (ending : Ending) (c : Coordinator) : Coordinator :=
  match runBackendWithTimeout execution retrySessionId ending with
  | .ok result =>
    (c.markRecoveryResult execution.runId true).finishExecution task execution result
  | .error (.runtimeError _ message) =>
    (c.markRecoveryResult execution.runId false).setExecutionPhase task
      (.done (.returned (failedResult execution retrySessionId message)))
  | .error .cancelledError => c.setExecutionPhase task (.done .cancelledError)
  | .error (.other message) => c.setExecutionPhase task (.done (.raised message))

/-! ## Waiting -/

/-- `wait_for_run` up to its `await`. A run without result and future is a `KeyError`, which
leaves no task waiting. -/
def waitForRun (runId : String) (c : Coordinator) : Coordinator :=
  match c.completedResults.get? runId with
  | some result =>
    { c with waiters := c.waiters.alloc { runId, future := none, state := .returned result } }
  | none =>
    match c.runFutures.get? runId with
    | none => c
    | some future => { c with waiters := c.waiters.alloc { runId, future := some future } }

/-- A waiting task resumes once its future is done. -/
def resumeWaiter (waiter : ℕ) (w : Waiter) (future : Future) (c : Coordinator) :
    Option Coordinator :=
  let resume (state : WaiterState) : Option Coordinator :=
    some { c with waiters := c.waiters.modify waiter fun w => { w with state } }
  match future.state with
  | .pending => none
  | .resolved result =>
    resume (if w.cancelRequested then .cancelledError else .returned result)
  | .cancelled => resume .cancelledError

/-- `task.cancel()` on a waiting task: it cancels the future the task awaits. -/
def cancelWaiter (waiter future : ℕ) (c : Coordinator) : Coordinator :=
  { c with
    waiters := c.waiters.modify waiter fun w => { w with cancelRequested := true }
    futures := c.futures.modify future Future.cancel }

/-! ## The queue overview -/

structure GroupCounts where
  queuedRuns : ℕ := 0
  runningRuns : ℕ := 0
  activeRunId : Option String := none
  activeBackend : Option String := none
  deriving DecidableEq

/-- One turn of the loop over `_run_requests`. -/
def countRun (c : Coordinator) (groups : Dict String GroupCounts)
    (entry : String × ExecutionRequest) : Dict String GroupCounts :=
  let current := groups.getD entry.2.groupFolder {}
  match c.statuses.get? entry.1 with
  | some .queued =>
    groups.insert entry.2.groupFolder { current with queuedRuns := current.queuedRuns + 1 }
  | some .running =>
    groups.insert entry.2.groupFolder
      { current with
        runningRuns := current.runningRuns + 1
        activeRunId := some entry.1
        activeBackend := (c.runSnapshots.get? entry.1).bind ExecutionRunSnapshot.backend }
  | _ => groups

def getMonitorQueueSnapshot (c : Coordinator) : List MonitorQueueGroupSnapshot :=
  let groups := c.runRequests.items.foldl c.countRun ∅
  (groups.items.mergeSort fun a b => a.1 ≤ b.1).map fun (groupId, values) =>
    { groupId
      queuedRuns := values.queuedRuns
      runningRuns := values.runningRuns
      activeRunId := values.activeRunId
      activeBackend := values.activeBackend }

/-- `get_status`. -/
def getStatus (c : Coordinator) (runId : String) : Option ExecutionStatus := c.statuses.get? runId

def getRunSnapshot (c : Coordinator) (runId : String) : Option ExecutionRunSnapshot :=
  c.runSnapshots.get? runId

/-- `list_run_snapshots`: newest first. -/
def listRunSnapshots (c : Coordinator) (limit : ℕ) : List ExecutionRunSnapshot :=
  ((c.runSnapshots.items.map Prod.snd).mergeSort fun a b => b.createdAt ≤ a.createdAt).take limit

end Coordinator

end Portex
