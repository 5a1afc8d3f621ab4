import Portex.Coordinator.SessionStore

/-!
# The state of the execution coordinator

`services/execution_coordinator.py`: its requests, results and snapshots, the maps of
`ExecutionCoordinator`, and the asyncio objects they refer to. A worker task, an execution task
and a future are objects of their own, named by allocation number; a worker stops at the `await`
of its execution task, an execution task at the `await` of `backend.execute`.

## Main definitions

* `ExecutionRequest`, `ExecutionResult`, `ExecutionRunSnapshot`: the data of a run
* `Worker`, `Execution`, `Future`, `Waiter`: the tasks and futures
* `Config`: the policy, the backends and the id sources a coordinator is built with
* `Coordinator`: the whole state
-/

namespace Portex

open Foundation

inductive ExecutionSource
  | web | im | scheduled
  deriving DecidableEq

inductive ExecutionStatus
  | queued | running | completed | failed | cancelled | timeout
  deriving DecidableEq

structure ExecutionRequest where
  groupFolder : String
  chatJid : String
  userId : String
  prompt : String
  source : ExecutionSource
  slotId : String := "main"
  requestedMode : Option String := none
  timeoutMs : Option Int := none
  freshSession : Bool := false
  requestId : Option String := none
  deriving DecidableEq

structure ExecutionHandle where
  runId : String
  groupFolder : String
  status : ExecutionStatus
  deriving DecidableEq

structure ExecutionResult where
  runId : String
  status : ExecutionStatus
  groupFolder : String
  backend : String
  sessionId : String
  slotId : String := "main"
  finalOutput : Option String := none
  error : Option String := none
  timeoutMs : Option Int := none
  deriving DecidableEq

structure ExecutionRunSnapshot where
  runId : String
  groupFolder : String
  chatJid : String
  userId : String
  source : ExecutionSource
  requestedMode : Option String
  status : ExecutionStatus
  slotId : String := "main"
  backend : Option String := none
  sessionId : Option String := none
  createdAt : ℕ
  startedAt : Option ℕ := none
  finishedAt : Option ℕ := none
  finalOutput : Option String := none
  error : Option String := none
  timeoutMs : Option Int := none
  recoveryAttempted : Bool := false
  recoveryReason : Option String := none
  recoverySucceeded : Option Bool := none
  deriving DecidableEq

structure MonitorQueueGroupSnapshot where
  groupId : String
  queuedRuns : ℕ
  runningRuns : ℕ
  activeRunId : Option String := none
  activeBackend : Option String := none
  deriving DecidableEq

/-! ## Futures and tasks -/

inductive FutureState
  | pending
  | resolved (result : ExecutionResult)
  | cancelled
  deriving DecidableEq

/-- The future that `submit_execution` creates for a run. -/
structure Future where
  runId : String
  state : FutureState := .pending
  deriving DecidableEq

/-- `future.set_result`, skipped on a future that is done. -/
def Future.setResult (result : ExecutionResult) (future : Future) : Future :=
  match future.state with
  | .pending => { future with state := .resolved result }
  | _ => future

/-- `future.cancel`, without effect on a future that is done. -/
def Future.cancel (future : Future) : Future :=
  match future.state with
  | .pending => { future with state := .cancelled }
  | _ => future

@[simp] theorem Future.runId_setResult (result : ExecutionResult) (future : Future) :
    (future.setResult result).runId = future.runId := by
  unfold Future.setResult
  split <;> rfl

@[simp] theorem Future.runId_cancel (future : Future) : future.cancel.runId = future.runId := by
  unfold Future.cancel
  split <;> rfl

theorem Future.cancel_of_done {future : Future} (h : future.state ≠ .pending) :
    future.cancel = future := by
  unfold Future.cancel
  split
  · exact absurd ‹_› h
  · rfl

theorem Future.state_cancel {future : Future} (h : future.state = .pending) :
    future.cancel.state = .cancelled := by
  unfold Future.cancel
  rw [h]

/-- How an execution task ended. -/
inductive Outcome
  | returned (result : ExecutionResult)
  | cancelledError
  | raised (message : String)
  deriving DecidableEq

inductive ExecutionPhase
  /-- The task was created and has not run yet. -/
  | created
  /-- Suspended in the first `backend.execute`. -/
  | executing
  /-- Suspended in the second one, after a failed session resume. -/
  | retrying (sessionId : String)
  | done (outcome : Outcome)
  deriving DecidableEq

/-- The task that runs `_execute_backend_with_lifecycle`, with its arguments. -/
structure Execution where
  request : ExecutionRequest
  runId : String
  backendName : String
  workspaceKey : String
  sessionId : String
  phase : ExecutionPhase := .created
  cancelRequested : Bool := false
  deriving DecidableEq

/-- The task is suspended in `backend.execute`. -/
def Execution.InFlight (execution : Execution) : Prop :=
  execution.phase = .executing ∨ ∃ sessionId, execution.phase = .retrying sessionId

def Execution.IsDone (execution : Execution) : Prop := ∃ outcome, execution.phase = .done outcome

/-- `task.cancel()`, without effect on a task that is done. -/
def Execution.cancel (execution : Execution) : Execution :=
  match execution.phase with
  | .done _ => execution
  | _ => { execution with cancelRequested := true }

theorem Execution.InFlight.undone {execution : Execution} (h : execution.InFlight) :
    ¬ execution.IsDone := by
  rintro ⟨outcome, hdone⟩
  rcases h with h | ⟨_, h⟩ <;> rw [hdone] at h <;> cases h

namespace Execution

variable (execution : Execution)

@[simp] theorem runId_cancel : execution.cancel.runId = execution.runId := by
  unfold cancel
  split <;> rfl

@[simp] theorem request_cancel : execution.cancel.request = execution.request := by
  unfold cancel
  split <;> rfl

@[simp] theorem phase_cancel : execution.cancel.phase = execution.phase := by
  unfold cancel
  split <;> rfl

@[simp] theorem backendName_cancel : execution.cancel.backendName = execution.backendName := by
  unfold cancel
  split <;> rfl

theorem cancel_of_done (h : execution.IsDone) : execution.cancel = execution := by
  obtain ⟨outcome, h⟩ := h
  unfold cancel
  rw [h]

end Execution

inductive WorkerPhase
  /-- The task was created and has not run yet. -/
  | scheduled
  /-- The task whose code is running. -/
  | active
  /-- Suspended in `_execute_request`, at the `await` of an execution task. -/
  | awaiting (runId : String) (request : ExecutionRequest) (execution : ℕ)
  | finished
  /-- Ended by a `CancelledError` that `_execute_request` raised again. -/
  | crashed
  deriving DecidableEq

/-- The task that runs `_run_group_queue`. -/
structure Worker where
  groupFolder : String
  phase : WorkerPhase := .scheduled
  deriving DecidableEq

def WorkerPhase.done : WorkerPhase → Bool
  | .finished | .crashed => true
  | _ => false

inductive WaiterState
  | waiting
  | returned (result : ExecutionResult)
  | cancelledError
  deriving DecidableEq

/-- A task that called `wait_for_run` and waits on the future of the run. -/
structure Waiter where
  runId : String
  future : Option ℕ
  state : WaiterState := .waiting
  /-- The task itself was cancelled. -/
  cancelRequested : Bool := false
  deriving DecidableEq

/-! ## The coordinator -/

/-- What a coordinator is built with. `uuidHex n` is the head of the `n`-th uuid drawn. -/
structure Config where
  selectBackend : ExecutionRequest → Except String String
  backends : List String
  resolveWorkspaceKey : String → String → String := buildSlotWorkspaceKey
  uuidHex : ℕ → String
  newSessionId : ℕ → String → String := fun n workspaceKey => workspaceKey ++ ":" ++ uuidHex n
  maxCompletedRuns : ℕ := 256

/-- A call of `backend.execute`. -/
structure BackendCall where
  runId : String
  request : ExecutionRequest
  sessionId : String
  retry : Bool
  deriving DecidableEq

/-- What the outside has seen of the coordinator so far, in order. -/
structure History where
  submitted : List (String × ExecutionRequest) := []
  /-- The runs marked as running. -/
  started : List (String × ExecutionRequest) := []
  calls : List BackendCall := []
  /-- The accepted cancels, with the status they found. -/
  cancelled : List (String × ExecutionStatus) := []
  /-- The runs that committed a session. -/
  committed : List String := []
  stored : List ExecutionResult := []

structure Coordinator where
  groupQueues : Dict String (List (String × ExecutionRequest)) := ∅
  groupWorkers : Dict String ℕ := ∅
  runFutures : Dict String ℕ := ∅
  runRequests : Dict String ExecutionRequest := ∅
  statuses : Dict String ExecutionStatus := ∅
  runningBackends : Dict String String := ∅
  runningTasks : Dict String ℕ := ∅
  runSessionIds : Dict String String := ∅
  cancelledRunIds : List String := []
  completedResults : Dict String ExecutionResult := ∅
  completedOrder : List String := []
  runSnapshots : Dict String ExecutionRunSnapshot := ∅
  workspaceSessionStore : WorkspaceSessionStore := {}
  futures : Heap Future := ∅
  workers : Heap Worker := ∅
  executions : Heap Execution := ∅
  waiters : Heap Waiter := ∅
  /-- The number of uuids drawn. -/
  draws : ℕ := 0
  /-- The clock. -/
  now : ℕ := 0
  history : History := {}

namespace Coordinator

/-- The pending deque of a group. -/
def queue (c : Coordinator) (groupFolder : String) : List (String × ExecutionRequest) :=
  c.groupQueues.getD groupFolder []

/-- The runs with a stored terminal result. -/
def storedIds (c : Coordinator) : List String := c.history.stored.map ExecutionResult.runId

end Coordinator

end Portex
