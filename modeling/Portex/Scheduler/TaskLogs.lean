import Portex.Coordinator.Completed
import Portex.Foundation.Entries
import Portex.Foundation.SortKey

/-!
# The executions of tasks and their logs

`TaskService._execute_task` of `services/task_service.py` asks the coordinator for a run of a task,
waits for it, and records what came of it with `TaskLogService`. Any number of executions go on at a
time on one coordinator.

## Main definitions

* `TaskLogService.recordLog`, `TaskLogService.listLogs`: the logs
* `coerceExecutionResult`: what a result is for a task
* `TaskCall`, `TaskCallPhase`: an execution
* `TaskRuns`, `TaskRuns.step`: the executions, the coordinator and the logs
-/

namespace Portex

open Foundation

/-! ## Logs -/

inductive TaskLogStatus
  | success | error | timeout
  deriving DecidableEq

structure TaskRunLog where
  id : ℕ
  taskId : String
  /-- In microseconds of UTC. -/
  runAt : ℤ
  durationMs : ℕ
  status : TaskLogStatus
  result : Option String
  error : Option String
  deriving DecidableEq

structure TaskLogService where
  nextId : ℕ := 1
  logsByTaskId : Dict String (List TaskRunLog) := ∅

/-- What came of an execution. -/
structure TaskOutcome where
  status : TaskLogStatus
  result : Option String := none
  error : Option String := none
  deriving DecidableEq

namespace TaskLogService

variable (service : TaskLogService)

def logsOf (taskId : String) : List TaskRunLog := service.logsByTaskId.getD taskId []

/-- The log that `record_log` makes. -/
def newLog (taskId : String) (runAt : ℤ) (durationMs : ℕ) (outcome : TaskOutcome) :
    TaskRunLog where
  id := service.nextId
  taskId := taskId
  runAt := runAt
  durationMs := durationMs
  status := outcome.status
  result := outcome.result
  error := outcome.error

/-- `record_log`. -/
def recordLog (log : TaskRunLog) : TaskLogService where
  nextId := service.nextId + 1
  logsByTaskId := service.logsByTaskId.insert log.taskId (service.logsOf log.taskId ++ [log])

/-- `list_logs`: the keys are sorted in reverse. -/
def listLogs (taskId : String) (limit : ℕ) : List TaskRunLog :=
  (sortedBy (fun log => OrderDual.toDual (toLex (log.runAt, log.id)))
    (service.logsOf taskId)).take limit

end TaskLogService

/-! ## Executions -/

/-- What the executor reads of a `ScheduledTask`. -/
structure TaskOrder where
  id : String
  groupFolder : String
  chatJid : String
  prompt : String
  executionMode : Option String := none
  deriving DecidableEq

/-- The request of `_execute_via_coordinator`. -/
def taskRequest (task : TaskOrder) (uuid : String) : ExecutionRequest where
  groupFolder := task.groupFolder
  chatJid := task.chatJid
  userId := "scheduled-task"
  prompt := task.prompt
  source := .scheduled
  requestedMode := task.executionMode
  requestId := some (task.id ++ "-" ++ uuid)

/-- `value or default`. -/
def orDefault (value : Option String) (default : String) : String :=
  match value with
  | some text => if text = "" then default else text
  | none => default

/-- `_coerce_execution_result`, with what `_execute_task` makes of what it returns or raises. -/
def coerceExecutionResult (result : ExecutionResult) : TaskOutcome :=
  match result.status with
  | .completed => { status := .success, result := result.finalOutput }
  | .timeout => { status := .timeout, error := some (orDefault result.error "execution timed out") }
  | .cancelled => { status := .error, error := some (orDefault result.error "cancelled") }
  | _ => { status := .error, error := some (orDefault result.error "execution failed") }

inductive TaskCallPhase
  | started
  | submitted (runId : String)
  | waiting (runId : String) (waiter : ℕ)
  | logged (log : TaskRunLog) (runId : Option String)
  /-- A `CancelledError`, which `except Exception` does not catch. -/
  | cancelled (runId : String)
  deriving DecidableEq

/-- A call of `_execute_task`. -/
structure TaskCall where
  task : TaskOrder
  /-- In microseconds of UTC. -/
  runAt : ℤ
  phase : TaskCallPhase := .started
  deriving DecidableEq

/-- The run of a call. -/
def TaskCall.runId? (call : TaskCall) : Option String :=
  match call.phase with
  | .started => none
  | .submitted runId | .waiting runId _ | .cancelled runId => some runId
  | .logged _ runId => runId

/-- The log of a call for a task. -/
def TaskCall.logFor (taskId : String) (call : TaskCall) : Option TaskRunLog :=
  match call.phase with
  | .logged log _ => if call.task.id = taskId then some log else none
  | _ => none

structure TaskRuns where
  coordinator : Coordinator := {}
  calls : Heap TaskCall := ∅
  logs : TaskLogService := {}

namespace TaskRuns

inductive Action
  | start (task : TaskOrder) (runAt : ℤ)
  | submit (call : ℕ) (uuid : String)
  /-- The task waits, or `wait_for_run` raises a `KeyError` after so many milliseconds. -/
  | wait (call : ℕ) (durationMs : ℕ)
  /-- The task goes on after so many milliseconds. -/
  | resume (call : ℕ) (durationMs : ℕ)
  /-- There is no coordinator to be had. -/
  | fail (call : ℕ) (durationMs : ℕ) (error : String)
  /-- Anything else that happens to the coordinator. -/
  | coordinate (action : Coordinator.Action)
  deriving DecidableEq

def setCall (i : ℕ) (call : TaskCall) (s : TaskRuns) : TaskRuns :=
  { s with calls := s.calls.modify i fun _ => call }

/-- The log of a call is recorded. -/
def record (i : ℕ) (call : TaskCall) (runId : Option String) (durationMs : ℕ)
    (outcome : TaskOutcome) (s : TaskRuns) : TaskRuns :=
  let log := s.logs.newLog call.task.id call.runAt durationMs outcome
  { s with logs := s.logs.recordLog log }.setCall i { call with phase := .logged log runId }

def submit (i : ℕ) (call : TaskCall) (uuid : String) (s : TaskRuns) : TaskRuns :=
  let (handle, coordinator) := s.coordinator.submitExecution (taskRequest call.task uuid) uuid
  { s with coordinator }.setCall i { call with phase := .submitted handle.runId }

/-- What `str` makes of the `KeyError` of a run. -/
def unknownRun (runId : String) : TaskOutcome where
  status := .error
  error := some ("'" ++ runId ++ "'")

def wait (i : ℕ) (call : TaskCall) (runId : String) (durationMs : ℕ) (s : TaskRuns) : TaskRuns :=
  let coordinator := s.coordinator.waitForRun runId
  if coordinator.waiters.size = s.coordinator.waiters.size then
    { s with coordinator }.record i call (some runId) durationMs (unknownRun runId)
  else
    { s with coordinator }.setCall i
      { call with phase := .waiting runId s.coordinator.waiters.size }

def resume (i : ℕ) (call : TaskCall) (runId : String) (waiter durationMs : ℕ) (s : TaskRuns) :
    Option TaskRuns :=
  match (s.coordinator.waiters.get? waiter).map Waiter.state with
  | some (.returned result) =>
    some (s.record i call (some runId) durationMs (coerceExecutionResult result))
  | some .cancelledError => some (s.setCall i { call with phase := .cancelled runId })
  | _ => none

/-- The actions of a call. -/
def advance (i : ℕ) (call : TaskCall) (s : TaskRuns) : Action → Option TaskRuns
  | .submit _ uuid =>
    match call.phase with
    | .started => some (s.submit i call uuid)
    | _ => none
  | .wait _ durationMs =>
    match call.phase with
    | .submitted runId => some (s.wait i call runId durationMs)
    | _ => none
  | .resume _ durationMs =>
    match call.phase with
    | .waiting runId waiter => s.resume i call runId waiter durationMs
    | _ => none
  | .fail _ durationMs error =>
    match call.phase with
    | .started => some (s.record i call none durationMs { status := .error, error := some error })
    | _ => none
  | .start _ _ | .coordinate _ => none

/-- The call that an action is of. -/
def Action.call? : Action → Option ℕ
  | .start _ _ | .coordinate _ => none
  | .submit i _ | .wait i _ | .resume i _ | .fail i _ _ => some i

def step (cfg : Config) (s : TaskRuns) (a : Action) : Option TaskRuns :=
  match a with
  | .start task runAt => some { s with calls := s.calls.alloc { task, runAt } }
  | .coordinate action =>
    (s.coordinator.step cfg action).map fun coordinator => { s with coordinator }
  | a => do
    let i ← a.call?
    let call ← s.calls.get? i
    s.advance i call a

/-- Run ids are new, and backends conform. -/
def Fresh (s : TaskRuns) : Action → Prop
  | .submit i uuid => ∀ call ∈ s.calls.get? i,
    call.task.id ++ "-" ++ uuid ∉ s.coordinator.submittedIds
  | .coordinate action => s.coordinator.Ordinary action
  | _ => True

instance (s : TaskRuns) : DecidablePred s.Fresh
  | .submit i _ => inferInstanceAs (Decidable (∀ call ∈ s.calls.get? i, _ ∉ _))
  | .coordinate action => inferInstanceAs (Decidable (s.coordinator.Ordinary action))
  | .start _ _ | .wait _ _ | .resume _ _ | .fail _ _ _ => inferInstanceAs (Decidable True)

end TaskRuns

end Portex
