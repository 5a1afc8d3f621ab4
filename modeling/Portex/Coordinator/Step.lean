import Portex.Coordinator.Operations
import Portex.Foundation.Transition

/-!
# The coordinator under the event loop

What a task does between two suspension points is one action, and any order of enabled actions is
a run: the event loop's own order is one of them.

## Main definitions

* `Coordinator.Action`, `Coordinator.step`: the actions and what they do
* `Ending.Conforming`: the answers the backends of the repository give
* `Coordinator.Ordinary`: each submission has a run id of its own, and backends conform
* `Coordinator.Timely`: cancels and completions do not cross
* `Config.sample`, `ExecutionRequest.sample`: for the traces
-/

namespace Portex

open Foundation

/-- A coordinator with one backend, which keeps sessions. -/
def Config.sample : Config where
  selectBackend _ := .ok "openai_runtime"
  backends := ["openai_runtime"]
  uuidHex _ := "0a1b2c3d"

/-- A request of the group `home`. -/
def ExecutionRequest.sample (requestId : String) : ExecutionRequest where
  groupFolder := "home"
  chatJid := "web:home"
  userId := "alice"
  prompt := "hello"
  source := .web
  requestId := some requestId

namespace Coordinator

inductive Action
  | submit (request : ExecutionRequest) (uuid : String)
  | cancel (runId : String)
  /-- A worker task takes its next step. -/
  | worker (worker : ℕ)
  /-- An execution task takes its first step. -/
  | execution (task : ℕ)
  /-- The `backend.execute` that an execution task awaits ends. -/
  | backendEnds (task : ℕ) (ending : Ending)
  | wait (runId : String)
  /-- A waiting task resumes. -/
  | waiter (waiter : ℕ)
  /-- A waiting task is cancelled. -/
  | cancelWaiter (waiter : ℕ)
  /-- Time passes. -/
  | tick
  deriving DecidableEq

def workerStep (cfg : Config) (worker : ℕ) (c : Coordinator) : Option Coordinator :=
  match c.workers.get? worker with
  | some { groupFolder, phase := .scheduled } =>
    let c := c.setWorkerPhase worker .active
    some (drainQueue cfg worker groupFolder (c.queue groupFolder) c)
  | some { groupFolder, phase := .awaiting runId request task } =>
    match (c.executions.get? task).map Execution.phase with
    | some (.done outcome) =>
      match (c.setWorkerPhase worker .active).collect cfg runId request outcome with
      | some c => some (drainQueue cfg worker groupFolder (c.queue groupFolder) c)
      | none => some ((c.forgetRunning runId).setWorkerPhase worker .crashed)
    | _ => none
  | _ => none

def executionStep (task : ℕ) (c : Coordinator) : Option Coordinator :=
  match c.executions.get? task with
  | none => none
  | some execution =>
    match execution.phase with
    | .created => some (c.startExecution task execution)
    | _ => none

def backendEndsStep (cfg : Config) (task : ℕ) (ending : Ending) (c : Coordinator) :
    Option Coordinator :=
  match c.executions.get? task with
  | none => none
  | some execution =>
    match execution.phase with
    | .executing => some (c.resumeExecuting cfg task execution ending)
    | .retrying retrySessionId => some (c.resumeRetrying task execution retrySessionId ending)
    | _ => none

/-- The future a task waits on, while it waits. -/
def awaitedFuture (waiter : ℕ) (c : Coordinator) : Option ℕ :=
  match c.waiters.get? waiter with
  | some w => if w.state = .waiting then w.future else none
  | none => none

def waiterStep (waiter : ℕ) (c : Coordinator) : Option Coordinator := do
  let future ← c.awaitedFuture waiter
  let w ← c.waiters.get? waiter
  let f ← c.futures.get? future
  c.resumeWaiter waiter w f

def step (cfg : Config) (c : Coordinator) : Action → Option Coordinator
  | .submit request uuid => some (c.submitExecution request uuid).2
  | .cancel runId => some (c.cancel cfg runId).2
  | .worker worker => c.workerStep cfg worker
  | .execution task => c.executionStep task
  | .backendEnds task ending => c.backendEndsStep cfg task ending
  | .wait runId => some (c.waitForRun runId)
  | .waiter waiter => c.waiterStep waiter
  | .cancelWaiter waiter => (c.awaitedFuture waiter).map fun future => c.cancelWaiter waiter future
  | .tick => some { c with now := c.now + 1 }

/-! ## Conditions on a step -/

/-- What `OpenAIRuntimeBackend`, `HostProcessBackend` and `ContainerBackend` answer with: a dict
whose status is absent or terminal, an exception, or a `CancelledError`. -/
def Ending.Conforming : Ending → Prop
  | .dict raw => raw.status ∈ [none, some .completed, some .failed, some .timeout]
  | .executionResult _ | .malformed _ => False
  | .timeoutError | .runtimeError _ _ | .exception _ | .cancelledError => True

instance : DecidablePred Ending.Conforming
  | .dict raw => inferInstanceAs (Decidable (raw.status ∈ _))
  | .executionResult _ | .malformed _ => inferInstanceAs (Decidable False)
  | .timeoutError | .runtimeError _ _ | .exception _ | .cancelledError =>
    inferInstanceAs (Decidable True)

/-- Every submission has a run id of its own, as its callers see to by drawing it from a uuid,
and backends conform. -/
def Ordinary (c : Coordinator) : Action → Prop
  | .submit request uuid => runIdOf request uuid ∉ c.history.submitted.map Prod.fst
  | .backendEnds _ ending => ending.Conforming
  | _ => True

/-- The execution task was cancelled: `coordinator.cancel` is all that does so. -/
def CancelRequested (c : Coordinator) (task : ℕ) : Prop :=
  (c.executions.get? task).any Execution.cancelRequested = true

instance (c : Coordinator) : DecidablePred c.CancelRequested := fun task =>
  inferInstanceAs (Decidable ((c.executions.get? task).any Execution.cancelRequested = true))

instance (c : Coordinator) : DecidablePred c.Ordinary
  | .submit request uuid =>
    inferInstanceAs (Decidable (runIdOf request uuid ∉ c.history.submitted.map Prod.fst))
  | .backendEnds _ ending => inferInstanceAs (Decidable ending.Conforming)
  | .cancel _ | .worker _ | .execution _ | .wait _ | .waiter _ | .cancelWaiter _ | .tick =>
    inferInstanceAs (Decidable True)

/-- The task completed its run, and so committed the session. -/
def Execution.hasCommitted (execution : Execution) : Bool :=
  usesWorkspaceSession execution.backendName && match execution.phase with
    | .done (.returned result) => result.status == .completed
    | _ => false

/-- The run has committed its session, and its worker has not stored the result yet. -/
def HasCommitted (c : Coordinator) (runId : String) : Prop :=
  ((c.runningTasks.get? runId).bind c.executions.get?).any Execution.hasCommitted = true

/-- The backend answers that the run completed. -/
def Ending.completes : Ending → Bool
  | .dict raw => raw.status.getD .completed == .completed
  | _ => false

/-- No running run is cancelled after it committed its session, and no run completes, and so
commits its session, after it was cancelled. -/
def Timely (c : Coordinator) : Action → Prop
  | .cancel runId => c.statuses.get? runId = some .running → ¬ c.HasCommitted runId
  | .backendEnds task ending => ending.completes = true → ∀ execution ∈ c.executions.get? task,
    usesWorkspaceSession execution.backendName = true → execution.runId ∉ c.cancelledRunIds
  | _ => True

instance (c : Coordinator) : DecidablePred c.HasCommitted := fun _ =>
  inferInstanceAs (Decidable (_ = true))

instance (c : Coordinator) : DecidablePred c.Timely
  | .cancel runId =>
    inferInstanceAs (Decidable (c.statuses.get? runId = some .running → ¬ c.HasCommitted runId))
  | .backendEnds task ending =>
    inferInstanceAs (Decidable (ending.completes = true → ∀ execution ∈ c.executions.get? task,
      usesWorkspaceSession execution.backendName = true → execution.runId ∉ c.cancelledRunIds))
  | .submit _ _ | .worker _ | .execution _ | .wait _ | .waiter _ | .cancelWaiter _ | .tick =>
    inferInstanceAs (Decidable True)

end Coordinator

end Portex
