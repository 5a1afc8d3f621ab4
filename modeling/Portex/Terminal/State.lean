import Portex.Foundation.Dict

/-!
# The state of the terminal session service

`services/terminal_sessions.py`: the records and managed sessions, the two maps of
`TerminalSessionService`, and the asyncio objects they refer to. Bridges, output queues, tasks and
persist jobs are objects of their own, named by allocation number. The sections under the lock
contain no `await`, so what a call does between two of its `await`s is one step.

## Main definitions

* `TerminalSessionRecord`, `TerminalSessionHistorySnapshot`: the data of a session
* `ManagedTerminalSession`, `TerminalBridge`: a session in memory, and its shell
* `TaskPhase`, `Task`: the calls of the service and the expiry timers, where they are suspended
* `Connection`: the terminal websockets of `app/routes/terminals.py`
* `TerminalSessionService`: the whole state
-/

namespace Portex

open Foundation

inductive TerminalRequestedMode
  | openai | host | container
  deriving DecidableEq

inductive TerminalBackendName
  | dockerContainer
  deriving DecidableEq

inductive TerminalSessionStatus
  | created | attached | detached | closed | exited
  deriving DecidableEq

namespace TerminalSessionStatus

/-- `{"closed", "exited"}`, the statuses of `_TERMINAL_ARCHIVE_STATUSES`. -/
def isTerminal : TerminalSessionStatus → Bool
  | closed | exited => true
  | created | attached | detached => false

/-- `_ACTIVE_RECOVERABLE_STATUSES`. -/
def isRecoverable (status : TerminalSessionStatus) : Bool := !status.isTerminal

end TerminalSessionStatus

inductive TerminalSessionError
  | backendDisabled | backendUnsupported | conflict | notFound | ownership
  /-- What the bridge factory, `bridge.start` or `bridge.close` raised. -/
  | bridge (message : String)
  deriving DecidableEq

inductive TerminalSessionEvent
  | output (data : Option String)
  | exit (exitCode : Option Int)
  | error (error : Option String)
  deriving DecidableEq

inductive TerminalBridgeEventType
  | output | exit | error
  | other (name : String)
  deriving DecidableEq

structure TerminalBridgeEvent where
  type : TerminalBridgeEventType
  data : Option String := none
  exitCode : Option Int := none
  error : Option String := none
  deriving DecidableEq

structure TerminalSessionRecord where
  sessionId : String
  groupId : String
  groupFolder : String
  ownerUserId : String
  backend : TerminalBackendName := .dockerContainer
  containerName : Option String := none
  status : TerminalSessionStatus
  createdAt : ℕ
  lastAttachedAt : Option ℕ := none
  reconnectDeadline : Option ℕ := none
  deriving DecidableEq

structure TerminalSessionHistorySnapshot where
  record : TerminalSessionRecord
  snapshotAt : ℕ
  output : String
  outputBytes : ℕ
  historyMaxBytes : ℕ
  truncated : Bool
  deriving DecidableEq

/-- `_ManagedTerminalSession`: a record and the objects it goes with. -/
structure ManagedTerminalSession where
  record : TerminalSessionRecord
  bridge : Option ℕ := none
  outputQueue : Option ℕ := none
  reconnectTask : Option ℕ := none
  outputHistoryChunks : List String := []
  outputHistoryBytes : ℕ := 0
  outputHistoryTruncated : Bool := false
  deriving DecidableEq

structure TerminalBridge where
  sessionId : String
  /-- `start` has completed. -/
  started : Bool := false
  /-- `close` was called, and `start` did not complete after it. -/
  closed : Bool := false
  deriving DecidableEq

/-! ## Calls and timers -/

inductive Answer
  | record (record : TerminalSessionRecord)
  | attached (record : TerminalSessionRecord) (queue : ℕ)
  | nothing
  deriving DecidableEq

/-- What a call does after it awaited the persistence of its snapshot. -/
inductive Continuation
  /-- `return self.get_current_session(group_folder) or record`. -/
  | created (groupFolder : String) (record : TerminalSessionRecord)
  | attached (record : TerminalSessionRecord) (queue : ℕ)
  | detached (record : TerminalSessionRecord)
  /-- `return managed.record`. -/
  | closed (session : ℕ)
  /-- `await queue.put(event)`. -/
  | put (queue : Option ℕ) (event : TerminalSessionEvent)
  | expired
  | raise (error : TerminalSessionError)
  deriving DecidableEq

inductive TaskPhase
  /-- `create_session` awaits `bridge.start`. -/
  | startingNew (groupFolder : String) (record : TerminalSessionRecord) (bridge : ℕ)
  /-- `attach_session` awaits `bridge.start`. -/
  | startingAgain (record : TerminalSessionRecord) (queue bridge : ℕ)
      (snapshot : TerminalSessionHistorySnapshot)
  /-- A close awaits `bridge.close`. -/
  | closingBridge (snapshot : TerminalSessionHistorySnapshot) (next : Continuation)
  /-- The call awaits a persist job. -/
  | persisting (job : ℕ) (next : Continuation)
  /-- `_expire_detached_session` sleeps. -/
  | sleeping (sessionId : String) (deadline : ℕ)
  | returned (answer : Answer)
  | raised (error : TerminalSessionError)
  | cancelled
  deriving DecidableEq

def TaskPhase.isDone : TaskPhase → Bool
  | returned _ | raised _ | cancelled => true
  | _ => false

/-- A call of the service, or an expiry timer. -/
structure Task where
  phase : TaskPhase
  cancelRequested : Bool := false
  deriving DecidableEq

/-- `task.cancel()`, without effect on a task that is done. -/
def Task.cancel (task : Task) : Task :=
  if task.phase.isDone then task else { task with cancelRequested := true }

/-- A call of `_persist_history_snapshot` in another thread. -/
structure PersistJob where
  snapshot : TerminalSessionHistorySnapshot
  done : Bool := false
  deriving DecidableEq

/-- A terminal websocket: the call of `attach_session` it waited for, and whether it has left. -/
structure Connection where
  sessionId : String
  ownerUserId : String
  attachCall : ℕ
  queue : ℕ
  left : Bool := false
  deriving DecidableEq

/-- What happened to the sessions, in order. -/
inductive HistoryEntry
  | attached (connection : ℕ) (sessionId : String)
  | left (connection : ℕ)
  /-- The session was closed, or exited. -/
  | ended (sessionId : String)
  deriving DecidableEq

structure TerminalSessionService where
  reconnectTimeoutSeconds : ℕ := 30
  historyMaxBytes : ℕ := 32768
  sessionsByGroup : Dict String ℕ := ∅
  sessionsById : Dict String ℕ := ∅
  sessions : Heap ManagedTerminalSession := ∅
  bridges : Heap TerminalBridge := ∅
  queues : Heap (List TerminalSessionEvent) := ∅
  tasks : Heap Task := ∅
  jobs : Heap PersistJob := ∅
  connections : Heap Connection := ∅
  /-- The clock. -/
  now : ℕ := 0
  /-- The snapshots written, in order. -/
  written : List TerminalSessionHistorySnapshot := []
  history : List HistoryEntry := []

namespace TerminalSessionService

variable (s : TerminalSessionService)

/-- The session of an id, with its number. -/
def session (sessionId : String) : Option (ℕ × ManagedTerminalSession) :=
  (s.sessionsById.get? sessionId).bind fun i => (s.sessions.get? i).map fun managed => (i, managed)

def sessionOfGroup (groupFolder : String) : Option (ℕ × ManagedTerminalSession) :=
  (s.sessionsByGroup.get? groupFolder).bind fun i =>
    (s.sessions.get? i).map fun managed => (i, managed)

/-- The record of a session id. -/
def record (sessionId : String) : Option TerminalSessionRecord :=
  (s.session sessionId).map fun entry => entry.2.record

end TerminalSessionService

end Portex
