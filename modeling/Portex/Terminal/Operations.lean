import Portex.Terminal.State

/-!
# The operations of the terminal session service

The methods of `TerminalSessionService`, each as a function of the state. A call answers with the
phase it is suspended in: it awaits `bridge.start`, `bridge.close` or the thread that writes its
snapshot, or it is done. What it does after the await is `resume`.

## Main definitions

* `createSession`, `attachSession`, `detachSession`, `closeSession`, `closeSessionByGroup`,
  `forceCloseSessionByGroup`: the public coroutines, up to their first await
* `handleBridgeEvent`: the callback of a bridge
* `expireDetachedSession`: the expiry timer after its sleep
* `resume`: a suspended call after its await
* `recoverActiveSessions`: the service after a restart
-/

namespace Portex

open Foundation

/-- A session after `attach_session` gave it a new output queue. -/
def ManagedTerminalSession.attach (managed : ManagedTerminalSession) (queue now : ℕ) :
    ManagedTerminalSession :=
  { managed with
    outputQueue := some queue
    reconnectTask := none
    record := { managed.record with
      status := .attached, lastAttachedAt := some now, reconnectDeadline := none } }

/-- A session after `close_session`. -/
def ManagedTerminalSession.close (managed : ManagedTerminalSession) : ManagedTerminalSession :=
  { managed with
    outputQueue := none
    reconnectTask := none
    record := { managed.record with status := .closed, reconnectDeadline := none } }

/-- A session after its expiry. -/
def ManagedTerminalSession.expire (managed : ManagedTerminalSession) : ManagedTerminalSession :=
  { managed with record := { managed.record with status := .closed, reconnectDeadline := none } }

namespace TerminalSessionService

/-! ## Lookups -/

def resolveBackend : TerminalRequestedMode → Except TerminalSessionError TerminalBackendName
  | .container => .ok .dockerContainer
  | .host => .error .backendDisabled
  | .openai => .error .backendUnsupported

def requireSession (sessionId : String) (s : TerminalSessionService) :
    Except TerminalSessionError (ℕ × ManagedTerminalSession) :=
  match s.session sessionId with
  | none => .error .notFound
  | some entry => .ok entry

def requireOwner (entry : ℕ × ManagedTerminalSession) (ownerUserId : String) :
    Except TerminalSessionError (ℕ × ManagedTerminalSession) :=
  if entry.2.record.ownerUserId ≠ ownerUserId then .error .ownership else .ok entry

/-- `_require_session`, then `_require_owner`. -/
def requireOwned (sessionId ownerUserId : String) (s : TerminalSessionService) :
    Except TerminalSessionError (ℕ × ManagedTerminalSession) :=
  (s.requireSession sessionId).bind fun entry => requireOwner entry ownerUserId

/-! ## Output history and snapshots -/

/-- The `while` loop of `_append_output_history`. -/
def trimOutputHistory (historyMaxBytes : ℕ) : List String → ℕ → Bool → List String × ℕ × Bool
  | [], bytes, truncated => ([], bytes, truncated)
  | removed :: chunks, bytes, truncated =>
    if historyMaxBytes < bytes then
      trimOutputHistory historyMaxBytes chunks (bytes - removed.utf8ByteSize) true
    else (removed :: chunks, bytes, truncated)

def appendOutputHistory (historyMaxBytes : ℕ) (managed : ManagedTerminalSession) (chunk : String) :
    ManagedTerminalSession :=
  if historyMaxBytes = 0 then { managed with outputHistoryChunks := [], outputHistoryBytes := 0 }
  else if chunk = "" then managed
  else
    let (chunks, bytes, truncated) := trimOutputHistory historyMaxBytes
      (managed.outputHistoryChunks ++ [chunk]) (managed.outputHistoryBytes + chunk.utf8ByteSize)
      managed.outputHistoryTruncated
    { managed with
      outputHistoryChunks := chunks
      outputHistoryBytes := bytes
      outputHistoryTruncated := truncated }

def buildHistorySnapshot (managed : ManagedTerminalSession) (s : TerminalSessionService) :
    TerminalSessionHistorySnapshot where
  record := managed.record
  snapshotAt := s.now
  output := String.join managed.outputHistoryChunks
  outputBytes := managed.outputHistoryBytes
  historyMaxBytes := s.historyMaxBytes
  truncated := managed.outputHistoryTruncated

/-- `await self._persist_history_snapshot_best_effort(snapshot)`. -/
def persist (snapshot : TerminalSessionHistorySnapshot) (next : Continuation)
    (s : TerminalSessionService) : TaskPhase × TerminalSessionService :=
  (.persisting s.jobs.size next, { s with jobs := s.jobs.alloc { snapshot } })

/-! ## Sessions -/

/-- The task half of `_cancel_reconnect_task`; the callers clear the field of the session. -/
def cancelReconnectTask (managed : ManagedTerminalSession) (s : TerminalSessionService) :
    TerminalSessionService :=
  match managed.reconnectTask with
  | none => s
  | some task => { s with tasks := s.tasks.modify task Task.cancel }

/-- Assign to the fields of a session object. -/
def setSession (session : ℕ) (managed : ManagedTerminalSession) (s : TerminalSessionService) :
    TerminalSessionService :=
  { s with sessions := s.sessions.modify session fun _ => managed }

/-- Assign to the fields of a session that is closed or has exited thereby. -/
def endSession (session : ℕ) (managed : ManagedTerminalSession) (s : TerminalSessionService) :
    TerminalSessionService :=
  { s.setSession session managed with
    history := s.history ++ [.ended managed.record.sessionId] }

def dropSession (session : ℕ) (managed : ManagedTerminalSession) (s : TerminalSessionService) :
    TerminalSessionService :=
  cancelReconnectTask managed
    { s with
      sessionsByGroup := s.sessionsByGroup.erase managed.record.groupFolder
      sessionsById := s.sessionsById.erase managed.record.sessionId
      sessions := s.sessions.modify session fun managed => { managed with reconnectTask := none } }

/-- `create_session` from the drop of an ended session on. `factory` is what the bridge factory
does: it raises, or makes a bridge with or without a container name. -/
def openSession (groupId groupFolder ownerUserId : String) (backend : TerminalBackendName)
    (sessionId : String) (factory : Except String (Option String)) (s : TerminalSessionService) :
    TaskPhase × TerminalSessionService :=
  match factory with
  | .error message => (.raised (.bridge message), s)
  | .ok containerName =>
    let record : TerminalSessionRecord :=
      { sessionId, groupId, groupFolder, ownerUserId, backend, containerName,
        status := .created, createdAt := s.now }
    (.startingNew groupFolder record s.bridges.size,
      { s with
        bridges := s.bridges.alloc { sessionId }
        sessions := s.sessions.alloc { record, bridge := some s.bridges.size }
        sessionsByGroup := s.sessionsByGroup.insert groupFolder s.sessions.size
        sessionsById := s.sessionsById.insert sessionId s.sessions.size })

/-- `create_session`. `sessionId` is the uuid it draws. -/
def createSession (groupId groupFolder ownerUserId : String)
    (requestedMode : TerminalRequestedMode) (sessionId : String)
    (factory : Except String (Option String)) (s : TerminalSessionService) :
    TaskPhase × TerminalSessionService :=
  match resolveBackend requestedMode with
  | .error error => (.raised error, s)
  | .ok backend =>
    match s.sessionOfGroup groupFolder with
    | none => s.openSession groupId groupFolder ownerUserId backend sessionId factory
    | some (session, existing) =>
      if existing.record.status.isTerminal then
        (s.dropSession session existing).openSession groupId groupFolder ownerUserId backend
          sessionId factory
      else if existing.record.ownerUserId ≠ ownerUserId then (.raised .conflict, s)
      else (.returned (.record existing.record), s)

def getCurrentSession (groupFolder : String) (s : TerminalSessionService) :
    Option TerminalSessionRecord :=
  (s.sessionOfGroup groupFolder).map fun entry => entry.2.record

def attachSession (sessionId ownerUserId : String) (factory : Except String (Option String))
    (s : TerminalSessionService) : TaskPhase × TerminalSessionService :=
  match s.requireOwned sessionId ownerUserId with
  | .error error => (.raised error, s)
  | .ok (session, managed) =>
    let queue := s.queues.size
    let s := { s.cancelReconnectTask managed with
      queues := s.queues.alloc
        (managed.outputHistoryChunks.map fun chunk => .output (some chunk)) }
    let managed := managed.attach queue s.now
    match managed.bridge with
    | some _ =>
      (s.setSession session managed).persist (s.buildHistorySnapshot managed)
        (.attached managed.record queue)
    | none =>
      match factory with
      | .error message => (.raised (.bridge message), s.setSession session managed)
      | .ok containerName =>
        let managed := { managed with
          bridge := some s.bridges.size
          record := { managed.record with
            containerName := containerName.orElse fun _ => managed.record.containerName } }
        (.startingAgain managed.record queue s.bridges.size (s.buildHistorySnapshot managed),
          { s.setSession session managed with
            bridges := s.bridges.alloc { sessionId := managed.record.sessionId } })

def detachSession (sessionId ownerUserId : String) (s : TerminalSessionService) :
    TaskPhase × TerminalSessionService :=
  match s.requireOwned sessionId ownerUserId with
  | .error error => (.raised error, s)
  | .ok (session, managed) =>
    let deadline := s.now + s.reconnectTimeoutSeconds
    let s := s.cancelReconnectTask managed
    let managed := { managed with
      outputQueue := none
      reconnectTask := some s.tasks.size
      record := { managed.record with
        status := .detached, reconnectDeadline := some deadline } }
    let s := { s.setSession session managed with
      tasks := s.tasks.alloc { phase := .sleeping sessionId deadline } }
    s.persist (s.buildHistorySnapshot managed) (.detached managed.record)

/-- `await bridge.close()`, where there is a bridge, and then the persistence. -/
def closeBridge (bridge : Option ℕ) (snapshot : TerminalSessionHistorySnapshot)
    (next : Continuation) (s : TerminalSessionService) : TaskPhase × TerminalSessionService :=
  match bridge with
  | none => s.persist snapshot next
  | some bridge =>
    (.closingBridge snapshot next,
      { s with bridges := s.bridges.modify bridge fun bridge => { bridge with closed := true } })

/-- The bodies of `close_session` and `force_close_session_by_group`. -/
def closeManaged (session : ℕ) (managed : ManagedTerminalSession) (s : TerminalSessionService) :
    TaskPhase × TerminalSessionService :=
  let s := s.cancelReconnectTask managed
  (s.endSession session managed.close).closeBridge managed.bridge
    (s.buildHistorySnapshot managed.close) (.closed session)

def closeSession (sessionId ownerUserId : String) (s : TerminalSessionService) :
    TaskPhase × TerminalSessionService :=
  match s.requireOwned sessionId ownerUserId with
  | .error error => (.raised error, s)
  | .ok (session, managed) => s.closeManaged session managed

def closeSessionByGroup (groupFolder ownerUserId : String) (s : TerminalSessionService) :
    TaskPhase × TerminalSessionService :=
  match s.sessionOfGroup groupFolder with
  | none => (.raised .notFound, s)
  | some entry =>
    match requireOwner entry ownerUserId with
    | .error error => (.raised error, s)
    | .ok (_, managed) => s.closeSession managed.record.sessionId ownerUserId

def forceCloseSessionByGroup (groupFolder : String) (s : TerminalSessionService) :
    TaskPhase × TerminalSessionService :=
  match s.sessionOfGroup groupFolder with
  | none => (.raised .notFound, s)
  | some (session, managed) => s.closeManaged session managed

/-! ## Bridge events -/

/-- `await queue.put(event)`, where there is a queue. -/
def put (queue : Option ℕ) (event : TerminalSessionEvent) (s : TerminalSessionService) :
    TerminalSessionService :=
  match queue with
  | none => s
  | some queue => { s with queues := s.queues.modify queue fun events => events ++ [event] }

def handleBridgeEvent (sessionId : String) (event : TerminalBridgeEvent)
    (s : TerminalSessionService) : TaskPhase × TerminalSessionService :=
  match s.session sessionId with
  | none => (.returned .nothing, s)
  | some (session, managed) =>
    match event.type with
    | .output =>
      match event.data with
      | some data =>
        let managed := appendOutputHistory s.historyMaxBytes managed data
        (s.setSession session managed).persist (s.buildHistorySnapshot managed)
          (.put managed.outputQueue (.output data))
      | none => (.returned .nothing, s.put managed.outputQueue (.output none))
    | .exit =>
      let s := s.cancelReconnectTask managed
      let managed := { managed with
        reconnectTask := none
        record := { managed.record with status := .exited, reconnectDeadline := none } }
      (s.endSession session managed).persist (s.buildHistorySnapshot managed)
        (.put managed.outputQueue (.exit event.exitCode))
    | .error => (.returned .nothing, s.put managed.outputQueue (.error event.error))
    | .other _ => (.returned .nothing, s)

/-! ## Resuming -/

/-- `_expire_detached_session` after its sleep. -/
def expireDetachedSession (sessionId : String) (deadline : ℕ) (s : TerminalSessionService) :
    TaskPhase × TerminalSessionService :=
  match s.session sessionId with
  | none => (.returned .nothing, s)
  | some (session, managed) =>
    if managed.record.status ≠ .detached then (.returned .nothing, s)
    else if managed.record.reconnectDeadline ≠ some deadline then (.returned .nothing, s)
    else
      (s.endSession session managed.expire).closeBridge managed.bridge
        (s.buildHistorySnapshot managed.expire) .expired

/-- The end of a call, after its snapshot was persisted. -/
def finish (s : TerminalSessionService) : Continuation → TaskPhase × TerminalSessionService
  | .created groupFolder record =>
    (.returned (.record ((s.getCurrentSession groupFolder).getD record)), s)
  | .attached record queue => (.returned (.attached record queue), s)
  | .detached record => (.returned (.record record), s)
  | .closed session =>
    (.returned (match s.sessions.get? session with
      | some managed => .record managed.record
      | none => .nothing), s)
  | .put queue event => (.returned .nothing, s.put queue event)
  | .expired => (.returned .nothing, s)
  | .raise error => (.raised error, s)

def bridgeStarted (bridge : ℕ) (s : TerminalSessionService) : TerminalSessionService :=
  { s with bridges := s.bridges.modify bridge fun bridge =>
      { bridge with started := true, closed := false } }

/-- `create_session` after `bridge.start`. -/
def resumeCreate (groupFolder : String) (record : TerminalSessionRecord)
    (s : TerminalSessionService) : TaskPhase × TerminalSessionService :=
  match s.session record.sessionId with
  | none => s.finish (.created groupFolder record)
  | some (_, managed) =>
    s.persist (s.buildHistorySnapshot managed) (.created groupFolder record)

/-- `attach_session` after `bridge.start` raised. -/
def failAttach (sessionId message : String) (s : TerminalSessionService) :
    TaskPhase × TerminalSessionService :=
  match s.session sessionId with
  | none => (.raised (.bridge message), s)
  | some (session, managed) =>
    let managed := { managed with
      bridge := none
      outputQueue := none
      record := { managed.record with status := .closed, reconnectDeadline := none } }
    (s.endSession session managed).persist (s.buildHistorySnapshot managed)
      (.raise (.bridge message))

/-- A suspended task after its await. `failure` is what `bridge.start` or `bridge.close` raised.
A task that waits for a snapshot does not resume before it is written. -/
def resume (phase : TaskPhase) (failure : Option String) (s : TerminalSessionService) :
    Option (TaskPhase × TerminalSessionService) :=
  match phase with
  | .startingNew groupFolder record bridge =>
    match failure with
    | some message => some (.raised (.bridge message), s)
    | none => some ((s.bridgeStarted bridge).resumeCreate groupFolder record)
  | .startingAgain record queue bridge snapshot =>
    match failure with
    | some message => some (s.failAttach record.sessionId message)
    | none => some ((s.bridgeStarted bridge).persist snapshot (.attached record queue))
  | .closingBridge snapshot next =>
    match failure with
    | some message => some (.raised (.bridge message), s)
    | none => some (s.persist snapshot next)
  | .persisting job next =>
    if (s.jobs.get? job).any PersistJob.done then some (s.finish next) else none
  | .sleeping sessionId deadline => some (s.expireDetachedSession sessionId deadline)
  | .returned _ | .raised _ | .cancelled => none

/-! ## Restart -/

/-- One round of the loop of `_recover_active_sessions_from_persisted_snapshots`. -/
def recoverSnapshot (s : TerminalSessionService) (snapshot : TerminalSessionHistorySnapshot) :
    TerminalSessionService :=
  if ¬ snapshot.record.status.isRecoverable then s
  else if s.sessionsByGroup.contains snapshot.record.groupFolder then s
  else if s.sessionsById.contains snapshot.record.sessionId then s
  else
    let managed := appendOutputHistory s.historyMaxBytes
      { record := { snapshot.record with status := .detached, reconnectDeadline := none }
        outputHistoryTruncated := snapshot.truncated } snapshot.output
    { s with
      sessions := s.sessions.alloc managed
      sessionsByGroup := s.sessionsByGroup.insert managed.record.groupFolder s.sessions.size
      sessionsById := s.sessionsById.insert managed.record.sessionId s.sessions.size }

/-- The service after a restart with `recover_active_sessions`, from the persisted snapshots. -/
def recoverActiveSessions (reconnectTimeoutSeconds : ℕ) (historyMaxBytes : Int)
    (snapshots : List TerminalSessionHistorySnapshot) : TerminalSessionService :=
  snapshots.foldl recoverSnapshot
    { reconnectTimeoutSeconds, historyMaxBytes := historyMaxBytes.toNat }

end TerminalSessionService

end Portex
