import Portex.Terminal.Sessions

/-!
# What a step does to the tasks

A step starts a call, resumes a suspended one, finishes a persist job or moves the clock. Here is
each turn with the phase it ends in and the state it leaves, up to the connections and the
history.

## Main definitions

* `replaced`, `delivered`: the session that makes room for a creation, and the event for a queue
* `Called`: the first turn of a call
* `Resumed`: a later turn
* `Turn`: a step

## Main results

* `turn_of_step`: every step is a turn
* `Turn.task`: the phase of a task after a step
-/

namespace Portex

open Foundation

namespace ManagedTerminalSession

/-- A session after `attach_session` gave it a new queue and a new bridge. -/
def reopen (managed : ManagedTerminalSession) (queue now bridge : ℕ)
    (containerName : Option String) : ManagedTerminalSession :=
  { managed.attach queue now with
    bridge := some bridge
    record := { (managed.attach queue now).record with
      containerName := containerName.orElse fun _ => managed.record.containerName } }

/-- A session after `detach_session`, with a new expiry timer. -/
def detach (managed : ManagedTerminalSession) (task deadline : ℕ) : ManagedTerminalSession :=
  { managed with
    outputQueue := none
    reconnectTask := some task
    record := { managed.record with status := .detached, reconnectDeadline := some deadline } }

/-- A session whose shell has exited. -/
def exit (managed : ManagedTerminalSession) : ManagedTerminalSession :=
  { managed with
    reconnectTask := none
    record := { managed.record with status := .exited, reconnectDeadline := none } }

/-- A session whose `bridge.start` raised in `attach_session`. -/
def failStart (managed : ManagedTerminalSession) : ManagedTerminalSession :=
  { managed with
    bridge := none
    outputQueue := none
    record := { managed.record with status := .closed, reconnectDeadline := none } }

/-- What `attach_session` puts into a new queue. -/
def replay (managed : ManagedTerminalSession) : List TerminalSessionEvent :=
  managed.outputHistoryChunks.map fun chunk => .output (some chunk)

end ManagedTerminalSession

/-- What a bridge event becomes on an output queue. -/
def TerminalBridgeEvent.streamEvent (event : TerminalBridgeEvent) : Option TerminalSessionEvent :=
  match event.type with
  | .output => some (.output event.data)
  | .exit => some (.exit event.exitCode)
  | .error => some (.error event.error)
  | .other _ => none

/-- The events that are put without a snapshot. -/
def TerminalBridgeEvent.immediate (event : TerminalBridgeEvent) : Option TerminalSessionEvent :=
  match event.type with
  | .output => if event.data = none then some (.output none) else none
  | .error => some (.error event.error)
  | .exit | .other _ => none

namespace TerminalSessionService

variable {s t : TerminalSessionService}

/-- The state without its connections and its history, which no operation of the service reads. -/
def core (s : TerminalSessionService) : TerminalSessionService :=
  { s with connections := ∅, history := [] }

/-- The tasks once the reconnect task of a session was asked to stop. -/
def recalled (managed : ManagedTerminalSession) (s : TerminalSessionService) : Heap Task :=
  match managed.reconnectTask with
  | none => s.tasks
  | some task => s.tasks.modify task Task.cancel

theorem cancelReconnectTask_recalled (managed : ManagedTerminalSession)
    (s : TerminalSessionService) :
    s.cancelReconnectTask managed = { s with tasks := s.recalled managed } := by
  unfold cancelReconnectTask recalled
  cases managed.reconnectTask with
  | none => rfl
  | some task => rfl

/-- The record of a new session. -/
def newRecord (groupId groupFolder ownerUserId sessionId : String) (backend : TerminalBackendName)
    (containerName : Option String) (s : TerminalSessionService) : TerminalSessionRecord :=
  { sessionId, groupId, groupFolder, ownerUserId, backend, containerName,
    status := .created, createdAt := s.now }

/-- A session is closed, and then its bridge. -/
def closeWith (i : ℕ) (managed managed' : ManagedTerminalSession) (next : Continuation)
    (tasks : Heap Task) (s : TerminalSessionService) : TaskPhase × TerminalSessionService :=
  closeBridge managed.bridge (s.buildHistorySnapshot managed') next
    { s with tasks, sessions := s.sessions.modify i fun _ => managed' }

section

variable (i : ℕ) (managed managed' : ManagedTerminalSession) (next : Continuation)
  (tasks : Heap Task) (s : TerminalSessionService)

@[simp] theorem closeWith_sessions : (s.closeWith i managed managed' next tasks).2.sessions =
    s.sessions.modify i fun _ => managed' := by
  unfold closeWith
  cases managed.bridge <;> rfl

@[simp] theorem closeWith_queues :
    (s.closeWith i managed managed' next tasks).2.queues = s.queues := by
  unfold closeWith
  cases managed.bridge <;> rfl

@[simp] theorem closeWith_historyMaxBytes :
    (s.closeWith i managed managed' next tasks).2.historyMaxBytes = s.historyMaxBytes := by
  unfold closeWith
  cases managed.bridge <;> rfl

end

/-- The end of `bridge.start`, and the snapshot that is persisted then. -/
def startedWith (bridge : ℕ) (snapshot : TerminalSessionHistorySnapshot)
    (s : TerminalSessionService) : TerminalSessionService :=
  { s.bridgeStarted bridge with jobs := s.jobs.alloc { snapshot } }

/-- The ended session that makes room for a creation. -/
def replaced (s : TerminalSessionService) : Action → Option (ℕ × ManagedTerminalSession)
  | .create _ groupFolder _ .container _ _ =>
    (s.sessionOfGroup groupFolder).filter fun entry => entry.2.record.status.isTerminal
  | _ => none

/-- The event that a step delivers for a queue, under the number of its handler. -/
def delivered (s : TerminalSessionService) (queue : ℕ) :
    Action → Option (ℕ × TerminalSessionEvent)
  | .bridgeEvent bridge event =>
    (s.bridges.get? bridge).bind fun b => (s.session b.sessionId).bind fun entry =>
      if entry.2.outputQueue = some queue then event.streamEvent.map fun e => (s.tasks.size, e)
      else none
  | _ => none

/-- Nothing of a call that changes nothing: no session is replaced, assigned to or written to. -/
structure Idle (s : TerminalSessionService) (a : Action) : Prop where
  replaced : s.replaced a = none
  target : s.target a = none
  delivered : ∀ queue, s.delivered queue a = none

/-- The first turn of a call: the phase it is suspended in, and the state. -/
inductive Called (s : TerminalSessionService) :
    Action → TaskPhase → TerminalSessionService → Prop
  /-- The call is done, and has changed nothing. -/
  | idle {a : Action} {phase : TaskPhase} (done : phase.isDone = true)
      (idle : s.Idle a) : Called s a phase s
  | put {bridge i : ℕ} {event : TerminalBridgeEvent} {b : TerminalBridge}
      {managed : ManagedTerminalSession} {streamEvent : TerminalSessionEvent}
      (get? : s.bridges.get? bridge = some b) (found : s.session b.sessionId = some (i, managed))
      (immediate : event.immediate = some streamEvent) :
      Called s (.bridgeEvent bridge event) (.returned .nothing)
        (s.put managed.outputQueue streamEvent)
  | createRaised {groupId groupFolder ownerUserId sessionId message : String}
      {u : TerminalSessionService} (vacated : Vacated s groupFolder u) :
      Called s (.create groupId groupFolder ownerUserId .container sessionId (.error message))
        (.raised (.bridge message)) u
  | created {groupId groupFolder ownerUserId sessionId : String} {containerName : Option String}
      {backend : TerminalBackendName} {u : TerminalSessionService}
      (vacated : Vacated s groupFolder u) :
      Called s (.create groupId groupFolder ownerUserId .container sessionId (.ok containerName))
        (.startingNew groupFolder
          (u.newRecord groupId groupFolder ownerUserId sessionId backend containerName)
          u.bridges.size)
        { u.opened
            { record := u.newRecord groupId groupFolder ownerUserId sessionId backend containerName
              bridge := some u.bridges.size } with
          bridges := u.bridges.alloc { sessionId } }
  | attached {sessionId ownerUserId : String} {factory : Except String (Option String)} {i b : ℕ}
      {managed : ManagedTerminalSession}
      (found : s.owned sessionId ownerUserId = some (i, managed))
      (bridge : managed.bridge = some b) :
      Called s (.attach sessionId ownerUserId factory)
        (.persisting s.jobs.size
          (.attached (managed.attach s.queues.size s.now).record s.queues.size))
        { s with
          tasks := s.recalled managed
          queues := s.queues.alloc managed.replay
          sessions := s.sessions.modify i fun _ => managed.attach s.queues.size s.now
          jobs := s.jobs.alloc
            { snapshot := s.buildHistorySnapshot (managed.attach s.queues.size s.now) } }
  | attachRaised {sessionId ownerUserId message : String} {i : ℕ}
      {managed : ManagedTerminalSession}
      (found : s.owned sessionId ownerUserId = some (i, managed)) (bridge : managed.bridge = none) :
      Called s (.attach sessionId ownerUserId (.error message)) (.raised (.bridge message))
        { s with
          tasks := s.recalled managed
          queues := s.queues.alloc managed.replay
          sessions := s.sessions.modify i fun _ => managed.attach s.queues.size s.now }
  | reopened {sessionId ownerUserId : String} {containerName : Option String} {i : ℕ}
      {managed : ManagedTerminalSession}
      (found : s.owned sessionId ownerUserId = some (i, managed)) (bridge : managed.bridge = none) :
      Called s (.attach sessionId ownerUserId (.ok containerName))
        (.startingAgain
          (managed.reopen s.queues.size s.now s.bridges.size containerName).record
          s.queues.size s.bridges.size
          (s.buildHistorySnapshot
            (managed.reopen s.queues.size s.now s.bridges.size containerName)))
        { s with
          tasks := s.recalled managed
          queues := s.queues.alloc managed.replay
          sessions := s.sessions.modify i fun _ =>
            managed.reopen s.queues.size s.now s.bridges.size containerName
          bridges := s.bridges.alloc { sessionId := managed.record.sessionId } }
  | detached {a : Action} {sessionId : String} {i deadline : ℕ}
      {managed managed' : ManagedTerminalSession}
      (target : s.target a = some (i, managed, .detach))
      (found : s.session sessionId = some (i, managed))
      (eq : managed' = managed.detach (s.recalled managed).size deadline) :
      Called s a (.persisting s.jobs.size (.detached managed'.record))
        { s with
          tasks := (s.recalled managed).alloc
            { phase := .sleeping sessionId deadline }
          sessions := s.sessions.modify i fun _ => managed'
          jobs := s.jobs.alloc { snapshot := s.buildHistorySnapshot managed' } }
  | closed {a : Action} {i : ℕ} {managed : ManagedTerminalSession}
      (target : s.target a = some (i, managed, .close)) :
      Called s a (s.closeWith i managed managed.close (.closed i) (s.recalled managed)).1
        (s.closeWith i managed managed.close (.closed i) (s.recalled managed)).2
  | output {bridge i : ℕ} {event : TerminalBridgeEvent} {b : TerminalBridge} {text : String}
      {managed managed' : ManagedTerminalSession} (get? : s.bridges.get? bridge = some b)
      (found : s.session b.sessionId = some (i, managed)) (type : event.type = .output)
      (data : event.data = some text)
      (eq : managed' = appendOutputHistory s.historyMaxBytes managed text) :
      Called s (.bridgeEvent bridge event)
        (.persisting s.jobs.size (.put managed.outputQueue (.output (some text))))
        { s with
          sessions := s.sessions.modify i fun _ => managed'
          jobs := s.jobs.alloc { snapshot := s.buildHistorySnapshot managed' } }
  | exited {bridge i : ℕ} {event : TerminalBridgeEvent} {b : TerminalBridge}
      {managed : ManagedTerminalSession} (get? : s.bridges.get? bridge = some b)
      (found : s.session b.sessionId = some (i, managed)) (type : event.type = .exit) :
      Called s (.bridgeEvent bridge event)
        (.persisting s.jobs.size (.put managed.outputQueue (.exit event.exitCode)))
        { s with
          tasks := s.recalled managed
          sessions := s.sessions.modify i fun _ => managed.exit
          jobs := s.jobs.alloc { snapshot := s.buildHistorySnapshot managed.exit } }

/-- A later turn of a task: the phase it was suspended in, the phase it is suspended in next, and
the state. -/
inductive Resumed (s : TerminalSessionService) :
    Option String → TaskPhase → TaskPhase → TerminalSessionService → Prop
  | createFailed {groupFolder message : String} {record : TerminalSessionRecord} {bridge : ℕ} :
      Resumed s (some message) (.startingNew groupFolder record bridge)
        (.raised (.bridge message)) s
  | createGone {groupFolder : String} {record : TerminalSessionRecord} {bridge : ℕ}
      (gone : s.session record.sessionId = none) :
      Resumed s none (.startingNew groupFolder record bridge)
        (.returned (.record ((s.getCurrentSession groupFolder).getD record)))
        (s.bridgeStarted bridge)
  | createStarted {groupFolder : String} {record : TerminalSessionRecord} {bridge i : ℕ}
      {managed : ManagedTerminalSession} (found : s.session record.sessionId = some (i, managed)) :
      Resumed s none (.startingNew groupFolder record bridge)
        (.persisting s.jobs.size (.created groupFolder record))
        (s.startedWith bridge (s.buildHistorySnapshot managed))
  | attachGone {message : String} {record : TerminalSessionRecord} {queue bridge : ℕ}
      {snapshot : TerminalSessionHistorySnapshot} (gone : s.session record.sessionId = none) :
      Resumed s (some message) (.startingAgain record queue bridge snapshot)
        (.raised (.bridge message)) s
  | attachFailed {message : String} {record : TerminalSessionRecord} {queue bridge i : ℕ}
      {snapshot : TerminalSessionHistorySnapshot} {managed : ManagedTerminalSession}
      (found : s.session record.sessionId = some (i, managed)) :
      Resumed s (some message) (.startingAgain record queue bridge snapshot)
        (.persisting s.jobs.size (.raise (.bridge message)))
        { s with
          sessions := s.sessions.modify i fun _ => managed.failStart
          jobs := s.jobs.alloc { snapshot := s.buildHistorySnapshot managed.failStart } }
  | attachStarted {record : TerminalSessionRecord} {queue bridge : ℕ}
      {snapshot : TerminalSessionHistorySnapshot} :
      Resumed s none (.startingAgain record queue bridge snapshot)
        (.persisting s.jobs.size (.attached record queue)) (s.startedWith bridge snapshot)
  | closeFailed {message : String} {snapshot : TerminalSessionHistorySnapshot}
      {next : Continuation} :
      Resumed s (some message) (.closingBridge snapshot next) (.raised (.bridge message)) s
  | bridgeClosed {snapshot : TerminalSessionHistorySnapshot} {next : Continuation} :
      Resumed s none (.closingBridge snapshot next) (.persisting s.jobs.size next)
        { s with jobs := s.jobs.alloc { snapshot } }
  | persisted {failure : Option String} {job : ℕ} {next : Continuation}
      (done : (s.jobs.get? job).any PersistJob.done = true) :
      Resumed s failure (.persisting job next) (s.finish next).1 (s.finish next).2
  | awoken {failure : Option String} {sessionId : String} {deadline : ℕ}
      (still : s.phaseTarget failure (.sleeping sessionId deadline) = none) :
      Resumed s failure (.sleeping sessionId deadline) (.returned .nothing) s
  | expired {failure : Option String} {sessionId : String} {deadline i : ℕ}
      {managed : ManagedTerminalSession} (found : s.session sessionId = some (i, managed))
      (target : s.phaseTarget failure (.sleeping sessionId deadline) =
        some (i, managed, .expire)) :
      Resumed s failure (.sleeping sessionId deadline)
        (s.closeWith i managed managed.expire .expired s.tasks).1
        (s.closeWith i managed managed.expire .expired s.tasks).2

/-- A step, up to the connections and the history. -/
inductive Turn (s : TerminalSessionService) : Action → TerminalSessionService → Prop
  | call {a : Action} {phase : TaskPhase} {u t : TerminalSessionService} (called : Called s a phase u)
      (core : t.core = { u.core with tasks := u.tasks.alloc { phase } })
      (first : ∀ task failure, a ≠ .resume task failure) : Turn s a t
  | cancel {task : ℕ} {failure : Option String} {phase : TaskPhase}
      (get? : s.tasks.get? task = some { phase, cancelRequested := true })
      (running : phase.isDone = false) :
      Turn s (.resume task failure) (s.setTaskPhase task .cancelled)
  | resume {task : ℕ} {failure : Option String} {phase phase' : TaskPhase}
      {u t : TerminalSessionService}
      (get? : s.tasks.get? task = some { phase, cancelRequested := false })
      (running : phase.isDone = false) (resumed : Resumed s failure phase phase' u)
      (core : t.core = (u.setTaskPhase task phase').core) : Turn s (.resume task failure) t
  | write {job : ℕ} {failed : Bool} {snapshot : TerminalSessionHistorySnapshot}
      (get? : s.jobs.get? job = some { snapshot, done := false }) :
      Turn s (.write job failed)
        { s with
          jobs := s.jobs.modify job fun j => { j with done := true }
          written := if failed then s.written else s.written ++ [snapshot] }
  | setClock {now : ℕ} : Turn s (.setClock now) { s with now }

/-! ## Calls -/

theorem dropSession_eq (i : ℕ) (managed : ManagedTerminalSession) (s : TerminalSessionService) :
    s.dropSession i managed =
      { s with
        sessionsByGroup := s.sessionsByGroup.erase managed.record.groupFolder
        sessionsById := s.sessionsById.erase managed.record.sessionId
        sessions := s.sessions.modify i fun managed => { managed with reconnectTask := none }
        tasks := s.recalled managed } := by
  unfold dropSession
  rw [cancelReconnectTask_recalled]
  rfl

theorem Vacated.bridges {groupFolder : String} (h : Vacated s groupFolder t) :
    t.bridges = s.bridges ∧ t.now = s.now := by
  cases h with
  | free => exact ⟨rfl, rfl⟩
  | drop => rw [dropSession_eq]; exact ⟨rfl, rfl⟩

/-- A call with its result, up to the connections and the history. -/
def CalledAs (s : TerminalSessionService) (a : Action)
    (result : TaskPhase × TerminalSessionService) : Prop :=
  ∃ u, Called s a result.1 u ∧ result.2.core = u.core

theorem calledAs_idle {a : Action} {phase : TaskPhase} (done : phase.isDone = true)
    (idle : s.Idle a) : CalledAs s a (phase, s) :=
  ⟨s, .idle done idle, rfl⟩

theorem called_createSession (groupId groupFolder ownerUserId : String)
    (requestedMode : TerminalRequestedMode) (sessionId : String)
    (factory : Except String (Option String)) (s : TerminalSessionService) :
    CalledAs s (.create groupId groupFolder ownerUserId requestedMode sessionId factory)
      (s.createSession groupId groupFolder ownerUserId requestedMode sessionId factory) := by
  -- With the group vacated, what the bridge factory does decides.
  have hopen : ∀ backend u, Vacated s groupFolder u →
      CalledAs s (.create groupId groupFolder ownerUserId .container sessionId factory)
        (u.openSession groupId groupFolder ownerUserId backend sessionId factory) := by
    intro backend u hu
    cases factory with
    | error message => exact ⟨u, .createRaised hu, rfl⟩
    | ok containerName => exact ⟨_, .created hu, rfl⟩
  -- Only the container has a terminal backend.
  cases requestedMode with
  | openai | host => exact calledAs_idle rfl ⟨rfl, rfl, fun _ => rfl⟩
  | container =>
    unfold createSession
    simp only [resolveBackend]
    cases h : s.sessionOfGroup groupFolder with
    | none => exact hopen _ s (.free h)
    | some entry =>
      obtain ⟨i, managed⟩ := entry
      simp only
      split
      · rename_i ended
        exact hopen _ _ (.drop h ended)
      · rename_i hactive
        have hidle : s.Idle (.create groupId groupFolder ownerUserId .container sessionId factory) :=
          ⟨by simp [replaced, h, hactive, Option.filter], rfl, fun _ => rfl⟩
        split
        · exact calledAs_idle rfl hidle
        · exact calledAs_idle rfl hidle

theorem called_attachSession (sessionId ownerUserId : String)
    (factory : Except String (Option String)) (s : TerminalSessionService) :
    CalledAs s (.attach sessionId ownerUserId factory)
      (s.attachSession sessionId ownerUserId factory) := by
  unfold attachSession
  cases h : s.owned sessionId ownerUserId with
  | none =>
    obtain ⟨error, he⟩ := requireOwned_of_not_owned h
    rw [he]
    exact calledAs_idle rfl ⟨rfl, by simp [target, attachTarget, h], fun _ => rfl⟩
  | some entry =>
    obtain ⟨i, managed⟩ := entry
    simp only [requireOwned_of_owned h, cancelReconnectTask_recalled]
    -- A session with a bridge gives away its queue; without one, a new bridge is asked for.
    split
    · rename_i bridge hb
      exact ⟨_, .attached h hb, rfl⟩
    · rename_i hb
      cases factory with
      | error message => exact ⟨_, .attachRaised h hb, rfl⟩
      | ok containerName => exact ⟨_, .reopened h hb, rfl⟩

theorem called_detachSession {a : Action} {sessionId ownerUserId : String}
    (hreplaced : s.replaced a = none) (hdelivered : ∀ queue, s.delivered queue a = none)
    (ha : s.target a = (s.owned sessionId ownerUserId).map fun (i, managed) =>
      (i, managed, .detach)) : CalledAs s a (s.detachSession sessionId ownerUserId) := by
  unfold detachSession
  cases h : s.owned sessionId ownerUserId with
  | none =>
    obtain ⟨error, he⟩ := requireOwned_of_not_owned h
    rw [he]
    exact calledAs_idle rfl ⟨hreplaced, by rw [ha, h]; rfl, hdelivered⟩
  | some entry =>
    obtain ⟨i, managed⟩ := entry
    rw [h] at ha
    simp only [requireOwned_of_owned h, cancelReconnectTask_recalled]
    exact ⟨_, @Called.detached s a sessionId i (s.now + s.reconnectTimeoutSeconds) managed _ ha
      (owned_eq_some.mp h).1 rfl, rfl⟩

theorem called_closeManaged {a : Action} {i : ℕ} {managed : ManagedTerminalSession}
    (ha : s.target a = some (i, managed, .close)) : CalledAs s a (s.closeManaged i managed) := by
  unfold closeManaged
  simp only [cancelReconnectTask_recalled]
  have hcalled := Called.closed ha
  unfold closeWith at hcalled
  cases hb : managed.bridge with
  | none =>
    rw [hb] at hcalled
    exact ⟨_, hcalled, rfl⟩
  | some bridge =>
    rw [hb] at hcalled
    exact ⟨_, hcalled, rfl⟩

theorem called_closeSession {a : Action} {sessionId ownerUserId : String}
    (hreplaced : s.replaced a = none) (hdelivered : ∀ queue, s.delivered queue a = none)
    (ha : s.target a = (s.owned sessionId ownerUserId).map fun (i, managed) =>
      (i, managed, .close)) : CalledAs s a (s.closeSession sessionId ownerUserId) := by
  unfold closeSession
  cases h : s.owned sessionId ownerUserId with
  | none =>
    obtain ⟨error, he⟩ := requireOwned_of_not_owned h
    rw [he]
    exact calledAs_idle rfl ⟨hreplaced, by rw [ha, h]; rfl, hdelivered⟩
  | some entry =>
    rw [h] at ha
    rw [requireOwned_of_owned h]
    exact called_closeManaged ha

theorem called_closeSessionByGroup (groupFolder ownerUserId : String) :
    CalledAs s (.closeByGroup groupFolder ownerUserId)
      (s.closeSessionByGroup groupFolder ownerUserId) := by
  unfold closeSessionByGroup
  cases h : s.sessionOfGroup groupFolder with
  | none => exact calledAs_idle rfl ⟨rfl, by simp [target, groupTarget, h], fun _ => rfl⟩
  | some entry =>
    obtain ⟨i, managed⟩ := entry
    by_cases ho : managed.record.ownerUserId = ownerUserId
    · simp only [requireOwner, ho, ne_eq, not_true, if_false]
      refine called_closeSession rfl (fun _ => rfl) ?_
      simp [target, groupTarget, h, ho, Option.filter]
    · simp only [requireOwner, ho, ne_eq, not_false_eq_true, if_true]
      exact calledAs_idle rfl
        ⟨rfl, by simp [target, groupTarget, h, ho, Option.filter], fun _ => rfl⟩

theorem called_forceCloseSessionByGroup (groupFolder : String) :
    CalledAs s (.forceClose groupFolder) (s.forceCloseSessionByGroup groupFolder) := by
  unfold forceCloseSessionByGroup
  cases h : s.sessionOfGroup groupFolder with
  | none => exact calledAs_idle rfl ⟨rfl, by simp [target, h], fun _ => rfl⟩
  | some entry =>
    obtain ⟨i, managed⟩ := entry
    exact called_closeManaged (by simp [target, h])

theorem called_handleBridgeEvent {bridge : ℕ} {b : TerminalBridge} (event : TerminalBridgeEvent)
    (hb : s.bridges.get? bridge = some b) :
    CalledAs s (.bridgeEvent bridge event) (s.handleBridgeEvent b.sessionId event) := by
  unfold handleBridgeEvent
  cases h : s.session b.sessionId with
  | none => exact calledAs_idle rfl ⟨rfl, by simp [target, eventTarget, hb, h], fun _ => by
      simp [delivered, hb, h]⟩
  | some entry =>
    obtain ⟨i, managed⟩ := entry
    simp only [cancelReconnectTask_recalled]
    -- Output, exit, error, and the events of other types.
    split
    · rename_i htype
      split
      · rename_i text htext
        have hsame : (appendOutputHistory s.historyMaxBytes managed text).outputQueue =
            managed.outputQueue := by
          obtain ⟨chunks, bytes, truncated, ha⟩ :=
            record_appendOutputHistory s.historyMaxBytes managed text
          rw [ha]
        -- The history does not choose the queue.
        rw [hsame]
        exact ⟨_, .output hb h htype htext rfl, rfl⟩
      · rename_i hnone
        exact ⟨_, .put hb h (by simp [TerminalBridgeEvent.immediate, htype, hnone]), rfl⟩
    · rename_i htype
      exact ⟨_, .exited hb h htype, rfl⟩
    · rename_i htype
      exact ⟨_, .put hb h (by simp [TerminalBridgeEvent.immediate, htype]), rfl⟩
    · rename_i htype
      exact calledAs_idle rfl ⟨rfl, by simp [target, eventTarget, hb, htype], fun _ => by
        simp [delivered, hb, TerminalBridgeEvent.streamEvent, htype]⟩

/-! ## Resumptions -/

theorem resumed_expire (sessionId : String) (deadline : ℕ) (failure : Option String)
    (s : TerminalSessionService) :
    ∃ u, Resumed s failure (.sleeping sessionId deadline)
        (s.expireDetachedSession sessionId deadline).1 u ∧
      (s.expireDetachedSession sessionId deadline).2.core = u.core := by
  unfold expireDetachedSession
  cases h : s.session sessionId with
  | none => exact ⟨s, .awoken (by simp [phaseTarget, h]), rfl⟩
  | some entry =>
    obtain ⟨i, managed⟩ := entry
    simp only
    -- The timer does nothing unless the session is detached and has the deadline it slept for.
    split
    · rename_i hdetached
      exact ⟨s, .awoken (by simp [phaseTarget, h, hdetached, Option.filter]), rfl⟩
    · rename_i hdetached
      split
      · rename_i hdeadline
        exact ⟨s, .awoken (by simp [phaseTarget, h, hdeadline, Option.filter]), rfl⟩
      · rename_i hdeadline
        have hresumed := @Resumed.expired s failure sessionId deadline i managed h
          (by simp [phaseTarget, h, not_not.mp hdetached, not_not.mp hdeadline, Option.filter])
        -- What is left of the close is its bridge, if it has one.
        unfold closeWith at hresumed
        cases hb : managed.bridge with
        | none =>
          rw [hb] at hresumed
          exact ⟨_, hresumed, rfl⟩
        | some bridge =>
          rw [hb] at hresumed
          exact ⟨_, hresumed, rfl⟩

theorem resumed_of_resume {phase : TaskPhase} {failure : Option String}
    {result : TaskPhase × TerminalSessionService} (h : s.resume phase failure = some result) :
    ∃ u, Resumed s failure phase result.1 u ∧ result.2.core = u.core := by
  cases phase with
  -- The bridge of a new session failed to start, or the session is gone, or it runs.
  | startingNew groupFolder record bridge =>
    cases failure with
    | some message =>
      obtain rfl := Option.some.inj h
      exact ⟨s, .createFailed, rfl⟩
    | none =>
      obtain rfl := Option.some.inj h
      unfold resumeCreate
      split
      · rename_i gone
        exact ⟨_, .createGone gone, rfl⟩
      · rename_i i managed found
        exact ⟨_, .createStarted found, rfl⟩
  -- The bridge of a session that was detached.
  | startingAgain record queue bridge snapshot =>
    cases failure with
    | some message =>
      obtain rfl := Option.some.inj h
      unfold failAttach
      split
      · rename_i gone
        exact ⟨s, .attachGone gone, rfl⟩
      · rename_i i managed found
        exact ⟨_, .attachFailed found, rfl⟩
    | none =>
      obtain rfl := Option.some.inj h
      exact ⟨_, .attachStarted, rfl⟩
  -- The bridge of a session that is closed.
  | closingBridge snapshot next =>
    cases failure with
    | some message =>
      obtain rfl := Option.some.inj h
      exact ⟨s, .closeFailed, rfl⟩
    | none =>
      obtain rfl := Option.some.inj h
      exact ⟨_, .bridgeClosed, rfl⟩
  | persisting job next =>
    simp only [resume] at h
    split at h
    · rename_i hdone
      obtain rfl := Option.some.inj h
      exact ⟨_, .persisted hdone, rfl⟩
    · cases h
  | sleeping sessionId deadline =>
    obtain rfl := Option.some.inj h
    exact resumed_expire sessionId deadline failure s
  | returned | raised | cancelled => cases h

/-! ## Steps -/

theorem turn_of_called {a : Action} {result : TaskPhase × TerminalSessionService}
    (h : CalledAs s a result) (ht : t.core = (call result).core)
    (first : ∀ task failure, a ≠ .resume task failure) : Turn s a t := by
  obtain ⟨u, hcalled, hcore⟩ := h
  refine .call hcalled (ht.trans ?_) first
  have htasks : result.2.tasks = u.tasks := congrArg (fun s => s.tasks) hcore
  show { result.2.core with tasks := result.2.tasks.alloc { phase := result.1 } } = _
  rw [hcore, htasks]

theorem core_connect (sessionId ownerUserId : String) (queue : ℕ)
    (result : TaskPhase × TerminalSessionService) :
    (connect sessionId ownerUserId queue result).core = (call result).core := by
  obtain ⟨phase, s⟩ := result
  cases phase <;> rfl

/-- A detach does not look at the connections. -/
theorem core_detachSession_leave (connection : ℕ) (sessionId ownerUserId : String)
    (s : TerminalSessionService) :
    (call ((s.leave connection).detachSession sessionId ownerUserId)).core =
      (call (s.detachSession sessionId ownerUserId)).core := by
  unfold detachSession
  rw [show (s.leave connection).requireOwned sessionId ownerUserId =
    s.requireOwned sessionId ownerUserId from rfl]
  cases s.requireOwned sessionId ownerUserId with
  | error error => rfl
  | ok entry =>
    simp only [cancelReconnectTask_recalled]
    rfl

theorem core_closeSession_leave (connection : ℕ) (sessionId ownerUserId : String)
    (s : TerminalSessionService) :
    (call ((s.leave connection).closeSession sessionId ownerUserId)).core =
      (call (s.closeSession sessionId ownerUserId)).core := by
  unfold closeSession
  rw [show (s.leave connection).requireOwned sessionId ownerUserId =
    s.requireOwned sessionId ownerUserId from rfl]
  cases s.requireOwned sessionId ownerUserId with
  | error error => rfl
  | ok entry =>
    simp only [closeManaged, cancelReconnectTask_recalled]
    cases entry.2.bridge with
    | none => rfl
    | some bridge => rfl

/-- **Steps.** Every step is a turn. -/
theorem turn_of_step {a : Action} (h : s.step a = some t) : Turn s a t := by
  cases a with
  | create groupId groupFolder ownerUserId requestedMode sessionId factory =>
    obtain rfl := Option.some.inj h
    exact turn_of_called (called_createSession _ _ _ _ _ _ s) rfl fun _ _ h => by cases h
  | attach sessionId ownerUserId factory =>
    obtain rfl := Option.some.inj h
    exact turn_of_called (called_attachSession _ _ _ s) (core_connect _ _ _ _) fun _ _ h => by cases h
  | disconnect connection =>
    obtain ⟨c, hc, rfl⟩ := Option.map_eq_some_iff.mp h
    have hcalled : CalledAs s (.disconnect connection) (s.detachSession c.sessionId c.ownerUserId) :=
      called_detachSession rfl (fun _ => rfl) (by simp only [target, hc]; rfl)
    exact turn_of_called hcalled (core_detachSession_leave _ _ _ s) fun _ _ h => by cases h
  | closeFrame connection =>
    obtain ⟨c, hc, rfl⟩ := Option.map_eq_some_iff.mp h
    have hcalled : CalledAs s (.closeFrame connection) (s.closeSession c.sessionId c.ownerUserId) :=
      called_closeSession rfl (fun _ => rfl) (by simp only [target, hc]; rfl)
    exact turn_of_called hcalled (core_closeSession_leave _ _ _ s) fun _ _ h => by cases h
  | detach sessionId ownerUserId =>
    obtain rfl := Option.some.inj h
    exact turn_of_called (called_detachSession rfl (fun _ => rfl) rfl) rfl fun _ _ h => by cases h
  | close sessionId ownerUserId =>
    obtain rfl := Option.some.inj h
    exact turn_of_called (called_closeSession rfl (fun _ => rfl) rfl) rfl fun _ _ h => by cases h
  | closeByGroup groupFolder ownerUserId =>
    obtain rfl := Option.some.inj h
    exact turn_of_called (called_closeSessionByGroup _ _) rfl fun _ _ h => by cases h
  | forceClose groupFolder =>
    obtain rfl := Option.some.inj h
    exact turn_of_called (called_forceCloseSessionByGroup _) rfl fun _ _ h => by cases h
  | bridgeEvent bridge event =>
    obtain ⟨b, hb, rfl⟩ := Option.map_eq_some_iff.mp h
    exact turn_of_called (called_handleBridgeEvent event hb) rfl fun _ _ h => by cases h
  | resume task failure =>
    cases resumes_of_step h with
    | cancel found running => exact .cancel found running
    | @goOn _ result found running resumed =>
      obtain ⟨u, hresumed, hcore⟩ := resumed_of_resume resumed
      refine .resume found running hresumed ?_
      exact congrArg (fun v => setTaskPhase task result.1 v) hcore
  | write job failed =>
    obtain ⟨snapshot, found, rfl⟩ := write_of_step h
    exact .write found
  | setClock now =>
    obtain rfl := Option.some.inj h
    exact .setClock

/-! ## Tasks -/

/-- The phase of a task. -/
def phase? (s : TerminalSessionService) (task : ℕ) : Option TaskPhase :=
  (s.tasks.get? task).map Task.phase

theorem phase_cancel (task : Task) : task.cancel.phase = task.phase := by
  unfold Task.cancel
  split <;> rfl

theorem phase?_recalled (managed : ManagedTerminalSession) (s : TerminalSessionService) (task : ℕ) :
    ((s.recalled managed).get? task).map Task.phase = s.phase? task ∧
      (s.recalled managed).size = s.tasks.size := by
  unfold recalled phase?
  split
  · exact ⟨rfl, rfl⟩
  · refine ⟨?_, Heap.size_modify _ _ _⟩
    rw [Heap.get?_modify]
    split
    · rw [Option.map_map]
      congr 1
      funext t
      exact phase_cancel t
    · rfl

theorem phase?_eq_none {s : TerminalSessionService} {task : ℕ} :
    s.phase? task = none ↔ s.tasks.size ≤ task := by
  rw [phase?, Option.map_eq_none_iff, Heap.get?_eq_none_iff]

theorem closeWith_tasks (i : ℕ) (managed managed' : ManagedTerminalSession) (next : Continuation)
    (tasks : Heap Task) (s : TerminalSessionService) :
    (s.closeWith i managed managed' next tasks).2.tasks = tasks := by
  unfold closeWith
  cases managed.bridge with
  | none => rfl
  | some bridge => rfl

/-- The first turn of a call leaves the other tasks in their phases. A detach makes a timer. -/
theorem Called.phase? {a : Action} {phase : TaskPhase} {u : TerminalSessionService}
    (h : Called s a phase u) :
    ((∀ task, u.phase? task = s.phase? task) ∧ u.tasks.size = s.tasks.size) ∨
      (∃ i managed, s.target a = some (i, managed, .detach)) ∧
        u.tasks.size = s.tasks.size + 1 ∧ ∃ sessionId deadline, ∀ task, u.phase? task =
          if task = s.tasks.size then some (.sleeping sessionId deadline) else s.phase? task := by
  -- Recalling a timer cancels it, which is no phase.
  have hkeep : ∀ {v : TerminalSessionService} (managed : ManagedTerminalSession),
      v.tasks = s.recalled managed →
        (∀ task, v.phase? task = s.phase? task) ∧ v.tasks.size = s.tasks.size := by
    intro v managed hv
    unfold TerminalSessionService.phase?
    rw [hv]
    exact ⟨fun task => (phase?_recalled managed s task).1, (phase?_recalled managed s 0).2⟩
  have hvacated : ∀ {groupFolder v}, Vacated s groupFolder v →
      (∀ task, v.phase? task = s.phase? task) ∧ v.tasks.size = s.tasks.size := by
    intro groupFolder v hv
    cases hv with
    | free => exact ⟨fun _ => rfl, rfl⟩
    | @drop i managed found ended => exact hkeep managed (by rw [dropSession_eq])
  -- All calls but a detach leave the tasks as they are.
  cases h with
  | idle | output => exact .inl ⟨fun _ => rfl, rfl⟩
  | @put bridge i event b managed streamEvent get? found immediate =>
    cases hq : managed.outputQueue <;> exact .inl ⟨fun _ => rfl, rfl⟩
  | createRaised hv => exact .inl (hvacated hv)
  | created hv =>
    obtain ⟨hphase, hsize⟩ := hvacated hv
    exact .inl ⟨hphase, hsize⟩
  | attached | attachRaised | reopened | exited => exact .inl (hkeep _ rfl)
  | closed => exact .inl (hkeep _ (closeWith_tasks _ _ _ _ _ _))
  | @detached _ sessionId i deadline managed managed' target found =>
    obtain ⟨hphase, hsize⟩ := hkeep (v := { s with tasks := s.recalled managed }) managed rfl
    refine .inr ⟨⟨i, managed, target⟩, ?_, sessionId, deadline, fun task => ?_⟩
    -- The new timer is the last task.
    · show ((s.recalled managed).alloc _).size = _
      rw [Heap.size_alloc]
      exact congrArg (· + 1) hsize
    · show (((s.recalled managed).alloc _).get? task).map Task.phase = _
      rw [Heap.get?_alloc, show (s.recalled managed).size = s.tasks.size from hsize]
      split
      · rfl
      · exact hphase task

theorem Resumed.tasks {failure : Option String} {phase phase' : TaskPhase}
    {u : TerminalSessionService} (h : Resumed s failure phase phase' u) : u.tasks = s.tasks := by
  cases h with
  | @persisted _ _ next =>
    cases next with
    | put queue event => cases queue <;> rfl
    | _ => rfl
  | expired => exact closeWith_tasks _ _ _ _ _ _
  | _ => rfl

/-- **The phase of a task** after a step: it is the same, or the task is new, or the step is a turn
of the task. -/
theorem Turn.phase? {a : Action} (h : Turn s a t) (task : ℕ) :
    t.phase? task = s.phase? task ∨
      (s.tasks.size ≤ task ∧ ((∃ sessionId deadline,
          t.phase? task = some (.sleeping sessionId deadline)) ∨
        ∃ phase u, Called s a phase u ∧ task = u.tasks.size ∧ t.phase? task = some phase)) ∨
      ∃ failure phase phase', a = .resume task failure ∧ s.phase? task = some phase ∧
        phase.isDone = false ∧ t.phase? task = some phase' ∧
          (phase' = .cancelled ∧ s.tasks.get? task = some { phase, cancelRequested := true } ∨
            s.tasks.get? task = some { phase, cancelRequested := false } ∧
              ∃ u, Resumed s failure phase phase' u) := by
  -- A task that is set to a phase, and the others.
  have hset : ∀ {u : TerminalSessionService} (k : ℕ) (phase : TaskPhase),
      (u.setTaskPhase k phase).phase? task =
        if task = k then (u.phase? task).map fun _ => phase else u.phase? task := by
    intro u k phase
    unfold TerminalSessionService.phase? setTaskPhase
    rw [Heap.get?_modify]
    split
    · rw [Option.map_map, Option.map_map]
      rfl
    · rfl
  cases h with
  | @call _ phase u _ called hcore =>
    have htasks : t.phase? task = if task = u.tasks.size then some phase else u.phase? task := by
      have heq : t.tasks = u.tasks.alloc { phase } := congrArg (fun s => s.tasks) hcore
      unfold TerminalSessionService.phase?
      rw [heq, Heap.get?_alloc]
      split <;> rfl
    rw [htasks]
    rcases called.phase? with ⟨hphase, hsize⟩ | ⟨-, hsize, sessionId, deadline, hphase⟩
    · split
      · rename_i heq
        exact .inr (.inl ⟨by omega, .inr ⟨phase, u, called, heq, rfl⟩⟩)
      · exact .inl (hphase task)
    · split
      · rename_i heq
        exact .inr (.inl ⟨by omega, .inr ⟨phase, u, called, heq, rfl⟩⟩)
      · rw [hphase]
        split
        · rename_i heq
          exact .inr (.inl ⟨by omega, .inl ⟨sessionId, deadline, rfl⟩⟩)
        · exact .inl rfl
  | @cancel k failure phase hget running =>
    rw [hset]
    split
    · rename_i heq
      subst heq
      have hphase : s.phase? task = some phase := by
        rw [TerminalSessionService.phase?, hget]
        rfl
      rw [hphase]
      exact .inr (.inr ⟨failure, phase, .cancelled, rfl, rfl, running, rfl, .inl ⟨rfl, hget⟩⟩)
    · exact .inl rfl
  | @resume k failure phase phase' u _ hget running resumed hcore =>
    have heq : t.phase? task = (u.setTaskPhase k phase').phase? task :=
      congrArg (fun s => s.phase? task) hcore
    have hu : u.phase? task = s.phase? task := by
      unfold TerminalSessionService.phase?
      rw [resumed.tasks]
    rw [heq, hset, hu]
    split
    · rename_i hk
      subst hk
      have hphase : s.phase? task = some phase := by
        rw [TerminalSessionService.phase?, hget]
        rfl
      rw [hphase]
      exact .inr (.inr ⟨failure, phase, phase', rfl, rfl, running, rfl, .inr ⟨hget, u, resumed⟩⟩)
    · exact .inl rfl
  | write | setClock => exact .inl rfl

/-- Tasks have a phase from their beginning on. -/
theorem Turn.phase?_some {a : Action} (h : Turn s a t) {task : ℕ} {phase : TaskPhase}
    (hphase : s.phase? task = some phase) : ∃ phase', t.phase? task = some phase' := by
  rcases h.phase? task with hsame | ⟨hnew, -⟩ | ⟨failure, phase₁, phase', -, -, -, h', -⟩
  · exact ⟨phase, hsame.trans hphase⟩
  · rw [← phase?_eq_none, hphase] at hnew
    cases hnew
  · exact ⟨phase', h'⟩

/-- A task that is resumed takes its turn. -/
theorem phase?_resume {task : ℕ} {failure : Option String} {phase : TaskPhase}
    (hget : s.tasks.get? task = some { phase, cancelRequested := false })
    (h : s.step (.resume task failure) = some t) :
    ∃ phase' u, Resumed s failure phase phase' u ∧ t.phase? task = some phase' := by
  cases resumes_of_step h with
  | cancel found =>
    rw [hget] at found
    cases found
  | @goOn _ result found running resumed =>
    obtain ⟨rfl, -⟩ := Task.mk.inj (Option.some.inj (hget.symm.trans found))
    obtain ⟨u, hresumed, hcore⟩ := resumed_of_resume resumed
    refine ⟨result.1, u, hresumed, ?_⟩
    have htasks : result.2.tasks = s.tasks :=
      (congrArg (fun s => s.tasks) hcore).trans hresumed.tasks
    simp [TerminalSessionService.phase?, setTaskPhase, htasks, hget]

/-- A task that is done stays as it is. -/
theorem Turn.phase?_done {a : Action} (h : Turn s a t) {task : ℕ} {phase : TaskPhase}
    (hphase : s.phase? task = some phase) (hdone : phase.isDone = true) :
    t.phase? task = some phase := by
  rcases h.phase? task with hsame | ⟨hnew, -⟩ | ⟨failure, phase₁, phase', -, h₁, hrunning, -⟩
  · rw [hsame, hphase]
  · rw [← phase?_eq_none, hphase] at hnew
    cases hnew
  · obtain rfl := Option.some.inj (hphase.symm.trans h₁)
    rw [hdone] at hrunning
    cases hrunning

theorem phase?_of_run {allowed : TerminalSessionService → Action → Prop} {l : List Action}
    (h : Run step allowed s l t) {task : ℕ} {phase : TaskPhase}
    (hphase : s.phase? task = some phase) (hdone : phase.isDone = true) :
    t.phase? task = some phase :=
  h.invariant (I := fun t => t.phase? task = some phase) hphase fun ht _ hstep =>
    (turn_of_step hstep).phase?_done ht hdone

/-- A creation is the next task. -/
theorem phase?_create {groupId groupFolder ownerUserId sessionId : String}
    {requestedMode : TerminalRequestedMode} {factory : Except String (Option String)}
    (h : s.step (.create groupId groupFolder ownerUserId requestedMode sessionId factory) = some t) :
    t.phase? s.tasks.size = some
      (s.createSession groupId groupFolder ownerUserId requestedMode sessionId factory).1 := by
  obtain rfl := Option.some.inj h
  obtain ⟨u, hcalled, hcore⟩ :=
    called_createSession groupId groupFolder ownerUserId requestedMode sessionId factory s
  have hsize : u.tasks.size = s.tasks.size := by
    rcases hcalled.phase? with ⟨-, hsize⟩ | ⟨⟨i, managed, htarget⟩, -⟩
    · exact hsize
    · cases htarget
  have htasks := congrArg (fun s => s.tasks) hcore
  simp only [core] at htasks
  simp [TerminalSessionService.phase?, call, htasks, hsize]

/-! ## What tasks wait for -/

section Watch

variable {β : Type} (f : TaskPhase → Option β)

/-- What `f` sees in the phase of a task. -/
def watch (s : TerminalSessionService) (task : ℕ) : Option β := (s.phase? task).bind f

theorem watch_eq_none {task : ℕ} (h : s.tasks.size ≤ task) : s.watch f task = none := by
  rw [watch, phase?_eq_none.mpr h]
  rfl

theorem watch_of_get? {task : ℕ} {phase : TaskPhase} {cancelRequested : Bool}
    (hget : s.tasks.get? task = some { phase, cancelRequested }) : s.watch f task = f phase := by
  rw [watch, TerminalSessionService.phase?, hget]
  rfl

theorem watch_setTaskPhase {task : ℕ} {phase : TaskPhase} (h : task < s.tasks.size) :
    (s.setTaskPhase task phase).watch f = Function.update (s.watch f) task (f phase) := by
  funext k
  unfold watch TerminalSessionService.phase? setTaskPhase
  rw [Heap.get?_modify]
  by_cases hk : k = task
  · obtain ⟨t, ht⟩ : ∃ t, s.tasks.get? task = some t :=
      Option.ne_none_iff_exists'.mp fun hnone => by
        rw [Heap.get?_eq_none_iff] at hnone
        omega
    rw [if_pos hk, hk, Function.update_self, ht]
    rfl
  · rw [if_neg hk, Function.update_of_ne hk]

/-- The first turn of a call adds a task. A new timer is not watched. -/
theorem Called.watch {a : Action} {phase : TaskPhase} {u : TerminalSessionService}
    (h : Called s a phase u) (hcore : t.core = { u.core with tasks := u.tasks.alloc { phase } })
    (hf : ∀ sessionId deadline, f (.sleeping sessionId deadline) = none) :
    s.tasks.size ≤ u.tasks.size ∧
      t.watch f = Function.update (s.watch f) u.tasks.size (f phase) := by
  -- The task of the call comes after all that the call has made.
  have htasks : ∀ task, t.phase? task =
      if task = u.tasks.size then some phase else u.phase? task := by
    intro task
    have heq : t.tasks = u.tasks.alloc { phase } := congrArg (fun s => s.tasks) hcore
    unfold TerminalSessionService.phase?
    rw [heq, Heap.get?_alloc]
    split <;> rfl
  have hwatch : s.tasks.size ≤ u.tasks.size ∧ u.watch f = s.watch f := by
    -- A timer that the call made is watched for nothing.
    rcases h.phase? with ⟨hphase, hsize⟩ | ⟨-, hsize, sessionId, deadline, hphase⟩
    · refine ⟨Nat.le_of_eq hsize.symm, funext fun task => ?_⟩
      rw [TerminalSessionService.watch, hphase]
      rfl
    · refine ⟨by omega, funext fun task => ?_⟩
      rw [TerminalSessionService.watch, hphase]
      split
      · rename_i hnew
        rw [hnew, watch_eq_none f (Nat.le_refl _)]
        exact hf sessionId deadline
      · rfl
  refine ⟨hwatch.1, funext fun task => ?_⟩
  rw [TerminalSessionService.watch, htasks]
  by_cases htask : task = u.tasks.size
  · rw [if_pos htask, htask, Function.update_self]
    rfl
  · rw [if_neg htask, Function.update_of_ne htask, ← hwatch.2]
    rfl

/-- A later turn of a task. -/
theorem Resumed.watch {failure : Option String} {phase phase' : TaskPhase}
    {u : TerminalSessionService} (h : Resumed s failure phase phase' u) {task : ℕ}
    (hget : s.tasks.get? task = some { phase, cancelRequested := false })
    (hcore : t.core = (u.setTaskPhase task phase').core) :
    t.watch f = Function.update (s.watch f) task (f phase') := by
  have ht : t.watch f = (u.setTaskPhase task phase').watch f :=
    congrArg (fun s => s.watch f) hcore
  have hu : u.watch f = s.watch f := by
    funext k
    unfold TerminalSessionService.watch TerminalSessionService.phase?
    rw [h.tasks]
  rw [ht, watch_setTaskPhase f (h.tasks ▸ Heap.lt_size_of_get? hget), hu]

end Watch

/-! ## Recovery -/

/-- A recovered service has no tasks. -/
theorem tasks_recoverActiveSessions (reconnectTimeoutSeconds : ℕ) (historyMaxBytes : Int)
    (snapshots : List TerminalSessionHistorySnapshot) :
    (recoverActiveSessions reconnectTimeoutSeconds historyMaxBytes snapshots).tasks = ∅ := by
  obtain ⟨_, _, _, heq⟩ :=
    recoverActiveSessions_eq reconnectTimeoutSeconds historyMaxBytes snapshots
  rw [heq]

end TerminalSessionService

end Portex
