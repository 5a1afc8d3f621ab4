import Portex.Terminal.Operations
import Portex.Foundation.Transition

/-!
# The terminal session service under the event loop

What a call does between two awaits is one action, and any order of enabled actions is a run. The
sleep of an expiry timer is not tied to the clock that the service reads.

## Main definitions

* `TerminalSessionService.Action`, `TerminalSessionService.step`: the actions and what they do
* `TerminalSessionService.Fresh`: a new session has an id of its own
* `TerminalSessionService.currentConnection`: the connection that attached most recently, until it
  leaves or the session ends
-/

namespace Portex

open Foundation

namespace TerminalSessionService

inductive Action
  /-- `sessionId` is the uuid drawn, `factory` what the bridge factory does. -/
  | create (groupId groupFolder ownerUserId : String) (requestedMode : TerminalRequestedMode)
      (sessionId : String) (factory : Except String (Option String))
  /-- A websocket connects. -/
  | attach (sessionId ownerUserId : String) (factory : Except String (Option String))
  /-- The `finally` block of a websocket that was not closed by a frame. -/
  | disconnect (connection : ℕ)
  /-- A `terminal.close` frame. -/
  | closeFrame (connection : ℕ)
  /-- A call of `detach_session` by no websocket. -/
  | detach (sessionId ownerUserId : String)
  | close (sessionId ownerUserId : String)
  | closeByGroup (groupFolder ownerUserId : String)
  | forceClose (groupFolder : String)
  | bridgeEvent (bridge : ℕ) (event : TerminalBridgeEvent)
  /-- What a task awaits ends, for a bridge with or without an error. -/
  | resume (task : ℕ) (failure : Option String)
  /-- The thread of a persist job finishes. An error of the file system is swallowed. -/
  | write (job : ℕ) (failed : Bool)
  | setClock (now : ℕ)

/-- A new task runs a call up to its first await. -/
def call (result : TaskPhase × TerminalSessionService) : TerminalSessionService :=
  { result.2 with tasks := result.2.tasks.alloc { phase := result.1 } }

/-- A websocket whose `attach_session` does not raise at once becomes a connection. -/
def connect (sessionId ownerUserId : String) (queue : ℕ)
    (result : TaskPhase × TerminalSessionService) : TerminalSessionService :=
  match result with
  | (.raised error, s) => call (.raised error, s)
  | (phase, s) =>
    call (phase,
      { s with
        connections := s.connections.alloc
          { sessionId, ownerUserId, attachCall := s.tasks.size, queue }
        history := s.history ++ [.attached s.connections.size sessionId] })

/-- The connection got its queue, and has not left. -/
def isOpen (connection : Connection) (s : TerminalSessionService) : Bool :=
  !connection.left && match (s.tasks.get? connection.attachCall).map Task.phase with
    | some (.returned (.attached _ _)) => true
    | _ => false

def openConnection (connection : ℕ) (s : TerminalSessionService) : Option Connection :=
  (s.connections.get? connection).filter fun c => s.isOpen c

def leave (connection : ℕ) (s : TerminalSessionService) : TerminalSessionService :=
  { s with
    connections := s.connections.modify connection fun c => { c with left := true }
    history := s.history ++ [.left connection] }

def setTaskPhase (task : ℕ) (phase : TaskPhase) (s : TerminalSessionService) :
    TerminalSessionService :=
  { s with tasks := s.tasks.modify task fun t => { t with phase } }

def resumeTask (task : ℕ) (failure : Option String) (s : TerminalSessionService) :
    Option TerminalSessionService :=
  match s.tasks.get? task with
  | none => none
  | some { phase, cancelRequested } =>
    if phase.isDone then none
    else if cancelRequested then some (s.setTaskPhase task .cancelled)
    else (s.resume phase failure).map fun result => result.2.setTaskPhase task result.1

def writeJob (job : ℕ) (failed : Bool) (s : TerminalSessionService) :
    Option TerminalSessionService :=
  match s.jobs.get? job with
  | none => none
  | some { snapshot, done } =>
    if done then none
    else some { s with
      jobs := s.jobs.modify job fun j => { j with done := true }
      written := if failed then s.written else s.written ++ [snapshot] }

def step (s : TerminalSessionService) : Action → Option TerminalSessionService
  | .create groupId groupFolder ownerUserId requestedMode sessionId factory =>
    some (call (s.createSession groupId groupFolder ownerUserId requestedMode sessionId factory))
  | .attach sessionId ownerUserId factory =>
    some (connect sessionId ownerUserId s.queues.size
      (s.attachSession sessionId ownerUserId factory))
  | .disconnect connection => (s.openConnection connection).map fun c =>
    call ((s.leave connection).detachSession c.sessionId c.ownerUserId)
  | .closeFrame connection => (s.openConnection connection).map fun c =>
    call ((s.leave connection).closeSession c.sessionId c.ownerUserId)
  | .detach sessionId ownerUserId => some (call (s.detachSession sessionId ownerUserId))
  | .close sessionId ownerUserId => some (call (s.closeSession sessionId ownerUserId))
  | .closeByGroup groupFolder ownerUserId =>
    some (call (s.closeSessionByGroup groupFolder ownerUserId))
  | .forceClose groupFolder => some (call (s.forceCloseSessionByGroup groupFolder))
  | .bridgeEvent bridge event => (s.bridges.get? bridge).map fun b =>
    call (s.handleBridgeEvent b.sessionId event)
  | .resume task failure => s.resumeTask task failure
  | .write job failed => s.writeJob job failed
  | .setClock now => some { s with now }

/-- Session ids are uuids: no session has had the new one before. -/
def Fresh (s : TerminalSessionService) : Action → Prop
  | .create _ _ _ _ sessionId _ => ∀ managed ∈ s.sessions.cells, managed.record.sessionId ≠ sessionId
  | _ => True

instance (s : TerminalSessionService) : DecidablePred s.Fresh
  | .create _ _ _ _ sessionId _ => inferInstanceAs
    (Decidable (∀ managed ∈ s.sessions.cells, managed.record.sessionId ≠ sessionId))
  | .attach _ _ _ | .disconnect _ | .closeFrame _ | .detach _ _ | .close _ _ | .closeByGroup _ _
  | .forceClose _ | .bridgeEvent _ _ | .resume _ _ | .write _ _ | .setClock _ =>
    inferInstanceAs (Decidable True)

/-- What an entry of the history makes of the current connection of a session. -/
def follow (sessionId : String) (current : Option ℕ) : HistoryEntry → Option ℕ
  | .attached connection sessionId' => if sessionId' = sessionId then some connection else current
  | .left connection => if current = some connection then none else current
  | .ended sessionId' => if sessionId' = sessionId then none else current

/-- The connection that attached to a session most recently, until it leaves or the session is
closed or exits. -/
def currentConnection (s : TerminalSessionService) (sessionId : String) : Option ℕ :=
  s.history.foldl (follow sessionId) none

end TerminalSessionService

end Portex
