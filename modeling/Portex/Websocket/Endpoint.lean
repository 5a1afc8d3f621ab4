import Portex.Foundation.PythonJson
import Portex.Foundation.Transition
import Portex.Registry.State
import Portex.Websocket.Events

/-!
# The endpoint of a socket

`websocket_endpoint`, for one socket: the task that reads its frames, the task that waits for the
result of its run, and the event handlers of its runs. What one of them does from one `await` to
the next is one action, and a `send_text` is an action of its own.

Of the coordinator there is what the route sees: a run that is submitted has one result, from its
backend or from `cancel`, and a backend reports events until it has answered, or has been stopped.
A backend answers with `completed`, `failed` or `timeout`. Runs of other sockets have other ids.

## Main definitions

* `parseCancelRunId`: the frames that cancel a run
* `Endpoint`, `EndpointAction`, `Endpoint.step`: the tasks over one socket

## Main results

* `Endpoint.steps_of_step`: what a step does, with what it found
-/

namespace Portex

open Foundation

variable {ι : Type} [DecidableEq ι]

/-- `_parse_cancel_run_id`. Only a `JSONDecodeError` is caught. -/
def parseCancelRunId (limits : PyLimits) (message : String) : Except LoadsError (Option PyStr) :=
  match pyLoads limits (fun _ => ()) message.toList with
  | .error .decode => .ok none
  | .error error => .error error
  | .ok (.dict payload) =>
    if (PyValue.getD payload "type").str? = some (.ofString "cancel") then
      .ok ((PyValue.getD payload "run_id").str?.filter (· ≠ []))
    else .ok none
  | .ok _ => .ok none

/-! ## State -/

/-- What the task of `wait_for_result` is about to do. -/
inductive WaitingPhase (ι : Type)
  /-- To look its run up. -/
  | starting
  /-- To take the result from the future of the run. -/
  | awaiting
  /-- To send a terminal event to the first of the sockets, or to return. -/
  | emitting (event : RunEvent) (sockets : List ι)
  /-- The same, in the handler of an exception. -/
  | failing (event : RunEvent) (sockets : List ι)
  | cancelled

/-- The sockets that the task is still to send to. -/
def WaitingPhase.sockets : WaitingPhase ι → List ι
  | .emitting _ sockets | .failing _ sockets => sockets
  | .starting | .awaiting | .cancelled => []

structure WaitingTask (ι : Type) where
  runId : String
  phase : WaitingPhase ι

/-- Where the task that reads frames is. -/
inductive EndpointReader
  | receiving
  /-- It has accepted a cancel, and waits for the waiting task to end. -/
  | cleaning (runId : String)
  /-- In the `finally` of the route. -/
  | closing
  /-- The socket has left its room. -/
  | closed
  deriving DecidableEq

/-- What the backend of a run reports. -/
inductive RunStream (ι : Type)
  | queued
  /-- It may report an event. -/
  | streaming
  /-- The event handler is about to send to the first of the sockets, or to return. -/
  | sending (event : RunEvent) (sockets : List ι)
  | closed

/-- The sockets that the event handler is still to send to. -/
def RunStream.sockets : RunStream ι → List ι
  | .sending _ sockets => sockets
  | .queued | .streaming | .closed => []

/-- What the coordinator has of a run. -/
structure EndpointRun (ι : Type) where
  groupFolder : String
  backend : String
  sessionId : String
  result : Option ExecutionResult := none
  /-- The result is among those that the coordinator keeps. -/
  retained : Bool := true
  stream : RunStream ι := .queued

/-- The route, for the socket. -/
structure Endpoint (ι : Type) where
  limits : PyLimits := defaultLimits
  reader : EndpointReader := .receiving
  activeRunId : Option String := none
  activeTask : Option (WaitingTask ι) := none
  terminalEventSeen : Bool := false
  /-- The client is gone, or the server has closed the connection. -/
  gone : Bool := false
  runs : String → Option (EndpointRun ι) := fun _ => none
  /-- What the client has received. -/
  received : List RunEvent := []

/-- What the coordinator makes of a prompt. -/
structure Submission where
  runId : String
  groupFolder : String
  backend : String
  sessionId : String

/-- A room is given as the tuple that `send_message` makes of it. -/
inductive EndpointAction (ι : Type)
  /-- A frame arrives. -/
  | receive (message : String) (submission : Submission)
  /-- The client goes away. -/
  | leave
  /-- `receive_text` raises. -/
  | disconnect
  /-- The reader goes on when the waiting task has ended; the send of its answer may fail. -/
  | answer (runId : String) (error : Option String)
  | close
  /-- The waiting task takes its run up. -/
  | wait (runId : String) (room : List ι)
  /-- The waiting task sends, and may have to report that the send has failed. -/
  | waiterSend (runId : String) (error : Option String) (room : List ι)
  /-- The backend starts on a run. -/
  | start (runId : String)
  /-- The backend reports an event. -/
  | report (runId : String) (event : RunEvent) (room : List ι)
  | handlerSend (runId : String) (error : Option String)
  /-- The backend has answered, and the coordinator has stored the result. -/
  | finish (runId : String) (result : ExecutionResult)
  /-- The stream of a run that has been cancelled is stopped. -/
  | stop (runId : String)
  /-- The coordinator drops a result that it has kept. -/
  | forget (runId : String)

namespace Endpoint

/-- A send to a socket succeeds, unless there is an error. -/
def deliver (origin socket : ι) (event : RunEvent) (error : Option String) (s : Endpoint ι) :
    Endpoint ι :=
  if socket = origin ∧ error = none ∧ s.gone = false then
    { s with received := s.received ++ [event] }
  else s

def setRun (runId : String) (run : EndpointRun ι) (s : Endpoint ι) : Endpoint ι :=
  { s with runs := Function.update s.runs runId (some run) }

/-- The room as it is: the socket is in it until it has left. -/
def IsRoom (origin : ι) (room : List ι) (s : Endpoint ι) : Prop :=
  room.Nodup ∧ (origin ∈ room ↔ s.reader ≠ .closed)

instance (origin : ι) (room : List ι) (s : Endpoint ι) : Decidable (s.IsRoom origin room) :=
  inferInstanceAs (Decidable (_ ∧ _))

/-- A send to the socket fails only when its client is gone. -/
def CanFail (origin : ι) (sockets : List ι) (error : Option String) (s : Endpoint ι) : Prop :=
  sockets.head? = some origin → error ≠ none → s.gone = true

instance (origin : ι) (sockets : List ι) (error : Option String) (s : Endpoint ι) :
    Decidable (s.CanFail origin sockets error) :=
  inferInstanceAs (Decidable (_ → _ → _))

def audience (origin : ι) (room : List ι) : Audience → List ι
  | .origin => [origin]
  | .room => room

/-! ## The waiting task -/

/-- The `finally` of `wait_for_result`. -/
def endTask (runId : String) (s : Endpoint ι) : Endpoint ι :=
  { s with
    activeRunId := if s.activeRunId = some runId then none else s.activeRunId
    activeTask := none }

def setPhase (runId : String) (phase : WaitingPhase ι) (s : Endpoint ι) : Endpoint ι :=
  { s with activeTask := some { runId, phase } }

/-- `emit_terminal_event`, up to its first send. -/
def emitTerminalEvent (origin : ι) (room : List ι) (runId : String) (result : ExecutionResult)
    (s : Endpoint ι) : Endpoint ι :=
  match terminalEventOf s.terminalEventSeen result with
  | none => s.endTask runId
  | some (target, event) => s.setPhase runId (.emitting event (audience origin room target))

/-- `wait_for_run`: the result that is kept, or the future; a `KeyError` where there is neither. -/
def waitForRun (origin : ι) (room : List ι) (runId : String) (run : EndpointRun ι)
    (s : Endpoint ι) : Endpoint ι :=
  match run.result with
  | some result =>
    if run.retained then s.emitTerminalEvent origin room runId result
    else s.setPhase runId (.failing (errorEvent runId ("'" ++ runId ++ "'")) room)
  | none => s.setPhase runId .awaiting

/-- The waiting task sends to the first of the sockets. An exception in `emit_terminal_event` is
reported to the room, and one in that report ends the task. -/
def waiterSend (origin : ι) (error : Option String) (room : List ι) (task : WaitingTask ι)
    (s : Endpoint ι) : Option (Endpoint ι) :=
  match task.phase, error with
  | .emitting _ [], _ | .failing _ [], _ => some (s.endTask task.runId)
  | .emitting event (socket :: sockets), none =>
    some ((s.deliver origin socket event none).setPhase task.runId (.emitting event sockets))
  | .emitting _ (_ :: _), some error =>
    some (s.setPhase task.runId (.failing (errorEvent task.runId error) room))
  | .failing event (socket :: sockets), none =>
    some ((s.deliver origin socket event none).setPhase task.runId (.failing event sockets))
  | .failing _ (_ :: _), some _ => some (s.endTask task.runId)
  | _, _ => none

/-! ## The reader -/

/-- `coordinator.cancel`: a run that has a result is left as it is. -/
def cancelRun (runId : String) (s : Endpoint ι) : Endpoint ι :=
  match s.runs runId with
  | some run =>
    match run.result with
    | some _ => s
    | none =>
      s.setRun runId { run with
        result := some
          { runId, groupFolder := run.groupFolder, backend := run.backend,
            sessionId := run.sessionId, status := .cancelled } }
  | none => s

/-- `task.cancel()`. -/
def cancelTask (s : Endpoint ι) : Endpoint ι :=
  { s with activeTask := s.activeTask.map fun task => { task with phase := .cancelled } }

/-- The `finally` of the route, up to the cleanup of the waiting task. -/
def disconnect (s : Endpoint ι) : Endpoint ι :=
  { (match s.activeRunId with
      | some runId => s.cancelRun runId
      | none => s).cancelTask with reader := .closing }

/-- A frame: a cancel, a blank one, or a prompt. What `json.loads` raises leaves the loop, but for a
`JSONDecodeError`. -/
def receive (message : String) (submission : Submission) (s : Endpoint ι) : Endpoint ι :=
  match parseCancelRunId s.limits message with
  | .error _ => s.disconnect
  | .ok (some cancelRunId) =>
    match s.activeRunId with
    | some runId =>
      if PyStr.ofString runId = cancelRunId then
        { (s.cancelRun runId).cancelTask with reader := .cleaning runId }
      else s
    | none => s
  | .ok none =>
    if isBlank message then s
    else if s.activeTask.isSome then s
    else
      { s.setRun submission.runId
          { groupFolder := submission.groupFolder, backend := submission.backend,
            sessionId := submission.sessionId } with
        terminalEventSeen := false
        activeRunId := some submission.runId
        activeTask := some { runId := submission.runId, phase := .starting } }

/-- The end of the branch of a cancel. An exception of its `send_text` leaves the loop. -/
def answer (origin : ι) (runId : String) (error : Option String) (s : Endpoint ι) : Endpoint ι :=
  deliver origin origin (cancelledEvent runId) error
    { s with
      reader := if error = none then .receiving else .closing
      activeRunId := none
      activeTask := none
      terminalEventSeen := true }

/-- The end of the route: the socket has left its room, and the server closes its connection. -/
def close (s : Endpoint ι) : Endpoint ι :=
  { s with reader := .closed, activeTask := none, gone := true }

/-! ## The event handlers -/

/-- `broadcast_event`, up to its first send. -/
def report (origin : ι) (runId : String) (event : RunEvent) (room : List ι)
    (run : EndpointRun ι) (s : Endpoint ι) : Endpoint ι :=
  { s.setRun runId
      { run with stream := .sending event (audience origin room (audienceOf event)) } with
    terminalEventSeen := s.terminalEventSeen || event.Ends }

/-- An event handler sends to the first of its sockets. An exception leaves the stream. -/
def handlerSend (origin : ι) (runId : String) (error : Option String) (run : EndpointRun ι)
    (s : Endpoint ι) : Option (Endpoint ι) :=
  match run.stream, error with
  | .sending _ [], _ => some (s.setRun runId { run with stream := .streaming })
  | .sending event (socket :: sockets), none =>
    some ((s.deliver origin socket event none).setRun runId
      { run with stream := .sending event sockets })
  | .sending _ (_ :: _), some _ => some (s.setRun runId { run with stream := .closed })
  | _, _ => none

/-! ## Actions -/

/-- The backend has answered: it reports nothing more. -/
def finishRun (runId : String) (result : ExecutionResult) (run : EndpointRun ι)
    (s : Endpoint ι) : Option (Endpoint ι) :=
  match run.result, run.stream with
  | none, .queued | none, .streaming | none, .closed =>
    if result.runId = runId ∧ result.status ∈ [.completed, .failed, .timeout] then
      some (s.setRun runId { run with result := some result, stream := .closed })
    else none
  | _, _ => none

def step (origin : ι) (s : Endpoint ι) : EndpointAction ι → Option (Endpoint ι)
  | .receive message submission =>
    if s.reader = .receiving ∧ (s.runs submission.runId).isNone then
      some (s.receive message submission)
    else none
  | .leave => some { s with gone := true }
  | .disconnect =>
    if s.reader = .receiving ∧ s.gone = true then some s.disconnect else none
  | .answer runId error =>
    if s.reader = .cleaning runId ∧ s.CanFail origin [origin] error then
      some (s.answer origin runId error)
    else none
  | .close =>
    if s.reader = .closing then some s.close else none
  | .wait runId room =>
    match s.activeTask, s.runs runId with
    | some task, some run =>
      if task.runId = runId ∧ s.IsRoom origin room then
        match task.phase with
        | .starting => some (s.waitForRun origin room runId run)
        | .awaiting => run.result.map fun result => s.emitTerminalEvent origin room runId result
        | _ => none
      else none
    | _, _ => none
  | .waiterSend runId error room =>
    match s.activeTask with
    | some task =>
      if task.runId = runId ∧ s.IsRoom origin room ∧ s.CanFail origin task.phase.sockets error then
        s.waiterSend origin error room task
      else none
    | none => none
  | .start runId =>
    match s.runs runId with
    | some run =>
      match run.result, run.stream with
      | none, .queued => some (s.setRun runId { run with stream := .streaming })
      | _, _ => none
    | none => none
  | .report runId event room =>
    match s.runs runId with
    | some run =>
      match run.stream with
      | .streaming =>
        if event.runId = runId ∧ s.IsRoom origin room then
          some (s.report origin runId event room run)
        else none
      | _ => none
    | none => none
  | .handlerSend runId error =>
    match s.runs runId with
    | some run =>
      if s.CanFail origin run.stream.sockets error then s.handlerSend origin runId error run
      else none
    | none => none
  | .finish runId result =>
    match s.runs runId with
    | some run => s.finishRun runId result run
    | none => none
  | .stop runId =>
    match s.runs runId with
    | some run =>
      if run.result.isSome then some (s.setRun runId { run with stream := .closed }) else none
    | none => none
  | .forget runId =>
    match s.runs runId with
    | some run =>
      if run.result.isSome then some (s.setRun runId { run with retained := false }) else none
    | none => none

/-! ### What a step does -/

/-- The steps of each action, with what they found. -/
inductive Steps (origin : ι) (s : Endpoint ι) : EndpointAction ι → Endpoint ι → Prop
  | receive {message : String} {submission : Submission} (reader : s.reader = .receiving)
      (fresh : s.runs submission.runId = none) :
      Steps origin s (.receive message submission) (s.receive message submission)
  | leave : Steps origin s .leave { s with gone := true }
  | disconnect (reader : s.reader = .receiving) (gone : s.gone = true) :
      Steps origin s .disconnect s.disconnect
  | answer {runId : String} {error : Option String} (reader : s.reader = .cleaning runId)
      (canFail : s.CanFail origin [origin] error) :
      Steps origin s (.answer runId error) (s.answer origin runId error)
  | close (reader : s.reader = .closing) : Steps origin s .close s.close
  | waitForRun {task : WaitingTask ι} {run : EndpointRun ι} {room : List ι}
      (active : s.activeTask = some task) (found : s.runs task.runId = some run)
      (isRoom : s.IsRoom origin room) (phase : task.phase = .starting) :
      Steps origin s (.wait task.runId room) (s.waitForRun origin room task.runId run)
  | emit {task : WaitingTask ι} {run : EndpointRun ι} {room : List ι} {result : ExecutionResult}
      (active : s.activeTask = some task) (found : s.runs task.runId = some run)
      (isRoom : s.IsRoom origin room) (phase : task.phase = .awaiting)
      (ended : run.result = some result) :
      Steps origin s (.wait task.runId room) (s.emitTerminalEvent origin room task.runId result)
  | waiterSend {task : WaitingTask ι} {error : Option String} {room : List ι} {t : Endpoint ι}
      (active : s.activeTask = some task) (isRoom : s.IsRoom origin room)
      (canFail : s.CanFail origin task.phase.sockets error)
      (sent : s.waiterSend origin error room task = some t) :
      Steps origin s (.waiterSend task.runId error room) t
  | start {runId : String} {run : EndpointRun ι} (found : s.runs runId = some run)
      (pending : run.result = none) (stream : run.stream = .queued) :
      Steps origin s (.start runId) (s.setRun runId { run with stream := .streaming })
  | report {event : RunEvent} {room : List ι} {run : EndpointRun ι}
      (found : s.runs event.runId = some run) (stream : run.stream = .streaming)
      (isRoom : s.IsRoom origin room) :
      Steps origin s (.report event.runId event room) (s.report origin event.runId event room run)
  | handlerSend {runId : String} {error : Option String} {run : EndpointRun ι} {t : Endpoint ι}
      (found : s.runs runId = some run) (canFail : s.CanFail origin run.stream.sockets error)
      (sent : s.handlerSend origin runId error run = some t) :
      Steps origin s (.handlerSend runId error) t
  | finish {runId : String} {result : ExecutionResult} {run : EndpointRun ι} {t : Endpoint ι}
      (found : s.runs runId = some run) (finished : s.finishRun runId result run = some t) :
      Steps origin s (.finish runId result) t
  | stop {runId : String} {run : EndpointRun ι} (found : s.runs runId = some run)
      (ended : run.result.isSome = true) :
      Steps origin s (.stop runId) (s.setRun runId { run with stream := .closed })
  | forget {runId : String} {run : EndpointRun ι} (found : s.runs runId = some run)
      (ended : run.result.isSome = true) :
      Steps origin s (.forget runId) (s.setRun runId { run with retained := false })

/-- **Every step** is one of these. -/
theorem steps_of_step {origin : ι} {s t : Endpoint ι} {a : EndpointAction ι}
    (h : s.step origin a = some t) : Steps origin s a t := by
  cases a with
  | receive message submission =>
    obtain ⟨⟨hreader, hfresh⟩, h⟩ := Option.ite_none_right_eq_some.mp h
    exact Option.some.inj h ▸ .receive hreader (Option.isNone_iff_eq_none.mp hfresh)
  | leave => exact Option.some.inj h ▸ .leave
  | disconnect =>
    obtain ⟨⟨hreader, hgone⟩, h⟩ := Option.ite_none_right_eq_some.mp h
    exact Option.some.inj h ▸ .disconnect hreader hgone
  | answer runId error =>
    obtain ⟨⟨hreader, herror⟩, h⟩ := Option.ite_none_right_eq_some.mp h
    exact Option.some.inj h ▸ .answer hreader herror
  | close =>
    obtain ⟨hreader, h⟩ := Option.ite_none_right_eq_some.mp h
    exact Option.some.inj h ▸ .close hreader
  | wait runId room =>
    simp only [step] at h
    split at h
    · rename_i task run htask hrun
      obtain ⟨⟨rfl, hroom⟩, h⟩ := Option.ite_none_right_eq_some.mp h
      split at h
      · rename_i hphase
        exact Option.some.inj h ▸ .waitForRun htask hrun hroom hphase
      · rename_i hphase
        obtain ⟨result, hresult, rfl⟩ := Option.map_eq_some_iff.mp h
        exact .emit htask hrun hroom hphase hresult
      · cases h
    · cases h
  | waiterSend runId error room =>
    simp only [step] at h
    split at h
    · rename_i task htask
      obtain ⟨⟨rfl, hroom, herror⟩, hsent⟩ := Option.ite_none_right_eq_some.mp h
      exact .waiterSend htask hroom herror hsent
    · cases h
  | start runId =>
    simp only [step] at h
    split at h
    · rename_i run hrun
      split at h
      · rename_i hresult hstream
        exact Option.some.inj h ▸ .start hrun hresult hstream
      · cases h
    · cases h
  | report runId event room =>
    simp only [step] at h
    split at h
    · rename_i run hrun
      split at h
      · rename_i hstream
        obtain ⟨⟨rfl, hroom⟩, h⟩ := Option.ite_none_right_eq_some.mp h
        exact Option.some.inj h ▸ .report hrun hstream hroom
      · cases h
    · cases h
  | handlerSend runId error =>
    simp only [step] at h
    split at h
    · rename_i run hrun
      obtain ⟨herror, hsent⟩ := Option.ite_none_right_eq_some.mp h
      exact .handlerSend hrun herror hsent
    · cases h
  | finish runId result =>
    simp only [step] at h
    split at h
    · rename_i run hrun
      exact .finish hrun h
    · cases h
  | stop runId =>
    simp only [step] at h
    split at h
    · rename_i run hrun
      obtain ⟨hended, h⟩ := Option.ite_none_right_eq_some.mp h
      exact Option.some.inj h ▸ .stop hrun hended
    · cases h
  | forget runId =>
    simp only [step] at h
    split at h
    · rename_i run hrun
      obtain ⟨hended, h⟩ := Option.ite_none_right_eq_some.mp h
      exact Option.some.inj h ▸ .forget hrun hended
    · cases h

end Endpoint

end Portex
