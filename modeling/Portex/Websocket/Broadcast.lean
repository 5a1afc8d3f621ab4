import Portex.Websocket.Events

/-!
# Broadcasts and broken sockets

The events of a run go to its room, one `send_text` after the other, from the event handler of the
run itself. An exception of one of them ends the loop over the room, the stream of the run, and
with it the run.

## Main definitions

* `Room`, `Sends`: the sockets of a room, and which of their sends fail
* `OpenAIRun`: a run of the runtime backend, by what its runtime streams
* `AttemptEnd`: how a stream ends; a client may cancel it
* `serve`: the run, from its first event to the end of the task that waits for its result
* `Noninterfering`: the other members make no difference
* `Alone`, `Silent`: there is no other member, or nothing is sent to the room

## Main results

* `serve_congr`: a run depends on the sends in its room alone
* `serve_silent`: a silent run of which its origin hears, or nobody
* `noninterfering_iff`: when the other members make no difference
-/

namespace Portex

open Foundation Coordinator

variable {ι : Type} [DecidableEq ι]

/-! ## Sending -/

/-- A call of `send_text`, and the exception it raised. -/
structure Delivery (ι : Type) where
  member : ι
  event : RunEvent
  error : Option String

/-- The exceptions of the sends to each member, in order. -/
abbrev Sends (ι : Type) := ι → ℕ → Option String

/-- The sockets of a room, in the order of the loop over them. -/
structure Room (ι : Type) where
  members : List ι
  nodup : members.Nodup
  origin : ι
  origin_mem : origin ∈ members

def sendText (sends : Sends ι) (member : ι) (event : RunEvent) (wire : List (Delivery ι)) :
    Option String × List (Delivery ι) :=
  let error := sends member (wire.countP fun delivery => delivery.member = member)
  (error, wire ++ [⟨member, event, error⟩])

/-- `ConnectionManager.send_message`: the loop ends with the first exception. -/
def sendMessage (sends : Sends ι) (event : RunEvent) :
    List ι → List (Delivery ι) → Option String × List (Delivery ι)
  | [], wire => (none, wire)
  | member :: members, wire =>
    match sendText sends member event wire with
    | (some error, wire) => (some error, wire)
    | (none, wire) => sendMessage sends event members wire

def Room.send (room : Room ι) (sends : Sends ι) (audience : Audience) (event : RunEvent)
    (wire : List (Delivery ι)) : Option String × List (Delivery ι) :=
  match audience with
  | .origin => sendText sends room.origin event wire
  | .room => sendMessage sends event room.members wire

/-! ## The run -/

/-- What a run has sent so far, and the flag of the route. -/
structure Served (ι : Type) where
  wire : List (Delivery ι) := []
  terminalEventSeen : Bool := false

/-- The event handler of the route. -/
def broadcastEvent (room : Room ι) (sends : Sends ι) (event : RunEvent) (s : Served ι) :
    Option String × Served ι :=
  let (error, wire) := room.send sends (audienceOf event) event s.wire
  (error, { wire, terminalEventSeen := s.terminalEventSeen || event.Ends })

/-- `consume_runtime_events`: an exception of the handler leaves the stream. -/
def consume (room : Room ι) (sends : Sends ι) : List RunEvent → RuntimeReplyCollector →
    Served ι → Except String RuntimeReplyCollector × Served ι
  | [], collector, s => (.ok collector, s)
  | event :: events, collector, s =>
    match broadcastEvent room sends event s with
    | (some error, s) => (.error error, s)
    | (none, s) => consume room sends events (collector.handleEvent event) s

/-- How the stream of a runtime ends. -/
inductive AttemptEnd
  | finished
  /-- An `OpenAIRuntimeSessionError`. -/
  | sessionError (message : String)
  /-- Any other `Exception`. -/
  | raised (message : String)
  /-- The client cancels the run. Until the stream is closed it may go on for some events, before
  and after the route answers the client. -/
  | cancelled (before after : List RunEvent)

/-- What a runtime streams. -/
structure StreamedAttempt where
  events : List RunEvent
  ending : AttemptEnd

/-- A run of the runtime backend: its request, and what the runtime streams at the first call and
at a retry. -/
structure OpenAIRun where
  request : ExecutionRequest
  runId : String
  sessionId : String
  retrySessionId : String
  first : StreamedAttempt
  second : StreamedAttempt

def OpenAIRun.execution (run : OpenAIRun) : Execution where
  request := run.request
  runId := run.runId
  backendName := "openai_runtime"
  workspaceKey := buildSlotWorkspaceKey run.request.groupFolder run.request.slotId
  sessionId := run.sessionId

def RunStatus.execution : RunStatus → ExecutionStatus
  | .completed => .completed
  | .failed => .failed
  | .timeout => .timeout

/-- The result that `cancel` stores for the run. -/
def cancelledResult (execution : Execution) (sessionId : String) : ExecutionResult where
  runId := execution.runId
  groupFolder := execution.request.groupFolder
  backend := execution.backendName
  sessionId
  slotId := execution.request.slotId
  status := .cancelled

/-- The dict that `OpenAIRuntimeBackend.execute` answers with. -/
def rawResult (result : RunResult) : RawResult where
  status := some result.status.execution
  finalOutput := result.finalOutput
  error := result.error
  timeoutMs := result.timeoutMs

/-- The route accepts a cancel. Nobody hears of an exception that closes the stream from now on. -/
def serveCancel (room : Room ι) (sends : Sends ι) (runId : String) (before after : List RunEvent)
    (collector : RuntimeReplyCollector) (s : Served ι) : Served ι :=
  let (outcome, s) := consume room sends before collector s
  let s : Served ι :=
    { wire := (sendText sends room.origin (cancelledEvent runId) s.wire).2
      terminalEventSeen := true }
  match outcome with
  | .ok collector => (consume room sends after collector s).2
  | .error _ => s

/-- A call of the backend, and what `_run_backend_with_timeout` makes of it. A
`SessionResumeFailedError` is left to the caller, and any other exception is a failed result. -/
def runAttempt (room : Room ι) (sends : Sends ι) (execution : Execution) (sessionId : String)
    (attempt : StreamedAttempt) (s : Served ι) : Except String ExecutionResult × Served ι :=
  match consume room sends attempt.events { runId := execution.runId } s with
  | (.error error, s) => (.ok (failedResult execution sessionId error), s)
  | (.ok collector, s) =>
    match attempt.ending with
    | .finished =>
      let raw := rawResult collector.buildResult
      (.ok
        { runId := execution.runId
          groupFolder := execution.request.groupFolder
          backend := execution.backendName
          sessionId
          slotId := execution.request.slotId
          status := raw.status.getD .completed
          finalOutput := raw.finalOutput
          error := raw.error
          timeoutMs := raw.timeoutMs }, s)
    | .sessionError message => (.error message, s)
    | .raised message => (.ok (failedResult execution sessionId message), s)
    | .cancelled before after =>
      (.ok (cancelledResult execution sessionId),
        serveCancel room sends execution.runId before after collector s)

/-- `_execute_backend_with_lifecycle`, up to the result. -/
def executeRun (room : Room ι) (sends : Sends ι) (run : OpenAIRun) : ExecutionResult × Served ι :=
  match runAttempt room sends run.execution run.sessionId run.first {} with
  | (.ok result, s) => (result, s)
  | (.error message, s) =>
    if shouldRetrySessionResume run.execution true then
      match runAttempt room sends run.execution run.retrySessionId run.second s with
      | (.ok result, s) => (result, s)
      | (.error message, s) => (failedResult run.execution run.retrySessionId message, s)
    else (failedResult run.execution run.sessionId message, s)

/-- `wait_for_result`, once the result is there. The handler of an exception sends to the room,
past the broadcaster. -/
def waitForResult (room : Room ι) (sends : Sends ι) (result : ExecutionResult) (s : Served ι) :
    Served ι :=
  match terminalEventOf s.terminalEventSeen result with
  | none => s
  | some (audience, event) =>
    match room.send sends audience event s.wire with
    | (none, wire) => { s with wire }
    | (some error, wire) =>
      { s with wire := (sendMessage sends (errorEvent result.runId error) room.members wire).2 }

def serve (room : Room ι) (sends : Sends ι) (run : OpenAIRun) : ExecutionResult × Served ι :=
  let (result, s) := executeRun room sends run
  -- A route that cancels the run has stopped the task that waits for its result.
  (result, if result.status = .cancelled then s else waitForResult room sends result s)

/-- What a member receives. -/
def delivered (member : ι) (wire : List (Delivery ι)) : List RunEvent :=
  wire.filterMap fun delivery =>
    if delivery.member = member ∧ delivery.error = none then some delivery.event else none

/-! ## The property and its condition -/

/-- No send to the member fails. -/
def Sound (sends : Sends ι) (member : ι) : Prop := ∀ n, sends member n = none

/-- Whatever happens to the sends to the others but the origin, the member receives the same events,
and the run has the same result. The room is a set: the loop may take its members in any order. -/
def Noninterfering (room : Room ι) (member : ι) (run : OpenAIRun) : Prop :=
  ∀ order : Room ι, order.origin = room.origin → order.members.Perm room.members →
    ∀ sends sends' : Sends ι, Sound sends member → Sound sends' member →
      sends room.origin = sends' room.origin →
        delivered member (serve order sends run).2.wire =
          delivered member (serve order sends' run).2.wire ∧
        (serve order sends run).1 = (serve order sends' run).1

/-- The member and the originating socket are the only ones. -/
def Alone (room : Room ι) (member : ι) : Prop :=
  ∀ other ∈ room.members, other = member ∨ other = room.origin

/-- The backend is called a second time. -/
def OpenAIRun.retried (run : OpenAIRun) : Bool :=
  match run.first.ending with
  | .sessionError _ => shouldRetrySessionResume run.execution true
  | _ => false

def OpenAIRun.attempts (run : OpenAIRun) : List StreamedAttempt :=
  if run.retried then [run.first, run.second] else [run.first]

def OpenAIRun.lastAttempt (run : OpenAIRun) : StreamedAttempt :=
  if run.retried then run.second else run.first

def OpenAIRun.lastSessionId (run : OpenAIRun) : String :=
  if run.retried then run.retrySessionId else run.sessionId

/-- Nothing is sent to the room once the stream ends so. -/
def AttemptEnd.Quiet : AttemptEnd → Prop
  | .finished => True
  | .sessionError _ | .raised _ => False
  | .cancelled before after => ∀ event ∈ before ++ after, event.eventType = .runStarted

/-- The run completes or is cancelled, and its runtime reports nothing but that it started. -/
def OpenAIRun.Silent (run : OpenAIRun) : Prop :=
  (∀ attempt ∈ run.attempts, ∀ event ∈ attempt.events, event.eventType = .runStarted) ∧
    run.lastAttempt.ending.Quiet

/-- Nothing comes before the last stream ends. -/
def OpenAIRun.Mute (run : OpenAIRun) : Prop := ∀ attempt ∈ run.attempts, attempt.events = []

/-! ## A run depends on the sends in its room -/

section Congruence

variable {room : Room ι} {sends sends' : Sends ι}

theorem sendText_congr {member : ι} (h : sends member = sends' member) (event : RunEvent)
    (wire : List (Delivery ι)) :
    sendText sends member event wire = sendText sends' member event wire := by
  unfold sendText
  rw [h]

theorem sendMessage_congr {members : List ι} (h : ∀ member ∈ members, sends member = sends' member)
    (event : RunEvent) (wire : List (Delivery ι)) :
    sendMessage sends event members wire = sendMessage sends' event members wire := by
  induction members generalizing wire with
  | nil => rfl
  | cons member members ih =>
    unfold sendMessage
    rw [sendText_congr (h member List.mem_cons_self)]
    split
    · rfl
    · exact ih (fun other hother => h other (List.mem_cons_of_mem _ hother)) _

theorem Room.send_congr (h : ∀ member ∈ room.members, sends member = sends' member)
    (audience : Audience) (event : RunEvent) (wire : List (Delivery ι)) :
    room.send sends audience event wire = room.send sends' audience event wire := by
  cases audience with
  | origin => exact sendText_congr (h room.origin room.origin_mem) event wire
  | room => exact sendMessage_congr h event wire

theorem consume_congr (h : ∀ member ∈ room.members, sends member = sends' member)
    (events : List RunEvent) (collector : RuntimeReplyCollector) (s : Served ι) :
    consume room sends events collector s = consume room sends' events collector s := by
  induction events generalizing collector s with
  | nil => rfl
  | cons event events ih =>
    unfold consume broadcastEvent
    rw [Room.send_congr h]
    simp only
    split
    · rfl
    · exact ih _ _

theorem executeRun_congr (h : ∀ member ∈ room.members, sends member = sends' member)
    (run : OpenAIRun) : executeRun room sends run = executeRun room sends' run := by
  unfold executeRun runAttempt serveCancel
  simp only [consume_congr h, sendText_congr (h room.origin room.origin_mem)]

/-- **A run depends on the sends in its room** alone. -/
theorem serve_congr (h : ∀ member ∈ room.members, sends member = sends' member)
    (run : OpenAIRun) : serve room sends run = serve room sends' run := by
  unfold serve waitForResult
  simp only [executeRun_congr h, Room.send_congr h, sendMessage_congr h]

end Congruence

/-! ## Silent runs -/

section Silent

variable {room : Room ι} {sends : Sends ι}

/-- What the origin has received after some events that it alone is told. -/
def startedWire (room : Room ι) (events : List RunEvent) (wire : List (Delivery ι)) :
    List (Delivery ι) :=
  wire ++ events.map fun event => ⟨room.origin, event, none⟩

theorem not_ends_of_started {event : RunEvent} (h : event.eventType = .runStarted) :
    ¬ event.Ends := by
  rintro (hends | hends | hends) <;> simp [h] at hends

theorem handleEvent_of_started {event : RunEvent} (h : event.eventType = .runStarted)
    (collector : RuntimeReplyCollector) : collector.handleEvent event = collector := by
  unfold RuntimeReplyCollector.handleEvent
  rw [h]

theorem consume_of_sent {event : RunEvent} {s s' : Served ι}
    (h : broadcastEvent room sends event s = (none, s')) (events : List RunEvent)
    (collector : RuntimeReplyCollector) :
    consume room sends (event :: events) collector s =
      consume room sends events (collector.handleEvent event) s' := by
  simp [consume, h]

theorem consume_of_error {event : RunEvent} {s s' : Served ι} {error : String}
    (h : broadcastEvent room sends event s = (some error, s')) (events : List RunEvent)
    (collector : RuntimeReplyCollector) :
    consume room sends (event :: events) collector s = (.error error, s') := by
  simp [consume, h]

/-- The start of a run is told to its origin, and changes nothing else. -/
theorem consume_started {events : List RunEvent}
    (hevents : ∀ event ∈ events, event.eventType = .runStarted)
    (horigin : Sound sends room.origin ∨ events = []) (rest : List RunEvent)
    (collector : RuntimeReplyCollector) (s : Served ι) :
    consume room sends (events ++ rest) collector s =
      consume room sends rest collector { s with wire := startedWire room events s.wire } := by
  induction events generalizing s with
  | nil => simp [startedWire]
  | cons event events ih =>
    have hsound : Sound sends room.origin := horigin.resolve_right (List.cons_ne_nil _ _)
    have hstarted := hevents event List.mem_cons_self
    have haudience : audienceOf event = .origin := if_pos hstarted
    have hsent : broadcastEvent room sends event s =
        (none, { s with wire := startedWire room [event] s.wire }) := by
      simp [broadcastEvent, haudience, Room.send, sendText, hsound _, startedWire,
        not_ends_of_started hstarted]
    rw [List.cons_append, consume_of_sent hsent, handleEvent_of_started hstarted,
      ih (fun other hother => hevents other (List.mem_cons_of_mem _ hother)) (.inl hsound)]
    simp [startedWire]

/-- It depends on the sends to the origin alone, also where they fail. -/
theorem consume_origin_congr {sends' : Sends ι} (horigin : sends room.origin = sends' room.origin)
    {events : List RunEvent} (hevents : ∀ event ∈ events, event.eventType = .runStarted)
    (collector : RuntimeReplyCollector) (s : Served ι) :
    consume room sends events collector s = consume room sends' events collector s := by
  induction events generalizing collector s with
  | nil => rfl
  | cons event events ih =>
    have haudience : audienceOf event = .origin := if_pos (hevents event List.mem_cons_self)
    have hsend : broadcastEvent room sends event s = broadcastEvent room sends' event s := by
      simp only [broadcastEvent, haudience, Room.send, sendText_congr horigin]
    unfold consume
    rw [hsend]
    split
    · rfl
    · exact ih (fun other hother => hevents other (List.mem_cons_of_mem _ hother)) _ _

/-- The result of a run whose runtime says nothing of how it went. -/
def completedResult (execution : Execution) (sessionId : String) : ExecutionResult where
  runId := execution.runId
  groupFolder := execution.request.groupFolder
  backend := execution.backendName
  sessionId
  slotId := execution.request.slotId
  status := .completed

/-- The result of a run whose last stream ends so, after nothing but its start. -/
def AttemptEnd.result (execution : Execution) (sessionId : String) :
    AttemptEnd → ExecutionResult
  | .finished => completedResult execution sessionId
  | .sessionError message | .raised message => failedResult execution sessionId message
  | .cancelled _ _ => cancelledResult execution sessionId

/-- What is still sent as a stream ends. -/
def AttemptEnd.serve (room : Room ι) (sends : Sends ι) (runId : String) (s : Served ι) :
    AttemptEnd → Served ι
  | .cancelled before after => serveCancel room sends runId before after { runId } s
  | _ => s

/-- An attempt of which the runtime reports nothing but that it started. -/
theorem runAttempt_started {attempt : StreamedAttempt}
    (hevents : ∀ event ∈ attempt.events, event.eventType = .runStarted)
    (horigin : Sound sends room.origin ∨ attempt.events = []) (execution : Execution)
    (sessionId : String) (s : Served ι) :
    runAttempt room sends execution sessionId attempt s =
      (match attempt.ending with
        | .sessionError message => .error message
        | ending => .ok (ending.result execution sessionId),
        attempt.ending.serve room sends execution.runId
          { s with wire := startedWire room attempt.events s.wire }) := by
  have hconsume := consume_started hevents horigin [] { runId := execution.runId } s
  rw [List.append_nil] at hconsume
  unfold runAttempt
  rw [hconsume]
  unfold consume
  cases attempt.ending with
  | finished => rfl
  | sessionError message => rfl
  | raised message => rfl
  | cancelled before after => rfl

omit [DecidableEq ι] in
theorem startedWire_append (room : Room ι) (events events' : List RunEvent)
    (wire : List (Delivery ι)) :
    startedWire room events' (startedWire room events wire) =
      startedWire room (events ++ events') wire := by
  simp [startedWire]

theorem OpenAIRun.first_mem (run : OpenAIRun) : run.first ∈ run.attempts := by
  unfold OpenAIRun.attempts
  split <;> simp

theorem OpenAIRun.eq_second {run : OpenAIRun} {attempt : StreamedAttempt}
    (h : attempt ∈ run.attempts) (hne : attempt ≠ run.first) :
    run.retried = true ∧ attempt = run.second := by
  unfold OpenAIRun.attempts at h
  split at h
  · rename_i hretried
    rcases List.mem_cons.mp h with hfirst | hsecond
    · exact absurd hfirst hne
    · exact ⟨hretried, List.mem_singleton.mp hsecond⟩
  · exact absurd (List.mem_singleton.mp h) hne

/-- A run that is retried has the result of its second attempt. -/
theorem executeRun_retried {run : OpenAIRun} (hretried : run.retried = true)
    (hfirst : ∀ event ∈ run.first.events, event.eventType = .runStarted)
    (horigin : Sound sends room.origin ∨ run.first.events = []) {result : ExecutionResult}
    {s : Served ι}
    (hsecond : runAttempt room sends run.execution run.retrySessionId run.second
      { wire := startedWire room run.first.events [] } = (.ok result, s)) :
    executeRun room sends run = (result, s) := by
  unfold executeRun
  rw [runAttempt_started hfirst horigin]
  unfold OpenAIRun.retried at hretried
  -- Only an error of the session lets the run be retried.
  cases hending : run.first.ending with
  | finished | raised message | cancelled before after =>
    rw [hending] at hretried
    cases hretried
  | sessionError message =>
    rw [hending] at hretried
    simp only [AttemptEnd.serve]
    rw [if_pos hretried, hsecond]

/-- A run of which the runtime reports nothing but that it started, up to the end of its last
stream. -/
theorem executeRun_started {run : OpenAIRun}
    (hevents : ∀ attempt ∈ run.attempts, ∀ event ∈ attempt.events,
      event.eventType = .runStarted)
    (horigin : Sound sends room.origin ∨ run.Mute) :
    executeRun room sends run =
      (run.lastAttempt.ending.result run.execution run.lastSessionId,
        run.lastAttempt.ending.serve room sends run.runId
          { wire := startedWire room (run.attempts.flatMap StreamedAttempt.events) [] }) := by
  unfold executeRun
  rw [runAttempt_started (hevents _ run.first_mem) (horigin.imp id fun hmute =>
    hmute _ run.first_mem) run.execution run.sessionId]
  have hnot (h : run.retried = false) : run.attempts = [run.first] ∧
      run.lastAttempt = run.first ∧ run.lastSessionId = run.sessionId := by
    simp [OpenAIRun.attempts, OpenAIRun.lastAttempt, OpenAIRun.lastSessionId, h]
  cases hending : run.first.ending with
  | sessionError message =>
    have hretried : run.retried = shouldRetrySessionResume run.execution true := by
      simp [OpenAIRun.retried, hending]
    simp only
    split
    · rename_i hretry
      rw [hretry] at hretried
      have hsecond : run.second ∈ run.attempts := by simp [OpenAIRun.attempts, hretried]
      rw [runAttempt_started (hevents _ hsecond) (horigin.imp id fun hmute => hmute _ hsecond)
        run.execution run.retrySessionId]
      simp only [OpenAIRun.attempts, OpenAIRun.lastAttempt, OpenAIRun.lastSessionId, hretried,
        if_true, AttemptEnd.serve, startedWire_append, List.flatMap_cons, List.flatMap_nil,
        List.append_nil]
      cases run.second.ending with
      | finished => rfl
      | sessionError message => rfl
      | raised message => rfl
      | cancelled before after => rfl
    · rename_i hretry
      rw [Bool.eq_false_iff.mpr hretry] at hretried
      obtain ⟨hattempts, hlast, hsession⟩ := hnot hretried
      rw [hattempts, hlast, hsession, hending]
      simp [AttemptEnd.result, AttemptEnd.serve]
  | finished | raised message | cancelled before after =>
    obtain ⟨hattempts, hlast, hsession⟩ := hnot (by simp [OpenAIRun.retried, hending])
    rw [hattempts, hlast, hsession, hending]
    simp [OpenAIRun.execution]

/-- A cancel in a stream that reports nothing more is told to the origin alone. -/
theorem serveCancel_congr {sends' : Sends ι} (horigin : sends room.origin = sends' room.origin)
    {before after : List RunEvent}
    (hevents : ∀ event ∈ before ++ after, event.eventType = .runStarted) (runId : String)
    (collector : RuntimeReplyCollector) (s : Served ι) :
    serveCancel room sends runId before after collector s =
      serveCancel room sends' runId before after collector s := by
  unfold serveCancel
  have hbefore : ∀ event ∈ before, event.eventType = .runStarted :=
    fun event hevent => hevents event (List.mem_append_left _ hevent)
  have hafter : ∀ event ∈ after, event.eventType = .runStarted :=
    fun event hevent => hevents event (List.mem_append_right _ hevent)
  rw [consume_origin_congr horigin hbefore]
  cases consume room sends' before collector s with
  | mk outcome s =>
    cases outcome with
    | error error => simp only [sendText_congr horigin]
    | ok collector =>
      simp only [sendText_congr horigin, consume_origin_congr horigin hafter]

/-- **A silent run** is served the same, whatever happens to the sends to the others, where its
origin hears of its start, or nobody is told of it. -/
theorem serve_silent {sends' : Sends ι} {run : OpenAIRun} (h : run.Silent)
    (horigin : sends room.origin = sends' room.origin)
    (hsound : Sound sends room.origin ∨ run.Mute) :
    serve room sends run = serve room sends' run := by
  obtain ⟨hevents, hquiet⟩ := h
  have hsound' : Sound sends' room.origin ∨ run.Mute :=
    hsound.imp (fun hsound n => horigin ▸ hsound n) id
  unfold serve
  rw [executeRun_started hevents hsound, executeRun_started hevents hsound']
  cases hending : run.lastAttempt.ending with
  | finished => simp [AttemptEnd.result, AttemptEnd.serve, completedResult, waitForResult,
      terminalEventOf, OpenAIRun.execution]
  | sessionError message | raised message =>
    rw [hending] at hquiet
    cases hquiet
  | cancelled before after =>
    rw [hending] at hquiet
    simp only [AttemptEnd.result, AttemptEnd.serve, cancelledResult, if_true,
      serveCancel_congr horigin hquiet]

end Silent

/-! ## A send that fails -/

section Broken

variable {room : Room ι} {other member : ι} {error : String}

/-- The first send to `other` fails, and no other one. -/
def breaking (other : ι) (error : String) : Sends ι := fun member n =>
  if member = other ∧ n = 0 then some error else none

theorem sound_breaking (error : String) (h : member ≠ other) :
    Sound (breaking other error) member := by
  intro n
  simp [breaking, h]

/-- The first send to `other` fails, and every send to `another`. -/
def breakingBoth (other another : ι) (error : String) : Sends ι := fun member n =>
  if member = another then some error else breaking other error member n

/-- Nothing has been sent to the member yet. -/
def Untouched (member : ι) (wire : List (Delivery ι)) : Prop :=
  ∀ delivery ∈ wire, delivery.member ≠ member

theorem sendText_of_untouched {event : RunEvent} {wire : List (Delivery ι)}
    (h : Untouched other wire) :
    sendText (breaking other error) other event wire =
      (some error, wire ++ [⟨other, event, some error⟩]) := by
  have hcount : wire.countP (fun delivery => delivery.member = other) = 0 := by
    rw [List.countP_eq_zero]
    intro delivery hdelivery
    simpa using h delivery hdelivery
  simp [sendText, breaking, hcount]

/-- The loop over the room meets the broken socket. -/
theorem sendMessage_breaks (error : String) (event : RunEvent) {members : List ι}
    {wire : List (Delivery ι)} (hother : other ∈ members) (h : Untouched other wire) :
    ∃ wire', sendMessage (breaking other error) event members wire = (some error, wire') ∧
      ¬ Untouched other wire' := by
  induction members generalizing wire with
  | nil => cases hother
  | cons head members ih =>
    unfold sendMessage
    by_cases hhead : head = other
    · subst hhead
      rw [sendText_of_untouched h]
      refine ⟨_, rfl, fun huntouched => ?_⟩
      exact huntouched ⟨head, event, some error⟩ (by simp) rfl
    · have hsent : sendText (breaking other error) head event wire =
          (none, wire ++ [⟨head, event, none⟩]) := by
        simp [sendText, breaking, hhead]
      rw [hsent]
      refine ih (List.mem_of_ne_of_mem (Ne.symm hhead) hother) fun delivery hdelivery => ?_
      rcases List.mem_append.mp hdelivery with hold | hnew
      · exact h delivery hold
      · rw [List.mem_singleton.mp hnew]
        exact hhead

/-- A loop over the room that meets no broken socket. -/
theorem sendMessage_sound {sends : Sends ι} {event : RunEvent} {members : List ι}
    {wire : List (Delivery ι)}
    (h : ∀ member ∈ members, ∀ n, wire.countP (fun delivery => delivery.member = member) ≤ n →
      sends member n = none) :
    sendMessage sends event members wire =
      (none, wire ++ members.map fun member => ⟨member, event, none⟩) := by
  induction members generalizing wire with
  | nil => simp [sendMessage]
  | cons head members ih =>
    have hsent : sendText sends head event wire = (none, wire ++ [⟨head, event, none⟩]) := by
      simp [sendText, h head List.mem_cons_self _ (Nat.le_refl _)]
    unfold sendMessage
    rw [hsent]
    simp only
    rw [ih]
    · simp
    · intro member hmember n hn
      refine h member (List.mem_cons_of_mem _ hmember) n (Nat.le_trans ?_ hn)
      rw [List.countP_append]
      exact Nat.le_add_right _ _

/-- Once the socket has failed, it takes what it is sent. -/
theorem sendMessage_after {event : RunEvent} {wire : List (Delivery ι)}
    (h : ¬ Untouched other wire) :
    sendMessage (breaking other error) event room.members wire =
      (none, wire ++ room.members.map fun member => ⟨member, event, none⟩) := by
  refine sendMessage_sound fun member _ n hn => ?_
  unfold breaking
  rw [if_neg]
  rintro ⟨rfl, rfl⟩
  refine h fun delivery hdelivery heq => ?_
  have hcount := List.countP_eq_zero.mp (Nat.le_zero.mp hn) delivery hdelivery
  simp [heq] at hcount

theorem delivered_append (member : ι) (wire wire' : List (Delivery ι)) :
    delivered member (wire ++ wire') = delivered member wire ++ delivered member wire' :=
  List.filterMap_append

/-- What is sent to the room reaches each member once. -/
theorem delivered_room (hmember : member ∈ room.members) (event : RunEvent) :
    delivered member (room.members.map fun member => ⟨member, event, none⟩) = [event] := by
  obtain ⟨before, after, hsplit⟩ := List.append_of_mem hmember
  have hnodup := room.nodup
  rw [hsplit] at hnodup
  obtain ⟨-, hafter, hdisjoint⟩ := List.nodup_append'.mp hnodup
  have hothers {members : List ι} (h : member ∉ members) :
      delivered member (members.map fun member => ⟨member, event, none⟩) = [] := by
    refine List.filterMap_eq_nil_iff.mpr fun delivery hdelivery => ?_
    obtain ⟨later, hin, rfl⟩ := List.mem_map.mp hdelivery
    have hne : later ≠ member := by
      rintro rfl
      exact h hin
    simp [hne]
  have hbefore : member ∉ before := fun hin => hdisjoint hin List.mem_cons_self
  have hown : delivered member [⟨member, event, none⟩] = [event] := by simp [delivered]
  rw [hsplit, List.map_append, List.map_cons, ← List.singleton_append, delivered_append,
    delivered_append, hothers hbefore, hothers (List.nodup_cons.mp hafter).1, hown]
  rfl

/-- An event for the room ends the stream of a run with the failure of the broken socket. -/
theorem consume_breaks (error : String) (hother : other ∈ room.members)
    (horigin : room.origin ≠ other) {events : List RunEvent}
    (hevents : ∃ event ∈ events, event.eventType ≠ .runStarted)
    (collector : RuntimeReplyCollector) {s : Served ι} (h : Untouched other s.wire) :
    ∃ s', consume room (breaking other error) events collector s = (.error error, s') := by
  induction events generalizing collector s with
  | nil =>
    obtain ⟨event, hmem, -⟩ := hevents
    cases hmem
  | cons event events ih =>
    by_cases hstarted : event.eventType = .runStarted
    · have hone : ∀ later ∈ [event], later.eventType = .runStarted :=
        fun later hmem => List.mem_singleton.mp hmem ▸ hstarted
      have hfirst := consume_started hone (.inl (sound_breaking error horigin)) events collector s
      rw [List.singleton_append] at hfirst
      rw [hfirst]
      refine ih ?_ collector fun delivery hdelivery => ?_
      · obtain ⟨later, hmem, hlater⟩ := hevents
        rcases List.mem_cons.mp hmem with rfl | hmem
        · exact absurd hstarted hlater
        · exact ⟨later, hmem, hlater⟩
      · rcases List.mem_append.mp hdelivery with hold | hnew
        · exact h delivery hold
        · obtain ⟨_, -, rfl⟩ := List.mem_map.mp hnew
          exact horigin
    · have haudience : audienceOf event = .room := if_neg hstarted
      obtain ⟨wire, hsent, -⟩ := sendMessage_breaks error event hother h
      exact ⟨_, consume_of_error (by simp [broadcastEvent, haudience, Room.send, hsent]; rfl) events
        collector⟩

/-- The run whose runtime reports more than that it started fails with the error of the broken
socket. -/
theorem executeRun_breaks (hother : other ∈ room.members) (horigin : room.origin ≠ other)
    {run : OpenAIRun} (hevents : ¬ ∀ attempt ∈ run.attempts, ∀ event ∈ attempt.events,
      event.eventType = .runStarted) :
    (executeRun room (breaking other error) run).1.error = some error := by
  have hbroken (sessionId : String) {attempt : StreamedAttempt} {s : Served ι}
      (hattempt : ∃ event ∈ attempt.events, event.eventType ≠ .runStarted)
      (h : Untouched other s.wire) :
      ∃ s', runAttempt room (breaking other error) run.execution sessionId attempt s =
        (.ok (failedResult run.execution sessionId error), s') := by
    obtain ⟨s', hconsume⟩ := consume_breaks error hother horigin hattempt
      { runId := run.execution.runId } h
    exact ⟨s', by simp [runAttempt, hconsume]⟩
  by_cases hfirst : ∀ event ∈ run.first.events, event.eventType = .runStarted
  · -- The first call reports nothing more, so it is retried, and the retry reports it.
    have hsound := sound_breaking error horigin
    simp only [not_forall] at hevents
    obtain ⟨attempt, hattempt, event, hevent, hmore⟩ := hevents
    have hnot : attempt ≠ run.first := by
      rintro rfl
      exact hmore (hfirst event hevent)
    obtain ⟨hretried, rfl⟩ := OpenAIRun.eq_second hattempt hnot
    obtain ⟨s', hs'⟩ := hbroken run.retrySessionId ⟨event, hevent, hmore⟩
      (s := { wire := startedWire room run.first.events [] }) fun delivery hdelivery => by
        obtain ⟨_, -, rfl⟩ := List.mem_map.mp hdelivery
        exact horigin
    rw [executeRun_retried hretried hfirst (.inl hsound) hs']
    rfl
  · simp only [not_forall] at hfirst
    obtain ⟨event, hevent, hmore⟩ := hfirst
    obtain ⟨s', hs'⟩ := hbroken run.sessionId ⟨event, hevent, hmore⟩ (s := {})
      fun delivery hdelivery => by cases hdelivery
    unfold executeRun
    rw [hs']
    rfl

/-! ### Counting what a member receives -/

/-- The sends never fail. -/
def unbroken : Sends ι := fun _ _ => none

theorem breaking_of_ne (error : String) (h : member ≠ other) :
    breaking other error member = unbroken member :=
  funext (sound_breaking error h)

theorem sendMessage_unbroken (event : RunEvent) (members : List ι) (wire : List (Delivery ι)) :
    sendMessage unbroken event members wire =
      (none, wire ++ members.map fun member => ⟨member, event, none⟩) :=
  sendMessage_sound fun _ _ _ _ => rfl

/-- How many events a member has received, next to the start of the run. -/
def heard (member : ι) (wire : List (Delivery ι)) : ℕ :=
  (delivered member wire).countP fun event => event.eventType ≠ .runStarted

@[simp] theorem heard_append (member : ι) (wire wire' : List (Delivery ι)) :
    heard member (wire ++ wire') = heard member wire + heard member wire' := by
  simp [heard, delivered_append]

theorem heard_of_started {event : RunEvent} (h : event.eventType = .runStarted)
    (member origin : ι) (error : Option String) : heard member [⟨origin, event, error⟩] = 0 := by
  unfold heard delivered
  by_cases hreceived : origin = member ∧ error = none
  · simp [hreceived, h]
  · simp [hreceived]

theorem heard_of_error (member other : ι) (event : RunEvent) (error : String) :
    heard member [⟨other, event, some error⟩] = 0 := by
  simp [heard, delivered]

/-- A member of a room without broken sockets hears of everything. -/
theorem consume_unbroken (hmember : member ∈ room.members) (events : List RunEvent)
    (collector : RuntimeReplyCollector) (s : Served ι) :
    ∃ collector' s', consume room unbroken events collector s = (.ok collector', s') ∧
      heard member s'.wire = heard member s.wire +
        events.countP fun event => event.eventType ≠ .runStarted := by
  induction events generalizing collector s with
  | nil => exact ⟨collector, s, rfl, rfl⟩
  | cons event events ih =>
    by_cases hstarted : event.eventType = .runStarted
    · have haudience : audienceOf event = .origin := if_pos hstarted
      have hsent : broadcastEvent room unbroken event s =
          (none, ⟨s.wire ++ [⟨room.origin, event, none⟩],
            s.terminalEventSeen || event.Ends⟩) := by
        simp [broadcastEvent, haudience, Room.send, sendText, unbroken]
      obtain ⟨collector', s', hrest, hheard⟩ := ih (collector.handleEvent event) _
      refine ⟨collector', s', (consume_of_sent hsent _ _).trans hrest, ?_⟩
      rw [hheard, heard_append, heard_of_started hstarted]
      simp [hstarted]
    · have haudience : audienceOf event = .room := if_neg hstarted
      have hsent : broadcastEvent room unbroken event s =
          (none, ⟨s.wire ++ room.members.map fun member => ⟨member, event, none⟩,
            s.terminalEventSeen || event.Ends⟩) := by
        simp [broadcastEvent, haudience, Room.send, sendMessage_unbroken]
      obtain ⟨collector', s', hrest, hheard⟩ := ih (collector.handleEvent event) _
      refine ⟨collector', s', (consume_of_sent hsent _ _).trans hrest, ?_⟩
      have hroom : heard member (room.members.map fun member => ⟨member, event, none⟩) = 1 := by
        simp [heard, delivered_room hmember, hstarted]
      rw [hheard, heard_append, hroom]
      simp [hstarted]
      omega

/-- Where the loop takes the broken socket first, the others hear of nothing. -/
theorem consume_first (member : ι) (error : String) {rest : List ι}
    (hroom : room.members = other :: rest) (horigin : room.origin ≠ other) (events : List RunEvent)
    (collector : RuntimeReplyCollector) {s : Served ι} (h : Untouched other s.wire) :
    ∃ outcome s', consume room (breaking other error) events collector s = (outcome, s') ∧
      heard member s'.wire = heard member s.wire ∧
      ∀ collector', outcome = .ok collector' → Untouched other s'.wire := by
  induction events generalizing collector s with
  | nil => exact ⟨.ok collector, s, rfl, rfl, fun _ _ => h⟩
  | cons event events ih =>
    by_cases hstarted : event.eventType = .runStarted
    · have haudience : audienceOf event = .origin := if_pos hstarted
      have hsent : broadcastEvent room (breaking other error) event s =
          (none, ⟨s.wire ++ [⟨room.origin, event, none⟩],
            s.terminalEventSeen || event.Ends⟩) := by
        simp [broadcastEvent, haudience, Room.send, sendText, breaking, horigin]
      have huntouched : Untouched other (s.wire ++ [⟨room.origin, event, none⟩]) := by
        intro delivery hdelivery
        rcases List.mem_append.mp hdelivery with hold | hnew
        · exact h delivery hold
        · rw [List.mem_singleton.mp hnew]
          exact horigin
      obtain ⟨outcome, s', hrest, hheard, hok⟩ := ih (collector.handleEvent event)
        (s := ⟨s.wire ++ [⟨room.origin, event, none⟩], s.terminalEventSeen || event.Ends⟩)
        huntouched
      refine ⟨outcome, s', (consume_of_sent hsent _ _).trans hrest, ?_, hok⟩
      rw [hheard, heard_append, heard_of_started hstarted, Nat.add_zero]
    · have haudience : audienceOf event = .room := if_neg hstarted
      have hsent : broadcastEvent room (breaking other error) event s =
          (some error, ⟨s.wire ++ [⟨other, event, some error⟩],
            s.terminalEventSeen || event.Ends⟩) := by
        simp [broadcastEvent, haudience, Room.send, hroom, sendMessage, sendText_of_untouched h]
      refine ⟨_, _, consume_of_error hsent _ _, ?_, fun _ hok => by cases hok⟩
      rw [heard_append, heard_of_error, Nat.add_zero]

theorem heard_serveCancel_unbroken (hmember : member ∈ room.members) (runId : String)
    (before after : List RunEvent) (collector : RuntimeReplyCollector) (s : Served ι) :
    heard member (serveCancel room unbroken runId before after collector s).wire =
      heard member s.wire + heard member [⟨room.origin, cancelledEvent runId, none⟩] +
        (before ++ after).countP fun event => event.eventType ≠ .runStarted := by
  obtain ⟨collector', s', hbefore, hheard⟩ := consume_unbroken hmember before collector s
  unfold serveCancel
  rw [hbefore]
  obtain ⟨_, s'', hafter, hheard'⟩ := consume_unbroken hmember after collector'
    { wire := (sendText unbroken room.origin (cancelledEvent runId) s'.wire).2
      terminalEventSeen := true }
  simp only
  rw [hafter]
  simp only [sendText, unbroken, heard_append, List.countP_append] at hheard' ⊢
  omega

theorem heard_serveCancel_first (member : ι) (error : String) {rest : List ι}
    (hroom : room.members = other :: rest) (horigin : room.origin ≠ other) (runId : String)
    (before after : List RunEvent) (collector : RuntimeReplyCollector) {s : Served ι}
    (h : Untouched other s.wire) :
    heard member (serveCancel room (breaking other error) runId before after collector s).wire =
      heard member s.wire + heard member [⟨room.origin, cancelledEvent runId, none⟩] := by
  obtain ⟨outcome, s', hbefore, hheard, hok⟩ := consume_first member error hroom horigin before
    collector h
  have hanswer : sendText (breaking other error) room.origin (cancelledEvent runId) s'.wire =
      (none, s'.wire ++ [⟨room.origin, cancelledEvent runId, none⟩]) := by
    simp [sendText, breaking, horigin]
  unfold serveCancel
  rw [hbefore]
  simp only [hanswer]
  cases outcome with
  | error _ => simp only [heard_append, hheard]
  | ok collector' =>
    have huntouched : Untouched other
        (s'.wire ++ [⟨room.origin, cancelledEvent runId, none⟩]) := by
      intro delivery hdelivery
      rcases List.mem_append.mp hdelivery with hold | hnew
      · exact hok collector' rfl delivery hold
      · rw [List.mem_singleton.mp hnew]
        exact horigin
    obtain ⟨_, s'', hafter, hheard', -⟩ := consume_first member error hroom horigin after collector'
      (s := ⟨s'.wire ++ [⟨room.origin, cancelledEvent runId, none⟩], true⟩) huntouched
    simp only
    rw [hafter, hheard', heard_append, hheard]

end Broken

/-! ## When the other members make no difference -/

section Noninterference

variable {room : Room ι} {other member : ι} {run : OpenAIRun}

/-- The room, with the loop that takes one of its members first. -/
def Room.first (room : Room ι) (other : ι) (h : other ∈ room.members) : Room ι where
  members := other :: room.members.erase other
  nodup := (List.perm_cons_erase h).nodup_iff.mp room.nodup
  origin := room.origin
  origin_mem := (List.perm_cons_erase h).mem_iff.mp room.origin_mem

/-- A text that no result has as its error, and that is not reported as one either. -/
def otherText (error : Option String) : String := error.getD "" ++ errorText error ++ "!"

theorem otherText_ne (error : Option String) : some (otherText error) ≠ error := by
  rintro h
  cases error with
  | none => cases h
  | some error =>
    have hlength := congrArg String.length (Option.some.inj h)
    have hmark : "!".length = 1 := rfl
    simp only [otherText, String.length_append, Option.getD_some] at hlength
    omega

theorem otherText_ne_errorText (error : Option String) : otherText error ≠ errorText error := by
  intro h
  have hlength := congrArg String.length h
  have hmark : "!".length = 1 := rfl
  simp only [otherText, String.length_append] at hlength
  omega

/-- A broken socket changes the result of a run that reports something. -/
theorem interferes_of_events (hother : other ∈ room.members) (hmember : other ≠ member)
    (horigin : other ≠ room.origin) (hevents : ¬ ∀ attempt ∈ run.attempts,
      ∀ event ∈ attempt.events, event.eventType = .runStarted) :
    ¬ Noninterfering room member run := by
  intro h
  have hunbroken : ∀ member : ι, Sound unbroken member := fun _ _ => rfl
  let text := otherText (serve room unbroken run).1.error
  obtain ⟨-, hresult⟩ := h room rfl (List.Perm.refl _) unbroken (breaking other text)
    (hunbroken _) (sound_breaking text hmember.symm) (breaking_of_ne text horigin.symm).symm
  have hbroken : (serve room (breaking other text) run).1.error = some text :=
    executeRun_breaks hother horigin.symm hevents
  exact otherText_ne _ ((congrArg ExecutionResult.error hresult).trans hbroken).symm

/-- A broken socket changes what the others are told of a failure. -/
theorem interferes_of_failed (hother : other ∈ room.members) (hin : member ∈ room.members)
    (hmember : other ≠ member) (horigin : other ≠ room.origin)
    (hevents : ∀ attempt ∈ run.attempts, ∀ event ∈ attempt.events,
      event.eventType = .runStarted) {message : String}
    (hfailed : run.lastAttempt.ending = .sessionError message ∨
      run.lastAttempt.ending = .raised message) : ¬ Noninterfering room member run := by
  intro h
  have hunbroken : ∀ member : ι, Sound unbroken member := fun _ _ => rfl
  let text := otherText (some message)
  obtain ⟨hdelivered, -⟩ := h room rfl (List.Perm.refl _) unbroken (breaking other text)
    (hunbroken _) (sound_breaking text hmember.symm) (breaking_of_ne text horigin.symm).symm
  let wire := startedWire room (run.attempts.flatMap StreamedAttempt.events) []
  let result := failedResult run.execution run.lastSessionId message
  have hserve {sends : Sends ι} (hsound : Sound sends room.origin) :
      (serve room sends run).2 = waitForResult room sends result { wire } := by
    unfold serve
    rw [executeRun_started hevents (.inl hsound)]
    rcases hfailed with hfailed | hfailed <;>
      simp [hfailed, AttemptEnd.result, AttemptEnd.serve, failedResult, result, wire]
  have hterminal : terminalEventOf false result =
      some (.room, errorEvent run.runId (errorText (some message))) := rfl
  -- Without the broken socket, the last thing to be heard is the failure of the run.
  have hsent : (serve room unbroken run).2.wire =
      wire ++ room.members.map fun member =>
        ⟨member, errorEvent run.runId (errorText (some message)), none⟩ := by
    rw [hserve (hunbroken _)]
    simp [waitForResult, hterminal, Room.send, sendMessage_unbroken]
  -- With it, it is the failure of the socket.
  have huntouched : Untouched other wire := by
    intro delivery hdelivery
    obtain ⟨_, -, rfl⟩ := List.mem_map.mp hdelivery
    exact horigin.symm
  obtain ⟨wire', hbreaks, htouched⟩ := sendMessage_breaks text
    (errorEvent run.runId (errorText (some message))) hother huntouched
  have hsent' : (serve room (breaking other text) run).2.wire =
      wire' ++ room.members.map fun member => ⟨member, errorEvent run.runId text, none⟩ := by
    rw [hserve (sound_breaking text horigin.symm)]
    have hrunId : result.runId = run.runId := rfl
    simp [waitForResult, hterminal, Room.send, hbreaks, sendMessage_after htouched, hrunId]
  rw [hsent, hsent', delivered_append, delivered_append, delivered_room hin,
    delivered_room hin] at hdelivered
  have hevent := (List.append_inj' hdelivered rfl).2
  have htext : (errorEvent run.runId (errorText (some message))).payload.get? "error" =
      (errorEvent run.runId text).payload.get? "error" := by
    rw [(List.cons.inj hevent).1]
  simp only [errorEvent, Dict.get?_insert, if_true, Option.some.injEq, PayloadValue.str.injEq]
    at htext
  exact otherText_ne_errorText _ htext.symm

/-- A broken socket keeps from the others what comes after a cancel. -/
theorem interferes_of_cancelled (hother : other ∈ room.members) (hin : member ∈ room.members)
    (hmember : other ≠ member) (horigin : other ≠ room.origin)
    (hevents : ∀ attempt ∈ run.attempts, ∀ event ∈ attempt.events,
      event.eventType = .runStarted) {before after : List RunEvent}
    (hcancelled : run.lastAttempt.ending = .cancelled before after)
    (hloud : ¬ ∀ event ∈ before ++ after, event.eventType = .runStarted) :
    ¬ Noninterfering room member run := by
  intro h
  have hunbroken : ∀ member : ι, Sound unbroken member := fun _ _ => rfl
  let order := room.first other hother
  obtain ⟨hdelivered, -⟩ := h order rfl (List.perm_cons_erase hother).symm unbroken
    (breaking other "") (hunbroken _) (sound_breaking "" hmember.symm)
    (breaking_of_ne "" horigin.symm).symm
  let s : Served ι := { wire := startedWire order (run.attempts.flatMap StreamedAttempt.events) [] }
  have hserve {sends : Sends ι} (hsound : Sound sends order.origin) :
      (serve order sends run).2 =
        serveCancel order sends run.runId before after { runId := run.runId } s := by
    unfold serve
    rw [executeRun_started hevents (.inl hsound), hcancelled]
    rfl
  have huntouched : Untouched other s.wire := by
    intro delivery hdelivery
    obtain ⟨_, -, rfl⟩ := List.mem_map.mp hdelivery
    exact horigin.symm
  have hin' : member ∈ order.members := (List.perm_cons_erase hother).mem_iff.mp hin
  have hall := heard_serveCancel_unbroken hin' run.runId before after { runId := run.runId } s
  have hfirst := heard_serveCancel_first member "" (rfl : order.members = other :: _)
    horigin.symm run.runId before after { runId := run.runId } huntouched
  rw [hserve (hunbroken _), hserve (sound_breaking "" horigin.symm)] at hdelivered
  have hheard : heard member
      (serveCancel order unbroken run.runId before after { runId := run.runId } s).wire =
      heard member
        (serveCancel order (breaking other "") run.runId before after { runId := run.runId }
          s).wire := by
    unfold heard
    rw [hdelivered]
  have hpos : 0 < (before ++ after).countP fun event => event.eventType ≠ .runStarted := by
    rw [List.countP_pos_iff]
    simp only [not_forall] at hloud
    obtain ⟨event, hevent, hmore⟩ := hloud
    exact ⟨event, hevent, by simpa using hmore⟩
  omega

/-- A run that cannot tell its origin of its start has failed, and has told nobody else. -/
theorem executeRun_origin_breaks {sends : Sends ι} {error : String}
    (horigin : sends room.origin 0 = some error)
    (hevents : ∀ attempt ∈ run.attempts, ∀ event ∈ attempt.events, event.eventType = .runStarted)
    (hmute : ¬ run.Mute) :
    ∃ sessionId event, executeRun room sends run =
      (failedResult run.execution sessionId error,
        { wire := [⟨room.origin, event, some error⟩] }) := by
  have hbroken (sessionId : String) {attempt : StreamedAttempt} (hattempt : attempt ∈ run.attempts)
      (hsome : attempt.events ≠ []) :
      ∃ event, runAttempt room sends run.execution sessionId attempt {} =
        (.ok (failedResult run.execution sessionId error),
          { wire := [⟨room.origin, event, some error⟩] }) := by
    obtain ⟨event, events, hlist⟩ := List.exists_cons_of_ne_nil hsome
    have hstarted := hevents attempt hattempt event (hlist ▸ List.mem_cons_self)
    have haudience : audienceOf event = .origin := if_pos hstarted
    have hsent : broadcastEvent room sends event {} =
        (some error, { wire := [⟨room.origin, event, some error⟩] }) := by
      simp [broadcastEvent, haudience, Room.send, sendText, horigin, not_ends_of_started hstarted]
    exact ⟨event, by simp [runAttempt, hlist, consume_of_error hsent]⟩
  by_cases hfirst : run.first.events = []
  · -- The first call reports nothing, so it is retried, and the retry reports its start.
    simp only [OpenAIRun.Mute, not_forall] at hmute
    obtain ⟨attempt, hattempt, hsome⟩ := hmute
    have hnot : attempt ≠ run.first := by
      rintro rfl
      exact hsome hfirst
    obtain ⟨hretried, rfl⟩ := OpenAIRun.eq_second hattempt hnot
    obtain ⟨event, hrun⟩ := hbroken run.retrySessionId hattempt hsome
    refine ⟨run.retrySessionId, event, executeRun_retried hretried ?_ (.inr hfirst) ?_⟩
    · exact hevents _ run.first_mem
    · rw [hfirst]
      exact hrun
  · obtain ⟨event, hrun⟩ := hbroken run.sessionId run.first_mem hfirst
    refine ⟨run.sessionId, event, ?_⟩
    unfold executeRun
    rw [hrun]

/-- The room is told of this failure. -/
theorem serve_origin_breaks {sends : Sends ι} {error : String}
    (horigin : sends room.origin 0 = some error)
    (hevents : ∀ attempt ∈ run.attempts, ∀ event ∈ attempt.events, event.eventType = .runStarted)
    (hmute : ¬ run.Mute) :
    ∃ event, (serve room sends run).2.wire =
      match sendMessage sends (errorEvent run.runId (errorText (some error))) room.members
          [⟨room.origin, event, some error⟩] with
      | (none, wire) => wire
      | (some error, wire) =>
        (sendMessage sends (errorEvent run.runId error) room.members wire).2 := by
  obtain ⟨sessionId, event, hrun⟩ := executeRun_origin_breaks horigin hevents hmute
  refine ⟨event, ?_⟩
  have hterminal : terminalEventOf false (failedResult run.execution sessionId error) =
      some (.room, errorEvent run.runId (errorText (some error))) := rfl
  have hfailed : (failedResult run.execution sessionId error).status ≠ .cancelled := nofun
  unfold serve
  rw [hrun]
  simp only [if_neg hfailed]
  unfold waitForResult
  simp only [hterminal, Room.send]
  split
  · rfl
  · rfl

/-- Where the origin does not hear of the start, a broken socket keeps the failure of the run from
the others. -/
theorem interferes_of_started (hother : other ∈ room.members) (hin : member ∈ room.members)
    (hmember : other ≠ member) (horigin : other ≠ room.origin) (hne : member ≠ room.origin)
    (hevents : ∀ attempt ∈ run.attempts, ∀ event ∈ attempt.events, event.eventType = .runStarted)
    (hmute : ¬ run.Mute) : ¬ Noninterfering room member run := by
  intro h
  let order := room.first other hother
  -- The first send to the origin fails in both, and every send to the other one in the second.
  have hsends : breaking order.origin "" order.origin =
      breakingBoth order.origin other "" order.origin := by
    funext n
    simp [breakingBoth, order, Room.first, horigin.symm]
  have hboth : Sound (breakingBoth order.origin other "") member := by
    intro n
    simp [breakingBoth, breaking, order, Room.first, hmember.symm, hne]
  obtain ⟨hdelivered, -⟩ := h order rfl (List.perm_cons_erase hother).symm
    (breaking order.origin "") (breakingBoth order.origin other "") (sound_breaking "" hne) hboth
    hsends
  have hfails : breaking order.origin "" order.origin 0 = some "" := by simp [breaking]
  obtain ⟨event, hwire⟩ := serve_origin_breaks hfails hevents hmute
  obtain ⟨event', hwire'⟩ := serve_origin_breaks (hsends ▸ hfails) hevents hmute
  have htouched : ¬ Untouched order.origin [⟨order.origin, event, some ""⟩] :=
    fun huntouched => huntouched _ (List.mem_singleton_self _) rfl
  -- The other one comes first in the loop, and each time ends it.
  have hfirst (event : RunEvent) (wire : List (Delivery ι)) :
      sendMessage (breakingBoth order.origin other "") event order.members wire =
        (some "", wire ++ [⟨other, event, some ""⟩]) := by
    simp [order, Room.first, sendMessage, sendText, breakingBoth]
  simp only [sendMessage_after htouched] at hwire
  simp only [hfirst] at hwire'
  have hin' : member ∈ order.members := (List.perm_cons_erase hother).mem_iff.mp hin
  rw [hwire, hwire', delivered_append, delivered_room hin'] at hdelivered
  simp [delivered] at hdelivered

/-- **When the other members make no difference**: there are none but the originating socket, or
the run is silent, and the member is the originating socket, or nothing is said at all. -/
theorem noninterfering_iff (hin : member ∈ room.members) :
    Noninterfering room member run ↔
      Alone room member ∨ run.Silent ∧ (member = room.origin ∨ run.Mute) := by
  constructor
  · intro h
    by_contra hnot
    obtain ⟨halone, hsilent⟩ := not_or.mp hnot
    simp only [Alone, not_forall] at halone
    obtain ⟨other, hother, hne⟩ := halone
    obtain ⟨hmember, horigin⟩ := not_or.mp hne
    by_cases hevents : ∀ attempt ∈ run.attempts, ∀ event ∈ attempt.events,
        event.eventType = .runStarted
    · by_cases hquiet : run.lastAttempt.ending.Quiet
      · obtain ⟨hown, hmute⟩ := not_or.mp fun hrest => hsilent ⟨⟨hevents, hquiet⟩, hrest⟩
        exact interferes_of_started hother hin hmember horigin hown hevents hmute h
      · cases hending : run.lastAttempt.ending with
        | finished =>
          rw [hending] at hquiet
          exact hquiet trivial
        | sessionError message =>
          exact interferes_of_failed hother hin hmember horigin hevents (.inl hending) h
        | raised message =>
          exact interferes_of_failed hother hin hmember horigin hevents (.inr hending) h
        | cancelled before after =>
          rw [hending] at hquiet
          exact interferes_of_cancelled hother hin hmember horigin hevents hending hquiet h
    · exact interferes_of_events hother hmember horigin hevents h
  · rintro (halone | ⟨hsilent, hrest⟩) order horder hperm sends sends' hmember hmember' horigin
    · have hsends : ∀ other ∈ order.members, sends other = sends' other := by
        intro other hother
        rcases halone other (hperm.mem_iff.mp hother) with rfl | rfl
        · funext n
          rw [hmember n, hmember' n]
        · exact horigin
      rw [serve_congr hsends]
      exact ⟨rfl, rfl⟩
    · have hsound : Sound sends order.origin ∨ run.Mute :=
        hrest.imp (fun heq n => by rw [horder, ← heq, hmember n]) id
      rw [serve_silent hsilent (horder ▸ horigin) hsound]
      exact ⟨rfl, rfl⟩

/-- Three sockets; the first one has sent the prompt. -/
def threeSockets : Room ℕ := ⟨[0, 1, 2], by decide, 0, by decide⟩

/-- A run in the group "team" whose runtime streams these events. -/
def runOf (events : List RunEvent) (ending : AttemptEnd) : OpenAIRun where
  request :=
    { groupFolder := "team"
      chatJid := "team"
      userId := "websocket"
      prompt := "hello"
      source := .web }
  runId := "run-1"
  sessionId := "session-1"
  retrySessionId := "session-2"
  first := { events, ending }
  second := { events := [], ending := .finished }

/-- The client cancels the run before its runtime has reported anything but its start. -/
theorem noninterfering_cancelled :
    Noninterfering threeSockets 2
      (runOf [] (.cancelled [{ eventType := .runStarted, runId := "run-1" }] [])) := by
  refine (noninterfering_iff (by decide)).mpr (.inr ⟨⟨?_, ?_⟩, .inr ?_⟩)
  · intro attempt hattempt event hevent
    obtain rfl := List.mem_singleton.mp hattempt
    cases hevent
  · intro event hevent
    rw [List.mem_singleton.mp hevent]
  · intro attempt hattempt
    rw [List.mem_singleton.mp hattempt]
    rfl

/-- The broken socket of the second member costs the third one the answer, and the run its
result. -/
theorem exists_interfering :
    ∃ (room : Room ℕ) (run : OpenAIRun) (sends sends' : Sends ℕ),
      2 ∈ room.members ∧ Sound sends 2 ∧ Sound sends' 2 ∧ Sound sends room.origin ∧
        sends room.origin = sends' room.origin ∧
        (delivered 2 (serve room sends run).2.wire).map RunEvent.eventType =
          [.tokenDelta, .runCompleted] ∧
        (delivered 2 (serve room sends' run).2.wire).map RunEvent.eventType = [.runFailed] ∧
        (serve room sends run).1.status = .completed ∧
        (serve room sends' run).1.status = .failed := by
  refine ⟨threeSockets, runOf [{ eventType := .runStarted, runId := "run-1" },
    { eventType := .tokenDelta, runId := "run-1" }, completedEvent "run-1" (some "hi")] .finished,
    unbroken, breaking 1 "connection closed", by decide, fun _ => rfl,
    sound_breaking _ (by decide), fun _ => rfl, (breaking_of_ne _ (by decide)).symm, ?_⟩
  decide +kernel

end Noninterference

end Portex
