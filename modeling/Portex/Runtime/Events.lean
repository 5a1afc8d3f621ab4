import Portex.Foundation.Dict
import Portex.Foundation.Final
import Mathlib.Data.Int.Notation
import Mathlib.Data.List.Induction

/-!
# Runtime events

`infra/runtime/adapter.py`, `infra/runtime/mapper.py`, the stream of `infra/runtime/openai.py` and
the reply collector of `services/agent_trigger.py`. The mapper takes one SDK event after the other,
the stream adds a completion of its own, and the collector keeps the last terminal event.

## Main definitions

* `RunEvent`, `RunRequest`, `RunResult`: what the runtime is asked and answers
* `SdkEvent`, `mapSdkEvent`: the events of the SDK and what they are mapped to
* `runStreamed`: what a streamed run yields
* `RuntimeReplyCollector`: the result of a run, from its events
* `Orderly`: the stream ends once, and the collector agrees with it

## Main results

* `collect_status`: what the collector makes of a stream that ends once
* `orderly_iff`: the streams that are orderly
-/

namespace Portex

open Foundation

/-! ## Events -/

/-- `portex/contracts/events.py`. -/
inductive EventType
  | runStarted | tokenDelta | toolStarted | toolCompleted | runTimeout | runCompleted | runFailed
  deriving DecidableEq

/-- A value of a payload, as far as the code looks at it. -/
inductive PayloadValue
  | none
  | str (value : String)
  | int (value : ℤ)
  | other (truthy : Bool)
  deriving DecidableEq

/-- The value counts as true. -/
def PayloadValue.truthy : PayloadValue → Bool
  | .none => false
  | .str value => value ≠ ""
  | .int value => value ≠ 0
  | .other truthy => truthy

abbrev Payload := Dict String PayloadValue

structure RunEvent where
  eventType : EventType
  runId : String
  payload : Payload := ∅

structure RunRequest where
  requestId : String
  groupFolder : String
  message : String
  sessionId : String
  userId : String
  deriving DecidableEq

inductive RunStatus
  | completed | failed | timeout
  deriving DecidableEq

structure RunResult where
  runId : String
  status : RunStatus
  finalOutput : Option String := none
  error : Option String := none
  timeoutMs : Option ℤ := none
  deriving DecidableEq

/-! ## The mapper -/

/-- The attributes of `sdk_event.item.raw_item`, where they are there and not `None`. -/
structure RawItem where
  name : Option PayloadValue := none
  callId : Option PayloadValue := none
  output : Option PayloadValue := none
  deriving DecidableEq

/-- The attributes of an SDK event that the mapper looks at, where they are there and not `None`. -/
structure SdkEvent where
  type : Option String := none
  newAgentName : Option PayloadValue := none
  dataType : Option String := none
  delta : Option PayloadValue := none
  name : Option String := none
  rawItem : RawItem := {}
  deriving DecidableEq

/-- `_payload`: the entries that are not `None`. -/
def payload (entries : List (String × Option PayloadValue)) : Payload :=
  entries.foldl (fun payload entry =>
    match entry.2 with
    | some value => payload.insert entry.1 value
    | none => payload) ∅

def mapSdkEvent (sdkEvent : SdkEvent) (runId : String) : Option RunEvent :=
  if sdkEvent.type = some "agent_updated_stream_event" then
    some
      { eventType := .runStarted, runId, payload := payload [("agent_name", sdkEvent.newAgentName)] }
  else if sdkEvent.type = some "raw_response_event" then
    if sdkEvent.dataType = some "response.output_text.delta" then
      some { eventType := .tokenDelta, runId, payload := payload [("delta", sdkEvent.delta)] }
    else if sdkEvent.dataType = some "response.completed" then none
    else
      match sdkEvent.dataType with
      | some rawType =>
        if rawType ∈ ["response.failed", "response.incomplete"] then
          some
            { eventType := .runFailed, runId,
              payload := payload [("status", some (.str rawType))] }
        else none
      | none => none
  else if sdkEvent.type = some "run_item_stream_event" then
    if sdkEvent.name = some "tool_called" then
      some
        { eventType := .toolStarted, runId
          payload := payload
            [("tool_name", sdkEvent.rawItem.name), ("tool_call_id", sdkEvent.rawItem.callId)] }
    else if sdkEvent.name = some "tool_output" then
      some
        { eventType := .toolCompleted, runId
          payload := payload
            [("tool_name", sdkEvent.rawItem.name), ("tool_call_id", sdkEvent.rawItem.callId),
              ("output", sdkEvent.rawItem.output)] }
    else none
  else none

/-! ## The stream -/

/-- What happens while a run is streamed. -/
inductive StreamStep
  | event (sdkEvent : SdkEvent)
  /-- `cancel(run_id)`: the run is marked, and the SDK is told to stop. -/
  | cancel
  deriving DecidableEq

/-- How `stream_events` ends. -/
inductive StreamEnd
  /-- Without an exception; the final output is a string by then. -/
  | exhausted (finalOutput : Option String)
  /-- With an exception, or because the consumer is cancelled. -/
  | interrupted
  deriving DecidableEq

/-- The SDK events of a stream, in order. -/
def sdkEvents (steps : List StreamStep) : List SdkEvent :=
  steps.filterMap fun
    | .event sdkEvent => some sdkEvent
    | .cancel => none

/-- The run is in `_cancelled_run_ids` when the stream ends. -/
def wasCancelled (steps : List StreamStep) : Bool := decide (.cancel ∈ steps)

/-- The event that `run_streamed` adds. -/
def completedEvent (runId : String) (finalOutput : Option String) : RunEvent where
  eventType := .runCompleted
  runId
  payload := ((∅ : Payload).insert "status" (.str "response.completed")).insert "final_output"
    (match finalOutput with
      | some output => .str output
      | none => .none)

/-- What `run_streamed` yields. -/
def runStreamed (runId : String) (steps : List StreamStep) (ending : StreamEnd) : List RunEvent :=
  (sdkEvents steps).filterMap (mapSdkEvent · runId) ++
    match ending with
    | .exhausted finalOutput =>
      if wasCancelled steps then [] else [completedEvent runId finalOutput]
    | .interrupted => []

/-! ## The collector -/

structure RuntimeReplyCollector where
  runId : String
  status : Option RunStatus := none
  finalOutput : Option String := none
  error : Option String := none
  timeoutMs : Option ℤ := none
  deriving DecidableEq

namespace RuntimeReplyCollector

/-- `isinstance(value, str) and value`, as an update of what was there before. -/
def textOr (old : Option String) : Option PayloadValue → Option String
  | some (.str value) => if value = "" then old else some value
  | _ => old

def handleEvent (event : RunEvent) (collector : RuntimeReplyCollector) : RuntimeReplyCollector :=
  match event.eventType with
  | .runCompleted =>
    { collector with
      status := some .completed
      finalOutput := textOr collector.finalOutput (event.payload.get? "final_output") }
  | .runFailed =>
    let error := match event.payload.get? "error" with
      | some value => if value.truthy then some value else event.payload.get? "status"
      | none => event.payload.get? "status"
    { collector with status := some .failed, error := textOr collector.error error }
  | .runTimeout =>
    { collector with
      status := some .timeout
      timeoutMs := match event.payload.get? "timeout_ms" with
        | some (.int value) => some value
        | _ => collector.timeoutMs }
  | _ => collector

def buildResult (collector : RuntimeReplyCollector) : RunResult where
  runId := collector.runId
  status := collector.status.getD .completed
  finalOutput := collector.finalOutput
  error := collector.error
  timeoutMs := collector.timeoutMs

/-- The collector of a run after some events. -/
def collect (runId : String) (events : List RunEvent) : RuntimeReplyCollector :=
  events.foldl (fun collector event => collector.handleEvent event) { runId }

@[simp] theorem collect_concat (runId : String) (events : List RunEvent) (event : RunEvent) :
    collect runId (events ++ [event]) = (collect runId events).handleEvent event := by
  simp [collect]

end RuntimeReplyCollector

/-! ## Terminal events -/

namespace RunEvent

/-- The events that end a run. -/
def Terminal (event : RunEvent) : Prop :=
  event.eventType = .runCompleted ∨ event.eventType = .runFailed

instance : DecidablePred Terminal := fun event =>
  inferInstanceAs (Decidable (event.eventType = .runCompleted ∨ event.eventType = .runFailed))

end RunEvent

/-- A raw event that says that the response failed. -/
def SdkEvent.Fails (sdkEvent : SdkEvent) : Prop :=
  sdkEvent.type = some "raw_response_event" ∧
    (sdkEvent.dataType = some "response.failed" ∨ sdkEvent.dataType = some "response.incomplete")

instance : DecidablePred SdkEvent.Fails := fun sdkEvent =>
  inferInstanceAs (Decidable (sdkEvent.type = some "raw_response_event" ∧
    (sdkEvent.dataType = some "response.failed" ∨
      sdkEvent.dataType = some "response.incomplete")))

/-- The mapper makes no completion and no timeout, and a failure only of a failed response. -/
theorem eventType_mapSdkEvent {sdkEvent : SdkEvent} {runId : String} {event : RunEvent}
    (h : mapSdkEvent sdkEvent runId = some event) :
    event.eventType ≠ .runCompleted ∧ event.eventType ≠ .runTimeout ∧
      (event.eventType = .runFailed ↔ sdkEvent.Fails) := by
  unfold mapSdkEvent at h
  unfold SdkEvent.Fails
  split at h
  · rename_i htype
    obtain rfl := Option.some.inj h
    simp [htype]
  · split at h
    · rename_i hraw
      split at h
      · rename_i hdelta
        obtain rfl := Option.some.inj h
        simp [hdelta]
      · split at h
        · cases h
        · split at h
          · rename_i rawType hdata
            split at h
            · rename_i hfails
              obtain rfl := Option.some.inj h
              simpa [hraw, hdata] using hfails
            · cases h
          · cases h
    · rename_i hraw
      split at h
      · split at h
        · obtain rfl := Option.some.inj h
          simp [hraw]
        · split at h
          · obtain rfl := Option.some.inj h
            simp [hraw]
          · cases h
      · cases h

/-- A failed response is always passed on. -/
theorem mapSdkEvent_of_fails {sdkEvent : SdkEvent} (h : sdkEvent.Fails) (runId : String) :
    ∃ event, mapSdkEvent sdkEvent runId = some event ∧ event.Terminal := by
  obtain ⟨htype, hdata | hdata⟩ := h
  · exact ⟨_, by simp [mapSdkEvent, htype, hdata]; rfl, .inr rfl⟩
  · exact ⟨_, by simp [mapSdkEvent, htype, hdata]; rfl, .inr rfl⟩

theorem terminal_mapSdkEvent_iff {sdkEvent : SdkEvent} {runId : String} :
    (∃ event ∈ mapSdkEvent sdkEvent runId, event.Terminal) ↔ sdkEvent.Fails := by
  constructor
  · rintro ⟨event, hmap, hterminal⟩
    obtain ⟨hcompleted, -, hfailed⟩ := eventType_mapSdkEvent hmap
    exact hfailed.mp (hterminal.resolve_left hcompleted)
  · exact fun h => mapSdkEvent_of_fails h runId

/-- A stream without a timeout: what the runtime yields. -/
theorem eventType_runStreamed {runId : String} {steps : List StreamStep} {ending : StreamEnd} :
    ∀ event ∈ runStreamed runId steps ending, event.eventType ≠ .runTimeout := by
  intro event hevent
  unfold runStreamed at hevent
  rcases List.mem_append.mp hevent with hevent | hevent
  · obtain ⟨sdkEvent, -, hmap⟩ := List.mem_filterMap.mp hevent
    exact (eventType_mapSdkEvent hmap).2.1
  · split at hevent
    · split at hevent
      · cases hevent
      · obtain rfl := List.mem_singleton.mp hevent
        simp [completedEvent]
    · cases hevent

/-! ## The collector and the stream -/

namespace RuntimeReplyCollector

theorem status_handleEvent (event : RunEvent) (collector : RuntimeReplyCollector)
    (h : event.eventType ≠ .runTimeout) : (collector.handleEvent event).status =
      if event.eventType = .runCompleted then some .completed
      else if event.eventType = .runFailed then some .failed else collector.status := by
  unfold handleEvent
  cases hevent : event.eventType <;> simp_all

/-- Events that end nothing leave the status open. -/
theorem status_collect_eq_none {runId : String} {events : List RunEvent}
    (htimeout : ∀ event ∈ events, event.eventType ≠ .runTimeout)
    (h : ∀ event ∈ events, ¬ event.Terminal) : (collect runId events).status = none := by
  induction events using List.reverseRecOn with
  | nil => rfl
  | append_singleton events event ih =>
    have hlast : ¬ event.Terminal := h event (by simp)
    rw [RunEvent.Terminal, not_or] at hlast
    rw [collect_concat, status_handleEvent event _ (htimeout event (by simp)), if_neg hlast.1,
      if_neg hlast.2]
    exact ih (fun e he => htimeout e (List.mem_append_left _ he))
      fun e he => h e (List.mem_append_left _ he)

/-- **The collector agrees** with a stream that ends once: the result is a failure exactly where
the stream says so. -/
theorem collect_status {runId : String} {events : List RunEvent}
    (htimeout : ∀ event ∈ events, event.eventType ≠ .runTimeout)
    (h : FinalLast RunEvent.Terminal events) :
    (collect runId events).buildResult.status = .failed ↔
      ∃ event ∈ events, event.eventType = .runFailed := by
  unfold buildResult
  rcases finalLast_iff.mp h with hnone | ⟨init, event, rfl, hevent, hinit⟩
  · rw [status_collect_eq_none htimeout hnone]
    refine iff_of_false (by simp) ?_
    rintro ⟨event, hmem, hfailed⟩
    exact hnone event hmem (.inr hfailed)
  · rw [collect_concat, status_handleEvent event _ (htimeout event (by simp))]
    rcases hevent with hcompleted | hfailed
    · rw [if_pos hcompleted]
      refine iff_of_false (by simp) ?_
      rintro ⟨other, hmem, hfailed⟩
      rcases List.mem_append.mp hmem with hmem | hmem
      · exact hinit other hmem (.inr hfailed)
      · rw [List.mem_singleton.mp hmem, hcompleted] at hfailed
        cases hfailed
    · rw [if_neg (by simp [hfailed]), if_pos hfailed]
      exact iff_of_true rfl ⟨event, by simp, hfailed⟩

end RuntimeReplyCollector

/-- The stream ends at most once, with its last event, and the collector ends with a failure
exactly where the stream has one. -/
def Orderly (runId : String) (events : List RunEvent) : Prop :=
  (events.filter fun event => event.Terminal).length ≤ 1 ∧
    FinalLast RunEvent.Terminal events ∧
    ((RuntimeReplyCollector.collect runId events).buildResult.status = .failed ↔
      ∃ event ∈ events, event.eventType = .runFailed)

/-- The stream adds its own completion. -/
def Completes (steps : List StreamStep) (ending : StreamEnd) : Prop :=
  wasCancelled steps = false ∧ ending ≠ .interrupted

/-- No response fails in a stream that completes; in one that is cancelled or interrupted, nothing
that is passed on follows a failed response. -/
def FailsLast (runId : String) (steps : List StreamStep) (ending : StreamEnd) : Prop :=
  (Completes steps ending → ∀ sdkEvent ∈ sdkEvents steps, ¬ sdkEvent.Fails) ∧
    ∀ before sdkEvent after, sdkEvents steps = before ++ sdkEvent :: after → sdkEvent.Fails →
      ∀ later ∈ after, mapSdkEvent later runId = none

theorem finalLast_runStreamed_iff (runId : String) (steps : List StreamStep) (ending : StreamEnd) :
    FinalLast RunEvent.Terminal (runStreamed runId steps ending) ↔ FailsLast runId steps ending := by
  have hmapped : FinalLast RunEvent.Terminal ((sdkEvents steps).filterMap (mapSdkEvent · runId)) ↔
      ∀ before sdkEvent after, sdkEvents steps = before ++ sdkEvent :: after → sdkEvent.Fails →
        ∀ later ∈ after, mapSdkEvent later runId = none := by
    rw [finalLast_filterMap]
    simp only [terminal_mapSdkEvent_iff]
  unfold FailsLast
  by_cases hcompletes : Completes steps ending
  · -- The completion is the last event, so nothing before it may be terminal.
    obtain ⟨hcancelled, hending⟩ := hcompletes
    obtain ⟨finalOutput, rfl⟩ : ∃ finalOutput, ending = .exhausted finalOutput := by
      cases ending with
      | exhausted finalOutput => exact ⟨finalOutput, rfl⟩
      | interrupted => exact absurd rfl hending
    have hstream : runStreamed runId steps (.exhausted finalOutput) =
        (sdkEvents steps).filterMap (mapSdkEvent · runId) ++ [completedEvent runId finalOutput] := by
      simp [runStreamed, hcancelled]
    have hnone : (∀ event ∈ (sdkEvents steps).filterMap (mapSdkEvent · runId), ¬ event.Terminal) ↔
        ∀ sdkEvent ∈ sdkEvents steps, ¬ sdkEvent.Fails := by
      constructor
      · intro h sdkEvent hmem hfails
        obtain ⟨event, hmap, hterminal⟩ := mapSdkEvent_of_fails hfails runId
        exact h event (List.mem_filterMap.mpr ⟨sdkEvent, hmem, hmap⟩) hterminal
      · intro h event hmem hterminal
        obtain ⟨sdkEvent, hsdk, hmap⟩ := List.mem_filterMap.mp hmem
        exact h sdkEvent hsdk (terminal_mapSdkEvent_iff.mp ⟨event, hmap, hterminal⟩)
    rw [hstream, finalLast_append_singleton, hnone]
    constructor
    · intro h
      refine ⟨fun _ => h, fun before sdkEvent after heq hfails => ?_⟩
      exact absurd hfails (h sdkEvent (by simp [heq]))
    · exact fun h => h.1 ⟨hcancelled, hending⟩
  · have hstream : runStreamed runId steps ending =
        (sdkEvents steps).filterMap (mapSdkEvent · runId) := by
      cases ending with
      | exhausted finalOutput =>
        have hcancelled : wasCancelled steps = true := by
          by_contra hnot
          exact hcompletes ⟨eq_false_of_ne_true hnot, by simp⟩
        simp [runStreamed, hcancelled]
      | interrupted => simp [runStreamed]
    rw [hstream, hmapped]
    exact ⟨fun h => ⟨fun hc => absurd hc hcompletes, h⟩, And.right⟩

/-- **The event stream.** What a streamed run yields is orderly if and only if no response fails in
a stream that completes, and nothing that is passed on follows a failed response in one that is
cancelled. -/
theorem orderly_iff (runId : String) (steps : List StreamStep) (ending : StreamEnd) :
    Orderly runId (runStreamed runId steps ending) ↔ FailsLast runId steps ending := by
  rw [← finalLast_runStreamed_iff]
  refine ⟨fun h => h.2.1, fun h => ⟨h.length_filter_le, h, ?_⟩⟩
  exact RuntimeReplyCollector.collect_status eventType_runStreamed h

/-- The raw event of a failed response. -/
def failedResponse : SdkEvent :=
  { type := some "raw_response_event", dataType := some "response.failed" }

/-- A stream whose response fails yields a failure and then a completion, and its run counts as
completed. -/
theorem exists_not_orderly :
    (runStreamed "run" [.event failedResponse] (.exhausted none)).map RunEvent.eventType =
        [.runFailed, .runCompleted] ∧
      (RuntimeReplyCollector.collect "run"
        (runStreamed "run" [.event failedResponse] (.exhausted none))).buildResult.status =
          .completed ∧
      ¬ Orderly "run" (runStreamed "run" [.event failedResponse] (.exhausted none)) := by
  refine ⟨by decide, by decide, fun h => ?_⟩
  exact absurd h.1 (by decide)

end Portex
