import Portex.Coordinator.Operations
import Portex.Runtime.Events

/-!
# The events of the websocket route

What `app/routes/websocket.py` makes of the result of a run, and whom it sends an event to. A
terminal event is one that ends a run for the client, whoever made it.

## Main definitions

* `Audience`, `audienceOf`: the originating socket, or its room
* `terminalEventOf`: what `emit_terminal_event` sends for a result
* `cancelledEvent`, `errorEvent`: the failures that the route reports itself
-/

namespace Portex

open Foundation

/-- Whom an event is sent to. -/
inductive Audience
  | origin | room
  deriving DecidableEq

/-- `ConnectionScopedBroadcaster.send_message`: the start of a run is told to its origin alone. -/
def audienceOf (event : RunEvent) : Audience :=
  if event.eventType = .runStarted then .origin else .room

/-- The events that end a run for a client. -/
def RunEvent.Ends (event : RunEvent) : Prop :=
  event.eventType = .runCompleted ∨ event.eventType = .runFailed ∨ event.eventType = .runTimeout

instance : DecidablePred RunEvent.Ends := fun event =>
  inferInstanceAs (Decidable (event.eventType = .runCompleted ∨ event.eventType = .runFailed ∨
    event.eventType = .runTimeout))

theorem RunEvent.Ends.audienceOf {event : RunEvent} (h : event.Ends) :
    Portex.audienceOf event = .room := by
  unfold Portex.audienceOf
  rw [if_neg]
  intro hstarted
  rcases h with h | h | h <;> simp [hstarted] at h

/-- The failure that stands for an accepted cancel. -/
def cancelledEvent (runId : String) : RunEvent where
  eventType := .runFailed
  runId
  payload := (∅ : Payload).insert "status" (.str "cancelled")

/-- The failure that stands for an error. -/
def errorEvent (runId error : String) : RunEvent where
  eventType := .runFailed
  runId
  payload := (∅ : Payload).insert "error" (.str error)

def timeoutEvent (runId : String) (timeoutMs : Option ℤ) : RunEvent where
  eventType := .runTimeout
  runId
  payload := ((∅ : Payload).insert "status" (.str "timeout")).insert "timeout_ms"
    (match timeoutMs with
      | some timeoutMs => .int timeoutMs
      | none => .none)

/-- `result.error or "execution failed"`. -/
def errorText (error : Option String) : String :=
  match error with
  | some error => if error = "" then "execution failed" else error
  | none => "execution failed"

/-- `emit_terminal_event`: what is sent for a result, and to whom. -/
def terminalEventOf (terminalEventSeen : Bool) (result : ExecutionResult) :
    Option (Audience × RunEvent) :=
  if terminalEventSeen ∧ result.status ∈ [.completed, .failed, .timeout] then none
  else
    match result.status with
    | .cancelled => some (.origin, cancelledEvent result.runId)
    | .timeout => some (.room, timeoutEvent result.runId result.timeoutMs)
    | .completed =>
      if result.backend = "openai_runtime" then none
      else some (.room, completedEvent result.runId result.finalOutput)
    | .failed => some (.room, errorEvent result.runId (errorText result.error))
    | .queued | .running => none

theorem terminalEventOf_ends {terminalEventSeen : Bool} {result : ExecutionResult}
    {audience : Audience} {event : RunEvent}
    (h : terminalEventOf terminalEventSeen result = some (audience, event)) :
    event.Ends ∧ event.runId = result.runId := by
  unfold terminalEventOf at h
  split at h
  · cases h
  · split at h
    · obtain ⟨rfl, rfl⟩ := Prod.mk.inj (Option.some.inj h)
      exact ⟨.inr (.inl rfl), rfl⟩
    · obtain ⟨rfl, rfl⟩ := Prod.mk.inj (Option.some.inj h)
      exact ⟨.inr (.inr rfl), rfl⟩
    · split at h
      · cases h
      · obtain ⟨rfl, rfl⟩ := Prod.mk.inj (Option.some.inj h)
        exact ⟨.inl rfl, rfl⟩
    · obtain ⟨rfl, rfl⟩ := Prod.mk.inj (Option.some.inj h)
      exact ⟨.inr (.inl rfl), rfl⟩
    · cases h
    · cases h

end Portex
