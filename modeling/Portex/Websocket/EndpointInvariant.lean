import Portex.Websocket.Endpoint

/-!
# What the endpoint keeps

A run may be ended for its client by the event of its backend, by the result that the coordinator
has stored, by the answer to a cancel, and by the report of an exception. The flag of the route
keeps the second of these from following the first. Nothing keeps the others from it.

## Main definitions

* `Endpoint.Told`: the client has received an end of the run
* `Endpoint.AtMostOnce`: no run has ended twice for the client
* `Endpoint.Disciplined`: no cancel, event or exception comes to a run that has ended
* `Endpoint.Inv`: the invariant

## Main results

* `Inv.emitTerminalEvent`: the result of a run is not sent to a client that was told
* `Inv.step`, `inv_of_run`: what every disciplined run keeps
-/

namespace Portex

open Foundation

variable {ι : Type}

/-- An end of the run. -/
def RunEvent.EndsRun (runId : String) (event : RunEvent) : Prop := event.Ends ∧ event.runId = runId

instance (runId : String) : DecidablePred (RunEvent.EndsRun runId) := fun event =>
  inferInstanceAs (Decidable (event.Ends ∧ event.runId = runId))

/-- An end of the run is on its way to the socket. -/
def RunStream.Telling (origin : ι) : RunStream ι → Prop
  | .sending event sockets => event.Ends ∧ origin ∈ sockets
  | .queued | .streaming | .closed => False

instance [DecidableEq ι] (origin : ι) : DecidablePred (RunStream.Telling origin) := fun stream => by
  cases stream <;> unfold RunStream.Telling <;> infer_instance

def WaitingPhase.Starting : WaitingPhase ι → Prop
  | .starting => True
  | .awaiting | .emitting _ _ | .failing _ _ | .cancelled => False

instance : DecidablePred (WaitingPhase.Starting (ι := ι)) := fun phase => by
  cases phase <;> unfold WaitingPhase.Starting <;> infer_instance

/-- The task is in a send of `emit_terminal_event`. -/
def WaitingPhase.Emitting : WaitingPhase ι → Prop
  | .emitting _ sockets => sockets ≠ []
  | .starting | .awaiting | .failing _ _ | .cancelled => False

instance : DecidablePred (WaitingPhase.Emitting (ι := ι)) := fun phase => by
  cases phase <;> unfold WaitingPhase.Emitting <;> infer_instance

namespace Endpoint

/-! ## The property and its condition -/

/-- The client has received an end of the run. -/
def Told (runId : String) (s : Endpoint ι) : Prop := ∃ event ∈ s.received, event.EndsRun runId

instance (runId : String) : DecidablePred (Told (ι := ι) runId) := fun s =>
  inferInstanceAs (Decidable (∃ event ∈ s.received, event.EndsRun runId))

/-- The client has received one end at most of each run. -/
def AtMostOnce (s : Endpoint ι) : Prop :=
  ∀ runId, s.received.countP (fun event => event.EndsRun runId) ≤ 1

/-- The frame cancels the run. -/
def Cancels (message : String) (runId : String) (s : Endpoint ι) : Prop :=
  parseCancelRunId s.limits message = .ok (some (.ofString runId))

instance (message runId : String) (s : Endpoint ι) : Decidable (s.Cancels message runId) :=
  inferInstanceAs (Decidable (_ = _))

/-- While the client is there: it cancels no run that has ended for it, or of which it is just
being told so; a backend reports no end of a run that has ended or whose cancel is still to be
answered; and for a run that has ended, no send of its waiting task fails, and its result is not
dropped before the task has looked for it. -/
def Disciplined (origin : ι) (s : Endpoint ι) (a : EndpointAction ι) : Prop :=
  s.gone = false →
    match a with
    | .receive message _ =>
      ∀ runId ∈ s.activeRunId, s.Cancels message runId →
        ¬ s.Told runId ∧ ∀ run ∈ s.runs runId, ¬ run.stream.Telling origin
    | .report runId event _ =>
      event.Ends → ¬ s.Told runId ∧ s.reader ≠ .cleaning runId
    | .waiterSend runId error _ =>
      error ≠ none → (∀ task ∈ s.activeTask, task.phase.Emitting) → ¬ s.Told runId
    | .wait runId _ =>
      (∀ task ∈ s.activeTask, task.phase.Starting) →
        (∀ run ∈ s.runs runId, run.retained = false) → ¬ s.Told runId
    | _ => True

instance [DecidableEq ι] (origin : ι) (s : Endpoint ι) (a : EndpointAction ι) :
    Decidable (s.Disciplined origin a) := by
  unfold Disciplined
  cases a <;> infer_instance

/-! ## The invariant -/

/-- An end of the run is on its way to the socket, from its waiting task. -/
def Emitting (origin : ι) (runId : String) (s : Endpoint ι) : Prop :=
  ∃ task ∈ s.activeTask, task.runId = runId ∧ origin ∈ task.phase.sockets

/-- An end of the run is on its way to the socket, from its event handler. -/
def Telling (origin : ι) (runId : String) (s : Endpoint ι) : Prop :=
  ∃ run ∈ s.runs runId, run.stream.Telling origin

/-- An end of the run is on its way to the socket, from one of the three tasks. -/
def Pending (origin : ι) (runId : String) (s : Endpoint ι) : Prop :=
  s.Telling origin runId ∨ s.Emitting origin runId ∨ s.reader = .cleaning runId

end Endpoint

/-- A run whose result is not that of a cancel reports nothing more. -/
structure EndpointRun.Sound (runId : String) (run : EndpointRun ι) : Prop where
  event : ∀ event sockets, run.stream = .sending event sockets →
    event.runId = runId ∧ sockets.Nodup
  result : ∀ result ∈ run.result, result.runId = runId ∧
    result.status ∈ [.cancelled, .completed, .failed, .timeout] ∧
      (result.status = .cancelled ∨ run.stream = .closed)

/-- What a waiting task at that phase has found. -/
def WaitingPhase.Sound (runId : String) (run : EndpointRun ι) : WaitingPhase ι → Prop
  | .starting | .awaiting | .cancelled => True
  | .emitting event sockets | .failing event sockets =>
    run.result ≠ none ∧ event.EndsRun runId ∧ sockets.Nodup

theorem WaitingPhase.Sound.mono {phase : WaitingPhase ι} {run run' : EndpointRun ι}
    (h : phase.Sound runId run) (hresult : run.result ≠ none → run'.result ≠ none) :
    phase.Sound runId run' := by
  cases phase with
  | starting | awaiting | cancelled => trivial
  | emitting event sockets | failing event sockets => exact ⟨hresult h.1, h.2⟩

structure WaitingTask.Found (task : WaitingTask ι) (run : EndpointRun ι) : Prop where
  status : ∀ result ∈ run.result, result.status ≠ .cancelled
  phase : task.phase.Sound task.runId run

/-- The task has not looked at the flag of the route yet. -/
def WaitingPhase.Waiting : WaitingPhase ι → Prop
  | .starting | .awaiting => True
  | .emitting _ _ | .failing _ _ | .cancelled => False

/-- The task goes on. -/
def WaitingPhase.Live : WaitingPhase ι → Prop
  | .cancelled => False
  | .starting | .awaiting | .emitting _ _ | .failing _ _ => True

theorem WaitingPhase.live_of_mem_sockets {origin : ι} {phase : WaitingPhase ι}
    (h : origin ∈ phase.sockets) : phase.Live := by
  cases phase with
  | cancelled => cases h
  | starting | awaiting | emitting | failing => trivial

namespace Endpoint

/-- What a live waiting task has. -/
structure TaskSound (origin : ι) (task : WaitingTask ι) (s : Endpoint ι) : Prop where
  run : ∃ run ∈ s.runs task.runId, task.Found run
  seen : task.phase.Waiting → s.Told task.runId ∨ s.Telling origin task.runId →
    s.terminalEventSeen = true

/-- **The invariant** of disciplined runs. -/
structure Inv (origin : ι) (s : Endpoint ι) : Prop where
  once : s.AtMostOnce
  known : ∀ runId, s.Told runId → s.runs runId ≠ none
  runs : ∀ runId, ∀ run ∈ s.runs runId, run.Sound runId
  cleaning : ∀ runId, s.reader = .cleaning runId → ∃ run ∈ s.runs runId, run.result ≠ none
  live : ∀ task ∈ s.activeTask, task.phase.Live → s.reader = .receiving
  active : s.reader = .receiving → s.activeRunId = s.activeTask.map WaitingTask.runId ∧
    ∀ task ∈ s.activeTask, task.phase.Live
  task : ∀ task ∈ s.activeTask, task.phase.Live → s.TaskSound origin task
  /-- What is on its way has not come before. -/
  fresh : s.gone = false → ∀ runId, s.Pending origin runId → ¬ s.Told runId
  apart : s.gone = false → ∀ runId, s.reader = .cleaning runId → ¬ s.Telling origin runId

variable {origin : ι} {s t : Endpoint ι} {runId : String}

theorem inv_empty (limits : PyLimits) : Inv origin ({ limits } : Endpoint ι) where
  once runId := Nat.zero_le 1
  known runId h := by
    obtain ⟨event, hevent, -⟩ := h
    cases hevent
  runs runId run h := by cases h
  cleaning runId h := by cases h
  live task h := by cases h
  active _ := ⟨rfl, fun task h => by cases h⟩
  task task h := by cases h
  fresh _ runId _ h := by
    obtain ⟨event, hevent, -⟩ := h
    cases hevent
  apart _ runId h := by cases h

/-! ## What the client is told -/

/-- A send that reaches the client. -/
theorem told_receive {event : RunEvent} : Told runId { s with received := s.received ++ [event] } ↔
    s.Told runId ∨ event.EndsRun runId := by
  simp [Told, or_and_right, exists_or]

theorem countP_eq_zero_of_not_told (h : ¬ s.Told runId) :
    s.received.countP (fun event => event.EndsRun runId) = 0 := by
  rw [List.countP_eq_zero]
  intro event hevent hends
  exact h ⟨event, hevent, by simpa using hends⟩

/-! ## The runs -/

@[simp] theorem setRun_runs_self (runId : String) (run : EndpointRun ι) (s : Endpoint ι) :
    (s.setRun runId run).runs runId = some run :=
  Function.update_self _ _ _

theorem setRun_runs_of_ne {other : String} (hne : other ≠ runId) (run : EndpointRun ι)
    (s : Endpoint ι) : (s.setRun runId run).runs other = s.runs other :=
  Function.update_of_ne hne _ _

/-- A run of `s.setRun` is the new one, or another one that was there. -/
theorem mem_setRun {run run' : EndpointRun ι} {other : String}
    (h : run' ∈ (s.setRun runId run).runs other) :
    (other = runId ∧ run' = run) ∨ (other ≠ runId ∧ run' ∈ s.runs other) := by
  by_cases hsame : other = runId
  · rw [hsame, setRun_runs_self] at h
    exact .inl ⟨hsame, (Option.some.inj h).symm⟩
  · rw [setRun_runs_of_ne hsame] at h
    exact .inr ⟨hsame, h⟩

/-- A run that has changed is still there. -/
theorem exists_mem_setRun {run old : EndpointRun ι} {other : String} (run' : EndpointRun ι)
    (hrun : run ∈ s.runs runId) (hold : old ∈ s.runs other) :
    ∃ new ∈ (s.setRun runId run').runs other, new = old ∨ (old = run ∧ new = run') := by
  by_cases hsame : other = runId
  · rw [hsame] at hold ⊢
    exact ⟨run', setRun_runs_self runId run' s, .inr ⟨Option.some.inj (hold.symm.trans hrun), rfl⟩⟩
  · exact ⟨old, (setRun_runs_of_ne hsame run' s).trans hold, .inl rfl⟩

/-- A run that goes on, and tells the client nothing new. -/
structure GoesOn (origin : ι) (run run' : EndpointRun ι) : Prop where
  result : run.result ≠ none → run'.result ≠ none
  status : ∀ result ∈ run'.result, result ∈ run.result ∨ result.status ≠ .cancelled
  telling : run'.stream.Telling origin → run.stream.Telling origin

theorem GoesOn.of_telling {run run' : EndpointRun ι} (h : GoesOn origin run run')
    (hrun : run ∈ s.runs runId) {other : String}
    (htelling : (s.setRun runId run').Telling origin other) : s.Telling origin other := by
  obtain ⟨new, hnew, htelling⟩ := htelling
  rcases mem_setRun hnew with ⟨rfl, rfl⟩ | ⟨-, hold⟩
  · exact ⟨run, hrun, h.telling htelling⟩
  · exact ⟨new, hold, htelling⟩

/-- **A run that goes on** keeps the invariant. -/
theorem Inv.setRun (h : Inv origin s) {run run' : EndpointRun ι} (hrun : run ∈ s.runs runId)
    (hsound : run'.Sound runId) (hgoes : GoesOn origin run run') :
    Inv origin (s.setRun runId run') := by
  constructor
  case once => exact h.once
  case known =>
    intro other htold
    obtain ⟨old, hold⟩ := Option.ne_none_iff_exists'.mp (h.known other htold)
    obtain ⟨new, hnew, -⟩ := exists_mem_setRun run' hrun hold
    exact Option.ne_none_iff_exists'.mpr ⟨new, hnew⟩
  case runs =>
    intro other new hnew
    rcases mem_setRun hnew with ⟨rfl, rfl⟩ | ⟨-, hold⟩
    · exact hsound
    · exact h.runs other new hold
  case cleaning =>
    intro other hcleaning
    obtain ⟨old, hold, hresult⟩ := h.cleaning other hcleaning
    obtain ⟨new, hnew, rfl | ⟨rfl, rfl⟩⟩ := exists_mem_setRun run' hrun hold
    · exact ⟨new, hnew, hresult⟩
    · exact ⟨new, hnew, hgoes.result hresult⟩
  case live => exact h.live
  case active => exact h.active
  case task =>
    intro task htask hlive
    obtain ⟨⟨old, hold, hfound⟩, hseen⟩ := h.task task htask hlive
    refine ⟨?_, fun hwaiting htold => hseen hwaiting (htold.imp_right (hgoes.of_telling hrun))⟩
    obtain ⟨new, hnew, rfl | ⟨rfl, rfl⟩⟩ := exists_mem_setRun run' hrun hold
    · exact ⟨new, hnew, hfound⟩
    · refine ⟨new, hnew, fun result hresult => ?_, hfound.phase.mono hgoes.result⟩
      rcases hgoes.status result hresult with hold | hregular
      · exact hfound.status result hold
      · exact hregular
  case fresh =>
    intro hgone other hpending
    refine h.fresh hgone other (hpending.imp_left (hgoes.of_telling hrun))
  case apart =>
    intro hgone other hcleaning htelling
    exact h.apart hgone other hcleaning (hgoes.of_telling hrun htelling)

/-- While a run may report, its waiting task sends nothing. -/
theorem Inv.not_emitting (h : Inv origin s) {run : EndpointRun ι} (hrun : run ∈ s.runs runId)
    (hopen : run.stream ≠ .closed) : ¬ s.Emitting origin runId := by
  rintro ⟨task, htask, rfl, horigin⟩
  obtain ⟨⟨old, hold, hfound⟩, -⟩ := h.task task htask (WaitingPhase.live_of_mem_sockets horigin)
  obtain rfl := Option.some.inj (hold.symm.trans hrun)
  have hsome : old.result ≠ none := by
    have hsound := hfound.phase
    cases hphase : task.phase with
    | starting | awaiting | cancelled =>
      rw [hphase] at horigin
      cases horigin
    | emitting event sockets | failing event sockets =>
      rw [hphase] at hsound
      exact hsound.1
  obtain ⟨result, hresult⟩ := Option.ne_none_iff_exists'.mp hsome
  exact hopen (((h.runs _ old hrun).result result hresult).2.2.resolve_left
    (hfound.status result hresult))

/-- **A report** that is the first of an end. -/
theorem Inv.report (h : Inv origin s) {run : EndpointRun ι} {event : RunEvent} {room : List ι}
    (hrun : run ∈ s.runs runId) (hopen : run.stream = .streaming) (hevent : event.runId = runId)
    (hroom : room.Nodup)
    (hfirst : s.gone = false → event.Ends → ¬ s.Told runId ∧ s.reader ≠ .cleaning runId) :
    Inv origin (s.report origin runId event room run) := by
  have hnot := h.not_emitting hrun (by simp [hopen])
  -- Another run is told what it was told before.
  have htelling {other : String} (htelling : (s.report origin runId event room run).Telling
      origin other) : s.Telling origin other ∨ (other = runId ∧ event.Ends) := by
    obtain ⟨new, hnew, htelling⟩ := htelling
    rcases mem_setRun hnew with ⟨rfl, rfl⟩ | ⟨-, hold⟩
    · exact .inr ⟨rfl, htelling.1⟩
    · exact .inl ⟨new, hold, htelling⟩
  constructor
  case once => exact h.once
  case known =>
    intro other htold
    obtain ⟨old, hold⟩ := Option.ne_none_iff_exists'.mp (h.known other htold)
    obtain ⟨new, hnew, -⟩ := exists_mem_setRun _ hrun hold
    exact Option.ne_none_iff_exists'.mpr ⟨new, hnew⟩
  case runs =>
    intro other new hnew
    rcases mem_setRun hnew with ⟨rfl, rfl⟩ | ⟨-, hold⟩
    · refine ⟨fun event' sockets hsending => ?_, fun result hresult => ?_⟩
      · obtain ⟨rfl, rfl⟩ := RunStream.sending.inj hsending
        refine ⟨hevent, ?_⟩
        cases audienceOf event with
        | origin => exact List.nodup_singleton origin
        | room => exact hroom
      · obtain ⟨hid, hstatus, hcase⟩ := (h.runs _ run hrun).result result hresult
        rw [hopen] at hcase
        exact ⟨hid, hstatus, .inl (hcase.resolve_right (by simp))⟩
    · exact h.runs other new hold
  case cleaning =>
    intro other hcleaning
    obtain ⟨old, hold, hresult⟩ := h.cleaning other hcleaning
    obtain ⟨new, hnew, rfl | ⟨rfl, rfl⟩⟩ := exists_mem_setRun _ hrun hold
    · exact ⟨_, hnew, hresult⟩
    · exact ⟨_, hnew, hresult⟩
  case live => exact h.live
  case active => exact h.active
  case task =>
    intro task htask hlive
    obtain ⟨⟨old, hold, hfound⟩, hseen⟩ := h.task task htask hlive
    refine ⟨?_, fun hwaiting htold => ?_⟩
    · obtain ⟨new, hnew, rfl | ⟨rfl, rfl⟩⟩ := exists_mem_setRun _ hrun hold
      · exact ⟨_, hnew, hfound⟩
      · exact ⟨_, hnew, hfound.status, hfound.phase.mono id⟩
    · rcases htold with htold | htold
      · exact Bool.or_eq_true_iff.mpr (.inl (hseen hwaiting (.inl htold)))
      · rcases htelling htold with htold | ⟨-, hends⟩
        · exact Bool.or_eq_true_iff.mpr (.inl (hseen hwaiting (.inr htold)))
        · exact Bool.or_eq_true_iff.mpr (.inr (decide_eq_true hends))
  case fresh =>
    intro hgone other hpending htold
    rcases hpending with hpending | hpending
    · rcases htelling hpending with hpending | ⟨rfl, hends⟩
      · exact h.fresh hgone other (.inl hpending) htold
      · exact (hfirst hgone hends).1 htold
    · exact h.fresh hgone other (.inr hpending) htold
  case apart =>
    intro hgone other hcleaning htold
    rcases htelling htold with htold | ⟨rfl, hends⟩
    · exact h.apart hgone other hcleaning htold
    · exact (hfirst hgone hends).2 hcleaning

/-- **A run has a result**, and reports nothing more. -/
theorem Inv.finishRun (h : Inv origin s) {run : EndpointRun ι} (hrun : run ∈ s.runs runId)
    {result : ExecutionResult} (hstep : s.finishRun runId result run = some t) : Inv origin t := by
  have hset (hstatus : result.runId = runId ∧
      result.status ∈ [ExecutionStatus.completed, .failed, .timeout]) :
      Inv origin (s.setRun runId { run with result := some result, stream := .closed }) := by
    refine h.setRun hrun ⟨fun _ _ hnew => (by cases hnew), fun new hnew => ?_⟩
      ⟨fun _ => Option.some_ne_none _, fun new hnew => .inr ?_, False.elim⟩
    · obtain rfl := Option.some.inj hnew
      exact ⟨hstatus.1, List.mem_cons_of_mem _ hstatus.2, .inr rfl⟩
    · obtain rfl := Option.some.inj hnew
      intro hcancelled
      rw [hcancelled] at hstatus
      exact absurd hstatus.2 (by decide)
  unfold Endpoint.finishRun at hstep
  split at hstep
  · obtain ⟨hstatus, hstep⟩ := Option.ite_none_right_eq_some.mp hstep
    obtain rfl := Option.some.inj hstep
    exact hset hstatus
  · obtain ⟨hstatus, hstep⟩ := Option.ite_none_right_eq_some.mp hstep
    obtain rfl := Option.some.inj hstep
    exact hset hstatus
  · obtain ⟨hstatus, hstep⟩ := Option.ite_none_right_eq_some.mp hstep
    obtain rfl := Option.some.inj hstep
    exact hset hstatus
  · cases hstep

/-! ## The waiting task -/

/-- **The waiting task goes on** to another phase. -/
theorem Inv.setPhase (h : Inv origin s) {task : WaitingTask ι} (htask : task ∈ s.activeTask)
    (hlive : task.phase.Live) {phase : WaitingPhase ι} (hphase : phase.Live)
    (hsound : ∀ run ∈ s.runs task.runId, phase.Sound task.runId run)
    (hwaiting : phase.Waiting → task.phase.Waiting)
    (hfirst : s.gone = false → origin ∈ phase.sockets → ¬ s.Told task.runId) :
    Inv origin (s.setPhase task.runId phase) := by
  have hreader := h.live task htask hlive
  constructor
  case once => exact h.once
  case known => exact h.known
  case runs => exact h.runs
  case cleaning => exact h.cleaning
  case live => exact fun _ _ _ => hreader
  case active =>
    intro _
    refine ⟨(h.active hreader).1.trans (by rw [htask]; rfl), fun new hnew => ?_⟩
    obtain rfl := Option.some.inj hnew
    exact hphase
  case task =>
    intro new hnew _
    obtain rfl := Option.some.inj hnew
    obtain ⟨⟨run, hrun, hfound⟩, hseen⟩ := h.task task htask hlive
    exact ⟨⟨run, hrun, hfound.status, hsound run hrun⟩, fun hnew => hseen (hwaiting hnew)⟩
  case fresh =>
    rintro hgone other (htelling | ⟨new, hnew, rfl, horigin⟩ | hcleaning)
    · exact h.fresh hgone other (.inl htelling)
    · obtain rfl := Option.some.inj hnew
      exact hfirst hgone horigin
    · exact h.fresh hgone other (.inr (.inr hcleaning))
  case apart => exact h.apart

/-- **The waiting task ends.** -/
theorem Inv.endTask (h : Inv origin s) {task : WaitingTask ι} (htask : task ∈ s.activeTask)
    (hlive : task.phase.Live) : Inv origin (s.endTask task.runId) := by
  have hreader := h.live task htask hlive
  have hactive : s.activeRunId = some task.runId := by
    rw [(h.active hreader).1, htask]
    rfl
  constructor
  case once => exact h.once
  case known => exact h.known
  case runs => exact h.runs
  case cleaning => exact h.cleaning
  case live => exact fun _ hnone => by cases hnone
  case active => exact fun _ => ⟨if_pos hactive, fun _ hnone => by cases hnone⟩
  case task => exact fun _ hnone => by cases hnone
  case fresh =>
    rintro hgone other (htelling | ⟨new, hnew, -⟩ | hcleaning)
    · exact h.fresh hgone other (.inl htelling)
    · cases hnew
    · exact h.fresh hgone other (.inr (.inr hcleaning))
  case apart => exact h.apart

/-- **A result is emitted**: the flag of the route says whether the client has been told. -/
theorem Inv.emitTerminalEvent (h : Inv origin s) {task : WaitingTask ι}
    (htask : task ∈ s.activeTask) (hwaiting : task.phase.Waiting) {run : EndpointRun ι}
    (hrun : run ∈ s.runs task.runId) {result : ExecutionResult} (hresult : result ∈ run.result)
    {room : List ι} (hroom : room.Nodup) :
    Inv origin (s.emitTerminalEvent origin room task.runId result) := by
  have hlive : task.phase.Live := by
    cases hphase : task.phase with
    | starting | awaiting => trivial
    | emitting | failing | cancelled =>
      rw [hphase] at hwaiting
      exact hwaiting.elim
  obtain ⟨⟨old, hold, hfound⟩, hseen⟩ := h.task task htask hlive
  obtain rfl := Option.some.inj (hold.symm.trans hrun)
  obtain ⟨hid, hstatus, -⟩ := (h.runs _ old hrun).result result hresult
  unfold Endpoint.emitTerminalEvent
  split
  · exact h.endTask htask hlive
  · rename_i target event hevent
    have hends := terminalEventOf_ends hevent
    -- A result that is emitted has found the flag clear.
    have hclear : s.terminalEventSeen = false := by
      by_contra hset
      have hquiet : s.terminalEventSeen = true ∧ result.status ∈ [.completed, .failed, .timeout] :=
        ⟨by simpa using hset, List.mem_of_ne_of_mem (hfound.status result hresult) hstatus⟩
      rw [terminalEventOf, if_pos hquiet] at hevent
      cases hevent
    refine h.setPhase htask hlive trivial (fun other hother => ?_) False.elim fun _ _ htold => ?_
    · obtain rfl := Option.some.inj (hrun.symm.trans hother)
      refine ⟨by rw [hresult]; exact Option.some_ne_none _, ⟨hends.1, hends.2.trans hid⟩, ?_⟩
      cases target with
      | origin => exact List.nodup_singleton origin
      | room => exact hroom
    · rw [hseen hwaiting (.inl htold)] at hclear
      cases hclear

/-- **The look-up of a run**, whose result is kept, or whose client has not been told. -/
theorem Inv.waitForRun (h : Inv origin s) {task : WaitingTask ι}
    (htask : task ∈ s.activeTask) (hstarting : task.phase.Starting) {run : EndpointRun ι}
    (hrun : run ∈ s.runs task.runId) {room : List ι} (hroom : room.Nodup)
    (hfirst : s.gone = false → run.retained = false → ¬ s.Told task.runId) :
    Inv origin (s.waitForRun origin room task.runId run) := by
  obtain ⟨hlive, hwaiting⟩ : task.phase.Live ∧ task.phase.Waiting := by
    cases hphase : task.phase with
    | starting => exact ⟨trivial, trivial⟩
    | awaiting | emitting | failing | cancelled =>
      rw [hphase] at hstarting
      exact hstarting.elim
  unfold Endpoint.waitForRun
  split
  · rename_i result hresult
    split
    · exact h.emitTerminalEvent htask hwaiting hrun hresult hroom
    · rename_i hdropped
      refine h.setPhase htask hlive trivial (fun other hother => ?_) False.elim fun hgone _ =>
        hfirst hgone (by simpa using hdropped)
      obtain rfl := Option.some.inj (hrun.symm.trans hother)
      exact ⟨by rw [hresult]; exact Option.some_ne_none _, ⟨.inr (.inl rfl), rfl⟩, hroom⟩
  · exact h.setPhase htask hlive trivial (fun _ _ => trivial) (fun _ => hwaiting)
      fun _ horigin => by cases horigin

/-! ## The reader -/

theorem cancelRun_eq (runId : String) (s : Endpoint ι) :
    s.cancelRun runId = { s with runs := (s.cancelRun runId).runs } := by
  unfold Endpoint.cancelRun
  split
  · split <;> rfl
  · rfl

/-- The runs after a cancel: each reports what it reported, and the run has a result. -/
theorem Inv.mem_cancelRun (h : Inv origin s) {other : String} {new : EndpointRun ι}
    (hnew : new ∈ (s.cancelRun runId).runs other) :
    new.Sound other ∧ (other = runId → new.result ≠ none) ∧
      ∃ old ∈ s.runs other, new.stream = old.stream ∧ (old.result ≠ none → new.result ≠ none) := by
  unfold Endpoint.cancelRun at hnew
  split at hnew
  · rename_i run hrun
    split at hnew
    · rename_i result hresult
      refine ⟨h.runs other new hnew, ?_, new, hnew, rfl, id⟩
      rintro rfl
      obtain rfl := Option.some.inj (hrun.symm.trans hnew)
      rw [hresult]
      exact Option.some_ne_none _
    · rcases mem_setRun hnew with ⟨rfl, rfl⟩ | ⟨hne, hold⟩
      · refine ⟨⟨(h.runs _ run hrun).event, fun result hresult => ?_⟩,
          fun _ => Option.some_ne_none _, run, hrun, rfl, fun _ => Option.some_ne_none _⟩
        obtain rfl := Option.some.inj hresult
        exact ⟨rfl, List.mem_cons_self, .inl rfl⟩
      · exact ⟨h.runs other new hold, fun hsame => absurd hsame hne, new, hold, rfl, id⟩
  · rename_i hnone
    refine ⟨h.runs other new hnew, ?_, new, hnew, rfl, id⟩
    rintro rfl
    cases hnone.symm.trans hnew

theorem cancelRun_ne_none (runId : String) {other : String} (h : s.runs other ≠ none) :
    (s.cancelRun runId).runs other ≠ none := by
  unfold Endpoint.cancelRun
  split
  · split
    · exact h
    · by_cases hsame : other = runId
      · rw [hsame, setRun_runs_self]
        exact Option.some_ne_none _
      · rwa [setRun_runs_of_ne hsame]
  · exact h

/-- **An interrupt**: the reader cancels a run and its waiting task. -/
theorem Inv.interrupt (h : Inv origin s) {reader : EndpointReader} (hreader : reader ≠ .receiving)
    (hcleaning : ∀ other, reader = .cleaning other → other = runId ∧ s.runs runId ≠ none ∧
      (s.gone = false → ¬ s.Told runId ∧ ¬ s.Telling origin runId)) :
    Inv origin { (s.cancelRun runId).cancelTask with reader } := by
  have hsame := cancelRun_eq runId s
  have hreceived := congrArg received hsame
  have hgone := congrArg gone hsame
  have htold {other : String} (htold : Told other { (s.cancelRun runId).cancelTask with reader }) :
      s.Told other := by
    obtain ⟨event, hevent, hends⟩ := htold
    exact ⟨event, hreceived ▸ hevent, hends⟩
  have htelling {other : String}
      (htelling : Telling origin other { (s.cancelRun runId).cancelTask with reader }) :
      s.Telling origin other := by
    obtain ⟨new, hnew, htelling⟩ := htelling
    obtain ⟨-, -, old, hold, hstream, -⟩ := h.mem_cancelRun hnew
    exact ⟨old, hold, hstream ▸ htelling⟩
  -- No task goes on.
  have hstopped (task : WaitingTask ι) (htask : task ∈ (s.cancelRun runId).cancelTask.activeTask) :
      task.phase = .cancelled := by
    obtain ⟨old, -, rfl⟩ := Option.map_eq_some_iff.mp htask
    rfl
  constructor
  case once =>
    intro other
    have honce := h.once other
    rwa [← hreceived] at honce
  case known => exact fun other hnew => cancelRun_ne_none _ (h.known other (htold hnew))
  case runs => exact fun other new hnew => (h.mem_cancelRun hnew).1
  case cleaning =>
    intro other hnew
    obtain ⟨rfl, hknown, -⟩ := hcleaning other hnew
    obtain ⟨new, hrun⟩ := Option.ne_none_iff_exists'.mp (cancelRun_ne_none other hknown)
    exact ⟨new, hrun, (h.mem_cancelRun hrun).2.1 rfl⟩
  case live =>
    intro task htask hlive
    rw [hstopped task htask] at hlive
    exact hlive.elim
  case active => exact fun hnew => absurd hnew hreader
  case task =>
    intro task htask hlive
    rw [hstopped task htask] at hlive
    exact hlive.elim
  case fresh =>
    rintro hnew other (hpending | ⟨task, htask, -, horigin⟩ | hpending) hold
    · exact h.fresh (hgone.symm.trans hnew) other (.inl (htelling hpending)) (htold hold)
    · rw [hstopped task htask] at horigin
      cases horigin
    · obtain ⟨rfl, -, hfirst⟩ := hcleaning other hpending
      exact (hfirst (hgone.symm.trans hnew)).1 (htold hold)
  case apart =>
    intro hnew other hpending hold
    obtain ⟨rfl, -, hfirst⟩ := hcleaning other hpending
    exact (hfirst (hgone.symm.trans hnew)).2 (htelling hold)

/-- **A prompt** starts a run that nothing is known of. -/
theorem Inv.submit (h : Inv origin s) (hreader : s.reader = .receiving) {submission : Submission}
    (hnew : s.runs submission.runId = none) :
    Inv origin { s.setRun submission.runId
        { groupFolder := submission.groupFolder, backend := submission.backend,
          sessionId := submission.sessionId } with
      terminalEventSeen := false
      activeRunId := some submission.runId
      activeTask := some { runId := submission.runId, phase := .starting } } := by
  have hfresh : ¬ s.Told submission.runId := fun htold => h.known _ htold hnew
  have hold {other : String} (hother : s.runs other ≠ none) : other ≠ submission.runId := by
    rintro rfl
    exact hother hnew
  constructor
  case once => exact h.once
  case known =>
    intro other htold
    have hknown := h.known other htold
    rwa [← setRun_runs_of_ne (hold hknown)] at hknown
  case runs =>
    intro other run hrun
    rcases mem_setRun hrun with ⟨rfl, rfl⟩ | ⟨-, hrun⟩
    · exact ⟨fun _ _ hnew => (by cases hnew), fun _ hnew => by cases hnew⟩
    · exact h.runs other run hrun
  case cleaning =>
    intro other hcleaning
    cases hreader.symm.trans hcleaning
  case live => exact fun _ _ _ => hreader
  case active =>
    refine fun _ => ⟨rfl, fun task htask => ?_⟩
    obtain rfl := Option.some.inj htask
    trivial
  case task =>
    intro task htask _
    obtain rfl := Option.some.inj htask
    refine ⟨⟨_, setRun_runs_self _ _ _, fun _ hnone => (by cases hnone), trivial⟩, ?_⟩
    rintro - (htold | ⟨run, hrun, htelling⟩)
    · exact absurd htold hfresh
    · obtain rfl := Option.some.inj ((setRun_runs_self _ _ _).symm.trans hrun)
      exact htelling.elim
  case fresh =>
    rintro hgone other (⟨run, hrun, htelling⟩ | ⟨task, htask, -, horigin⟩ | hcleaning)
    · rcases mem_setRun hrun with ⟨rfl, rfl⟩ | ⟨-, hrun⟩
      · exact htelling.elim
      · exact h.fresh hgone other (.inl ⟨run, hrun, htelling⟩)
    · obtain rfl := Option.some.inj htask
      cases horigin
    · cases hreader.symm.trans hcleaning
  case apart =>
    intro _ other hcleaning
    cases hreader.symm.trans hcleaning

/-- **The reader leaves its loop**, and no task goes on. -/
theorem Inv.leaveLoop (h : Inv origin s) {reader : EndpointReader} (hreader : reader ≠ .receiving)
    (hcleaning : ∀ other, reader ≠ .cleaning other) {task : Option (WaitingTask ι)}
    (htask : ∀ stopped ∈ task, stopped.phase = .cancelled) :
    Inv origin { s with reader, activeTask := task } := by
  have hstopped {stopped : WaitingTask ι} (hmem : stopped ∈ task) : ¬ stopped.phase.Live := by
    rw [htask stopped hmem]
    exact id
  constructor
  case once => exact h.once
  case known => exact h.known
  case runs => exact h.runs
  case cleaning => exact fun other hnew => absurd hnew (hcleaning other)
  case live => exact fun _ hmem hlive => absurd hlive (hstopped hmem)
  case active => exact fun hnew => absurd hnew hreader
  case task => exact fun _ hmem hlive => absurd hlive (hstopped hmem)
  case fresh =>
    rintro hgone other (htelling | ⟨stopped, hmem, -, horigin⟩ | hnew)
    · exact h.fresh hgone other (.inl htelling)
    · exact absurd (WaitingPhase.live_of_mem_sockets horigin) (hstopped hmem)
    · exact absurd hnew (hcleaning other)
  case apart => exact fun _ other hnew => absurd hnew (hcleaning other)

/-- **The client goes away**, and is told nothing more. -/
theorem Inv.leave (h : Inv origin s) : Inv origin { s with gone := true } :=
  ⟨h.once, h.known, h.runs, h.cleaning, h.live, h.active,
    fun task htask hlive => ⟨(h.task task htask hlive).run, (h.task task htask hlive).seen⟩,
    fun hgone => (by cases hgone), fun hgone => (by cases hgone)⟩

theorem Inv.disconnect (h : Inv origin s) : Inv origin s.disconnect := by
  unfold Endpoint.disconnect
  split
  · exact h.interrupt (by simp) fun _ hnew => by cases hnew
  · refine h.leaveLoop (by simp) (by simp) fun stopped hmem => ?_
    obtain ⟨task, -, rfl⟩ := Option.map_eq_some_iff.mp hmem
    rfl

/-- **A frame.** -/
theorem Inv.receive (h : Inv origin s) (hreader : s.reader = .receiving) {message : String}
    {submission : Submission} (hnew : s.runs submission.runId = none)
    (hfirst : s.gone = false → ∀ runId ∈ s.activeRunId, s.Cancels message runId →
      ¬ s.Told runId ∧ ¬ s.Telling origin runId) : Inv origin (s.receive message submission) := by
  unfold Endpoint.receive
  split
  · exact h.disconnect
  · rename_i cancelRunId hcancel
    split
    · rename_i runId hactive
      split
      · rename_i hsame
        have hcancels : s.Cancels message runId := by rw [Cancels, hcancel, hsame]
        refine h.interrupt (by simp) fun other hother => ?_
        obtain rfl := EndpointReader.cleaning.inj hother
        refine ⟨rfl, ?_, fun hgone => hfirst hgone runId hactive hcancels⟩
        -- The run is that of the waiting task.
        obtain ⟨hid, hlive⟩ := h.active hreader
        obtain ⟨task, htask, rfl⟩ := Option.map_eq_some_iff.mp (hid.symm.trans hactive)
        obtain ⟨⟨run, hrun, -⟩, -⟩ := h.task task htask (hlive task htask)
        exact Option.ne_none_iff_exists'.mpr ⟨run, hrun⟩
      · exact h
    · exact h
  · split
    · exact h
    · split
      · exact h
      · exact h.submit hreader hnew

/-! ## Sending to the client -/

section Sending

variable [DecidableEq ι]

@[simp] theorem deliver_reader (origin socket : ι) (event : RunEvent) (error : Option String)
    (s : Endpoint ι) : (s.deliver origin socket event error).reader = s.reader := by
  unfold deliver
  split <;> rfl

@[simp] theorem deliver_gone (origin socket : ι) (event : RunEvent) (error : Option String)
    (s : Endpoint ι) : (s.deliver origin socket event error).gone = s.gone := by
  unfold deliver
  split <;> rfl

@[simp] theorem deliver_runs (origin socket : ι) (event : RunEvent) (error : Option String)
    (s : Endpoint ι) : (s.deliver origin socket event error).runs = s.runs := by
  unfold deliver
  split <;> rfl

/-- **A send** to the client keeps the invariant, where the end that it brings is the first, and
no other is on its way. -/
theorem Inv.deliver (h : Inv origin s) {socket : ι} {event : RunEvent} {error : Option String}
    (hfirst : s.gone = false → socket = origin → event.Ends → s.runs event.runId ≠ none ∧
      ¬ s.Told event.runId ∧ ¬ s.Pending origin event.runId ∧
        ∀ task ∈ s.activeTask, task.phase.Waiting → task.runId = event.runId →
          s.terminalEventSeen = true) :
    Inv origin (s.deliver origin socket event error) := by
  unfold Endpoint.deliver
  split
  · rename_i hsent
    obtain ⟨hsocket, -, hgone⟩ := hsent
    have hfirst := hfirst hgone hsocket
    constructor
    case once =>
      intro runId
      rw [List.countP_append, List.countP_singleton]
      split
      · rename_i hends
        have hends : event.EndsRun runId := by simpa using hends
        obtain ⟨-, hnot, -⟩ := hfirst hends.1
        rw [hends.2] at hnot
        rw [countP_eq_zero_of_not_told hnot]
      · exact h.once runId
    case known =>
      intro runId htold
      rcases told_receive.mp htold with htold | hends
      · exact h.known runId htold
      · exact hends.2 ▸ (hfirst hends.1).1
    case runs => exact h.runs
    case cleaning => exact h.cleaning
    case live => exact h.live
    case active => exact h.active
    case task =>
      intro task htask hlive
      obtain ⟨hrun, hseen⟩ := h.task task htask hlive
      refine ⟨hrun, fun hwaiting htold => ?_⟩
      rcases htold with htold | htelling
      · rcases told_receive.mp htold with htold | hends
        · exact hseen hwaiting (.inl htold)
        · exact (hfirst hends.1).2.2.2 task htask hwaiting hends.2.symm
      · exact hseen hwaiting (.inr htelling)
    case fresh =>
      intro _ runId hpending htold
      rcases told_receive.mp htold with htold | hends
      · exact h.fresh hgone runId hpending htold
      · exact (hfirst hends.1).2.2.1 (hends.2 ▸ hpending)
    case apart => exact h.apart
  · exact h

theorem setRun_deliver (origin socket : ι) (event : RunEvent) (error : Option String)
    (run : EndpointRun ι) (s : Endpoint ι) :
    (s.deliver origin socket event error).setRun runId run =
      (s.setRun runId run).deliver origin socket event error := by
  unfold Endpoint.deliver
  split
  · exact (if_pos ‹_›).symm
  · exact (if_neg ‹_›).symm

theorem setPhase_deliver (origin socket : ι) (event : RunEvent) (error : Option String)
    (phase : WaitingPhase ι) (s : Endpoint ι) :
    (s.deliver origin socket event error).setPhase runId phase =
      (s.setPhase runId phase).deliver origin socket event error := by
  unfold Endpoint.deliver
  split
  · exact (if_pos ‹_›).symm
  · exact (if_neg ‹_›).symm

/-- The waiting task has sent to a socket. -/
theorem Inv.waiterSent (h : Inv origin s) {task : WaitingTask ι} (htask : task ∈ s.activeTask)
    {event : RunEvent} {socket : ι} {sockets : List ι} {phase : WaitingPhase ι}
    (hsockets : task.phase.sockets = socket :: sockets) (hrest : phase.sockets = sockets)
    (hevent : event.EndsRun task.runId) (hnodup : (socket :: sockets).Nodup) (hphase : phase.Live)
    (hnew : ¬ phase.Waiting)
    (hsound : ∀ run ∈ s.runs task.runId, phase.Sound task.runId run) :
    Inv origin ((s.deliver origin socket event none).setPhase task.runId phase) := by
  have hlive : task.phase.Live := by
    cases hold : task.phase with
    | cancelled =>
      rw [hold] at hsockets
      cases hsockets
    | starting | awaiting | emitting | failing => trivial
  have hemitting (hmem : origin ∈ socket :: sockets) : s.Emitting origin task.runId :=
    ⟨task, htask, rfl, by rwa [hsockets]⟩
  have hset : Inv origin (s.setPhase task.runId phase) := by
    refine h.setPhase htask hlive hphase hsound (fun hwaiting => absurd hwaiting hnew)
      fun hgone horigin => h.fresh hgone _ (.inr (.inl (hemitting ?_)))
    exact List.mem_cons_of_mem socket (hrest ▸ horigin)
  rw [setPhase_deliver]
  refine hset.deliver fun hgone hsocket _ => ?_
  rw [hevent.2]
  have hpending := hemitting (hsocket ▸ List.mem_cons_self)
  obtain ⟨⟨run, hrun, -⟩, -⟩ := h.task task htask hlive
  have hrun' : s.runs task.runId ≠ none := Option.ne_none_iff_exists'.mpr ⟨run, hrun⟩
  refine ⟨hrun', h.fresh hgone _ (.inr (.inl hpending)), ?_, fun new hmem hwaiting => ?_⟩
  · rintro (⟨other, hother, htelling⟩ | ⟨new, hmem, -, horigin⟩ | hcleaning)
    · -- The stream of a run that is emitted is closed.
      refine h.not_emitting hother (fun hclosed => ?_) hpending
      rw [hclosed] at htelling
      exact htelling
    · obtain rfl := Option.some.inj hmem
      rw [hrest] at horigin
      exact (List.nodup_cons.mp hnodup).1 (hsocket ▸ horigin)
    · cases (h.live task htask hlive).symm.trans hcleaning
  · obtain rfl := Option.some.inj hmem
    exact absurd hwaiting hnew

/-- **A send of the waiting task.** -/
theorem Inv.waiterSend (h : Inv origin s) {task : WaitingTask ι} (htask : task ∈ s.activeTask)
    {error : Option String} {room : List ι} (hroom : room.Nodup)
    (hfirst : s.gone = false → error ≠ none → task.phase.Emitting → ¬ s.Told task.runId)
    (hstep : s.waiterSend origin error room task = some t) : Inv origin t := by
  have hfound (hlive : task.phase.Live) :
      ∃ run ∈ s.runs task.runId, task.phase.Sound task.runId run := by
    obtain ⟨⟨run, hrun, hfound⟩, -⟩ := h.task task htask hlive
    exact ⟨run, hrun, hfound.phase⟩
  unfold Endpoint.waiterSend at hstep
  split at hstep
  · rename_i hphase
    obtain rfl := Option.some.inj hstep
    exact h.endTask htask (by rw [hphase]; trivial)
  · rename_i hphase
    obtain rfl := Option.some.inj hstep
    exact h.endTask htask (by rw [hphase]; trivial)
  · rename_i event socket sockets hphase
    obtain rfl := Option.some.inj hstep
    obtain ⟨run, hrun, hsound⟩ := hfound (by rw [hphase]; trivial)
    rw [hphase] at hsound
    refine h.waiterSent htask (by rw [hphase]; rfl) rfl hsound.2.1 hsound.2.2 trivial id
      fun other hother => ?_
    obtain rfl := Option.some.inj (hrun.symm.trans hother)
    exact ⟨hsound.1, hsound.2.1, hsound.2.2.of_cons⟩
  · rename_i event socket sockets error hphase
    obtain rfl := Option.some.inj hstep
    obtain ⟨run, hrun, hsound⟩ := hfound (by rw [hphase]; trivial)
    rw [hphase] at hsound
    refine h.setPhase htask (by rw [hphase]; trivial) trivial (fun other hother => ?_) False.elim
      fun hgone _ => hfirst hgone (by simp) (by rw [hphase]; simp [WaitingPhase.Emitting])
    obtain rfl := Option.some.inj (hrun.symm.trans hother)
    exact ⟨hsound.1, ⟨.inr (.inl rfl), rfl⟩, hroom⟩
  · rename_i event socket sockets hphase
    obtain rfl := Option.some.inj hstep
    obtain ⟨run, hrun, hsound⟩ := hfound (by rw [hphase]; trivial)
    rw [hphase] at hsound
    refine h.waiterSent htask (by rw [hphase]; rfl) rfl hsound.2.1 hsound.2.2 trivial id
      fun other hother => ?_
    obtain rfl := Option.some.inj (hrun.symm.trans hother)
    exact ⟨hsound.1, hsound.2.1, hsound.2.2.of_cons⟩
  · rename_i hphase
    obtain rfl := Option.some.inj hstep
    exact h.endTask htask (by rw [hphase]; trivial)
  · cases hstep

/-- **A send of an event handler.** -/
theorem Inv.handlerSend (h : Inv origin s) {run : EndpointRun ι} (hrun : run ∈ s.runs runId)
    {error : Option String} (hstep : s.handlerSend origin runId error run = some t) :
    Inv origin t := by
  have hresult := (h.runs runId run hrun).result
  -- A run that is sending has the result of a cancel, if any.
  have hold (hopen : run.stream ≠ .closed) (result : ExecutionResult) (hmem : result ∈ run.result) :
      result.runId = runId ∧ result.status ∈ [.cancelled, .completed, .failed, .timeout] ∧
        result.status = .cancelled :=
    ⟨(hresult result hmem).1, (hresult result hmem).2.1,
      (hresult result hmem).2.2.resolve_right hopen⟩
  unfold Endpoint.handlerSend at hstep
  split at hstep
  · rename_i hstream
    obtain rfl := Option.some.inj hstep
    refine h.setRun hrun ⟨fun _ _ hnew => (by cases hnew), fun result hmem => ?_⟩
      ⟨id, fun _ => .inl, False.elim⟩
    obtain ⟨hid, hstatus, hcancelled⟩ := hold (by simp [hstream]) result hmem
    exact ⟨hid, hstatus, .inl hcancelled⟩
  · rename_i event socket sockets hstream
    obtain rfl := Option.some.inj hstep
    obtain ⟨hid, hnodup⟩ := (h.runs runId run hrun).event _ _ hstream
    have hopen : run.stream ≠ .closed := by simp [hstream]
    have hset : Inv origin (s.setRun runId { run with stream := .sending event sockets }) := by
      refine h.setRun hrun ⟨fun _ _ hnew => ?_, fun result hmem => ?_⟩
        ⟨id, fun _ => .inl, fun htelling => ?_⟩
      · obtain ⟨rfl, rfl⟩ := RunStream.sending.inj hnew
        exact ⟨hid, hnodup.of_cons⟩
      · obtain ⟨hid, hstatus, hcancelled⟩ := hold hopen result hmem
        exact ⟨hid, hstatus, .inl hcancelled⟩
      · rw [hstream]
        exact ⟨htelling.1, List.mem_cons_of_mem socket htelling.2⟩
    rw [setRun_deliver]
    refine hset.deliver fun hgone hsocket hends => ?_
    rw [hid]
    have htelling : s.Telling origin runId :=
      ⟨run, hrun, by rw [hstream]; exact ⟨hends, hsocket ▸ List.mem_cons_self⟩⟩
    refine ⟨by simp, h.fresh hgone runId (.inl htelling), ?_, fun task htask hwaiting hid => ?_⟩
    · rintro (⟨other, hother, hmem⟩ | hemitting | hcleaning)
      · rw [setRun_runs_self] at hother
        obtain rfl := Option.some.inj hother
        exact (List.nodup_cons.mp hnodup).1 (hsocket ▸ hmem.2)
      · exact h.not_emitting hrun hopen hemitting
      · exact h.apart hgone runId hcleaning htelling
    · have hlive : task.phase.Live := by
        cases hphase : task.phase with
        | starting | awaiting => trivial
        | emitting | failing | cancelled =>
          rw [hphase] at hwaiting
          exact hwaiting.elim
      exact (h.task task htask hlive).seen hwaiting (.inr (hid ▸ htelling))
  · rename_i hstream
    obtain rfl := Option.some.inj hstep
    exact h.setRun hrun ⟨fun _ _ hnew => (by cases hnew), fun result hmem =>
      ⟨(hresult result hmem).1, (hresult result hmem).2.1, .inr rfl⟩⟩ ⟨id, fun _ => .inl, False.elim⟩
  · cases hstep

/-- **The answer** to a cancel, after which no task has anything to say of the run. -/
theorem Inv.answer (h : Inv origin s) (hcleaning : s.reader = .cleaning runId)
    {error : Option String} : Inv origin (s.answer origin runId error) := by
  obtain ⟨run, hrun, -⟩ := h.cleaning runId hcleaning
  have hpending : s.Pending origin runId := .inr (.inr hcleaning)
  have hset : Inv origin { s with
      reader := if error = none then .receiving else .closing
      activeRunId := none
      activeTask := none
      terminalEventSeen := true } := by
    have hreader (other : String) :
        (if error = none then EndpointReader.receiving else .closing) ≠ .cleaning other := by
      split <;> simp
    constructor
    case once => exact h.once
    case known => exact h.known
    case runs => exact h.runs
    case cleaning => exact fun other hnew => absurd hnew (hreader other)
    case live => exact fun _ hnone => by cases hnone
    case active => exact fun _ => ⟨rfl, fun _ hnone => by cases hnone⟩
    case task => exact fun _ hnone => by cases hnone
    case fresh =>
      rintro hgone other (htelling | ⟨_, hnone, -⟩ | hnew)
      · exact h.fresh hgone other (.inl htelling)
      · cases hnone
      · exact absurd hnew (hreader other)
    case apart => exact fun _ other hnew => absurd hnew (hreader other)
  refine hset.deliver fun hgone _ _ => ⟨?_, h.fresh hgone runId hpending, ?_, fun _ hnone => ?_⟩
  · exact Option.ne_none_iff_exists'.mpr ⟨run, hrun⟩
  · rintro (htelling | ⟨_, hnone, -⟩ | hnew)
    · exact h.apart hgone runId hcleaning htelling
    · cases hnone
    · simp only at hnew
      split at hnew <;> cases hnew
  · cases hnone

/-! ## Steps and runs -/

/-- **Every disciplined step** keeps the invariant. -/
theorem Inv.step (h : Inv origin s) {a : EndpointAction ι} (ha : s.Disciplined origin a)
    (hstep : step origin s a = some t) : Inv origin t := by
  cases steps_of_step hstep with
  | receive reader fresh =>
    refine h.receive reader fresh fun hgone runId hactive hcancel => ?_
    obtain ⟨htold, htelling⟩ := ha hgone runId hactive hcancel
    exact ⟨htold, fun ⟨run, hrun, hnow⟩ => htelling run hrun hnow⟩
  | leave => exact h.leave
  | disconnect => exact h.disconnect
  | answer reader => exact h.answer reader
  | close =>
    have hleft : Inv origin { s with reader := .closed, activeTask := none } :=
      h.leaveLoop (by simp) (by simp) fun _ hnone => by cases hnone
    exact hleft.leave
  | waitForRun active found isRoom phase =>
    refine h.waitForRun active (by rw [phase]; trivial) found isRoom.1 fun hgone hdropped => ?_
    refine ha hgone (fun other hother => ?_) fun other hother => ?_
    · obtain rfl := Option.some.inj (active.symm.trans hother)
      rw [phase]
      trivial
    · obtain rfl := Option.some.inj (found.symm.trans hother)
      exact hdropped
  | emit active found isRoom phase ended =>
    exact h.emitTerminalEvent active (by rw [phase]; trivial) found ended isRoom.1
  | waiterSend active isRoom canFail sent =>
    refine h.waiterSend active isRoom.1 (fun hgone herror hemitting => ?_) sent
    refine ha hgone herror fun other hother => ?_
    obtain rfl := Option.some.inj (active.symm.trans hother)
    exact hemitting
  | start found pending stream =>
    refine h.setRun found ⟨fun _ _ hnew => (by cases hnew), fun result hnew => ?_⟩
      ⟨id, fun _ => .inl, False.elim⟩
    cases pending.symm.trans hnew
  | report found stream isRoom =>
    exact h.report found stream rfl isRoom.1 ha
  | handlerSend found canFail sent => exact h.handlerSend found sent
  | finish found finished => exact h.finishRun found finished
  | stop found ended =>
    refine h.setRun found ⟨fun _ _ hnew => (by cases hnew), fun result hmem => ?_⟩
      ⟨id, fun _ => .inl, False.elim⟩
    obtain ⟨hid, hstatus, -⟩ := (h.runs _ _ found).result result hmem
    exact ⟨hid, hstatus, .inr rfl⟩
  | forget found ended =>
    exact h.setRun found ⟨(h.runs _ _ found).event, (h.runs _ _ found).result⟩
      ⟨id, fun _ => .inl, id⟩

variable {l : List (EndpointAction ι)}

theorem inv_of_run {limits : PyLimits} (h : Run (step origin) (Disciplined origin) { limits } l t) :
    Inv origin t :=
  h.invariant (inv_empty limits) fun hinv ha hstep => hinv.step ha hstep

end Sending

end Endpoint

end Portex
