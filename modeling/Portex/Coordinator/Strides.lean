import Portex.Coordinator.Invariant

/-!
# The strides of a worker

One turn of a worker may end the run it awaited, drop and reject any number of entries of its
deque, and launch one. A *stride* is one of these, as the code computes it: the moves of the
bookkeeping keep less, and say nothing of sessions and snapshots.

## Main definitions

* `Rejection`: how a request is refused before it reaches a backend
* `Stride`: what a worker does in one turn, piece by piece

## Main results

* `workerStep_strides`: the turn of a worker is a sequence of strides
* `Stride.moves`, `Inv.stride`: the invariant holds between them
-/

namespace Portex

open Foundation

namespace Coordinator

variable {cfg : Config} {worker : ℕ} {c c' : Coordinator}

/-- The backend name, slot id and error of a result for a request that reaches no backend. -/
inductive Rejection (cfg : Config) (request : ExecutionRequest) : String → String → String → Prop
  | policy {error : String} (selected : cfg.selectBackend request = .error error) :
      Rejection cfg request "unknown" request.slotId error
  /-- This result gets the default slot. -/
  | backend {backendName : String} (selected : cfg.selectBackend request = .ok backendName)
      (unknown : backendName ∉ cfg.backends) :
      Rejection cfg request backendName "main" ("unknown execution backend: " ++ backendName)

/-- The coordinator after a worker popped the head of its deque. -/
def popped (groupFolder : String) (rest : List (String × ExecutionRequest)) (c : Coordinator) :
    Coordinator :=
  { c with groupQueues := c.groupQueues.insert groupFolder rest }

/-- The coordinator after a worker resumed from the end of an execution task. -/
def resumed (worker : ℕ) (runId : String) (c : Coordinator) : Coordinator :=
  (c.setWorkerPhase worker .active).forgetRunning runId

/-- The worker stands at the head of a deque. -/
structure AtHead (c : Coordinator) (worker : ℕ) (groupFolder runId : String)
    (request : ExecutionRequest) (rest : List (String × ExecutionRequest)) : Prop where
  active : c.workers.get? worker = some { groupFolder, phase := .active }
  queue : c.queue groupFolder = (runId, request) :: rest

/-- The worker awaits an execution task that is done. -/
structure Resumes (c : Coordinator) (worker : ℕ) (groupFolder runId : String)
    (request : ExecutionRequest) (task : ℕ) (execution : Execution) (outcome : Outcome) :
    Prop where
  awaits : c.Awaits worker groupFolder runId request task
  awaited : c.executions.get? task = some execution
  done : execution.phase = .done outcome

/-- What a worker does in one turn, piece by piece. -/
inductive Stride (cfg : Config) (worker : ℕ) : Coordinator → Coordinator → Prop
  | wake {c : Coordinator} {groupFolder : String}
      (scheduled : c.workers.get? worker = some { groupFolder, phase := .scheduled }) :
      Stride cfg worker c (c.setWorkerPhase worker .active)
  | skip {c : Coordinator} {groupFolder runId : String} {request : ExecutionRequest}
      {rest : List (String × ExecutionRequest)}
      (head : c.AtHead worker groupFolder runId request rest)
      (unwanted : c.wanted runId = false) :
      Stride cfg worker c (c.popped groupFolder rest)
  | reject {c : Coordinator} {groupFolder runId : String} {request : ExecutionRequest}
      {rest : List (String × ExecutionRequest)} {backend slotId error : String}
      (head : c.AtHead worker groupFolder runId request rest)
      (wanted : c.wanted runId = true) (rejected : Rejection cfg request backend slotId error) :
      Stride cfg worker c
        ((c.popped groupFolder rest).failBeforeStart cfg runId request backend slotId error)
  | launch {c : Coordinator} {groupFolder runId : String} {request : ExecutionRequest}
      {rest : List (String × ExecutionRequest)} {backendName : String}
      (head : c.AtHead worker groupFolder runId request rest)
      (wanted : c.wanted runId = true) (selected : cfg.selectBackend request = .ok backendName)
      (known : backendName ∈ cfg.backends) :
      Stride cfg worker c
        (((c.popped groupFolder rest).launch cfg runId request backendName).setWorkerPhase worker
          (.awaiting runId request c.executions.size))
  | finish {c : Coordinator} {groupFolder : String}
      (active : c.workers.get? worker = some { groupFolder, phase := .active })
      (queue : c.queue groupFolder = []) :
      Stride cfg worker c
        ({ c with groupWorkers := c.groupWorkers.erase groupFolder }.setWorkerPhase worker
          .finished)
  | collectCancelled {c : Coordinator} {groupFolder runId : String} {request : ExecutionRequest}
      {task : ℕ} {execution : Execution} {outcome : Outcome}
      (resumes : c.Resumes worker groupFolder runId request task execution outcome)
      (handled : ∀ message, outcome ≠ .raised message) (cancelled : runId ∈ c.cancelledRunIds) :
      Stride cfg worker c ((c.resumed worker runId).discardCancelled runId)
  | collectResult {c : Coordinator} {groupFolder runId : String} {request : ExecutionRequest}
      {task : ℕ} {execution : Execution} {result : ExecutionResult}
      (resumes : c.Resumes worker groupFolder runId request task execution (.returned result))
      (kept : runId ∉ c.cancelledRunIds) :
      Stride cfg worker c ((c.resumed worker runId).storeTerminalResult cfg result)
  /-- The guard of `_run_group_queue`, which does not ask whether the run was cancelled. -/
  | collectRaised {c : Coordinator} {groupFolder runId : String} {request : ExecutionRequest}
      {task : ℕ} {execution : Execution} {message : String}
      (resumes : c.Resumes worker groupFolder runId request task execution (.raised message)) :
      Stride cfg worker c
        ((c.resumed worker runId).failBeforeStart cfg runId request
          (safeSelectBackendName cfg request) request.slotId message)
  | crash {c : Coordinator} {groupFolder runId : String} {request : ExecutionRequest}
      {task : ℕ} {execution : Execution}
      (resumes : c.Resumes worker groupFolder runId request task execution .cancelledError)
      (kept : runId ∉ c.cancelledRunIds) :
      Stride cfg worker c ((c.forgetRunning runId).setWorkerPhase worker .crashed)

/-- Any number of strides. -/
abbrev Strides (cfg : Config) (worker : ℕ) : Coordinator → Coordinator → Prop :=
  Relation.ReflTransGen (Stride cfg worker)

/-- A run popped from the deque is rejected or launched, whatever the state. -/
theorem executeRequest_rejection (cfg : Config) (runId : String) (request : ExecutionRequest) :
    (∃ backend slotId error, Rejection cfg request backend slotId error ∧
      ∀ c : Coordinator, c.executeRequest cfg runId request =
        .inl (c.failBeforeStart cfg runId request backend slotId error)) ∨
      ∃ backendName, cfg.selectBackend request = .ok backendName ∧ backendName ∈ cfg.backends ∧
        ∀ c : Coordinator, c.executeRequest cfg runId request =
          .inr (c.executions.size, c.launch cfg runId request backendName) := by
  unfold executeRequest
  cases hselect : cfg.selectBackend request with
  | error error => exact .inl ⟨_, _, _, .policy hselect, fun _ => rfl⟩
  | ok backendName =>
    by_cases hknown : backendName ∈ cfg.backends
    · exact .inr ⟨_, rfl, hknown, fun _ => if_pos hknown⟩
    · exact .inl ⟨_, _, _, .backend hselect hknown, fun _ => if_neg hknown⟩

/-- A rejection leaves the workers and the deques alone. -/
theorem frame_failBeforeStart (cfg : Config) (runId : String) (request : ExecutionRequest)
    (backend slotId error : String) (c : Coordinator) :
    (c.failBeforeStart cfg runId request backend slotId error).workers = c.workers ∧
      (c.failBeforeStart cfg runId request backend slotId error).groupQueues = c.groupQueues := by
  obtain ⟨store, result, -, -, k, hk⟩ :=
    failBeforeStart_eq cfg runId request backend slotId error c
  rw [hk]
  exact ⟨rfl, rfl⟩

/-- The worker loop: it drops and rejects entries until it launches one or the deque is empty. -/
theorem drainQueue_strides (cfg : Config) {groupFolder : String}
    (queue : List (String × ExecutionRequest))
    (hw : c.workers.get? worker = some { groupFolder, phase := .active })
    (hq : c.queue groupFolder = queue) :
    Strides cfg worker c (drainQueue cfg worker groupFolder queue c) := by
  induction queue generalizing c with
  | nil => exact .single (.finish hw hq)
  | cons entry rest ih =>
    obtain ⟨runId, request⟩ := entry
    have hhead : c.AtHead worker groupFolder runId request rest := ⟨hw, hq⟩
    have hrest : ∀ d : Coordinator, d.groupQueues = c.groupQueues.insert groupFolder rest →
        d.queue groupFolder = rest := by
      intro d hd
      simp [Coordinator.queue, Dict.getD, hd]
    unfold drainQueue
    simp only
    split
    · rename_i hwanted
      rcases executeRequest_rejection cfg runId request with
        ⟨backend, slotId, error, hrejected, h⟩ | ⟨backendName, hselect, hknown, h⟩
      · -- The next turn of the loop starts where the rejection ended.
        rw [h]
        obtain ⟨hworkers, hqueues⟩ := frame_failBeforeStart cfg runId request backend slotId error
          (c.popped groupFolder rest)
        exact .trans (.single (.reject hhead hwanted hrejected))
          (ih (hworkers ▸ hw) (hrest _ hqueues))
      · rw [h]
        exact .single (.launch hhead hwanted hselect hknown)
    · rename_i hunwanted
      exact .trans (.single (.skip hhead (eq_false_of_ne_true hunwanted))) (ih hw (hrest _ rfl))

/-- What the worker does with the outcome of its execution task, up to the next turn of its
loop. -/
theorem collect_stride (cfg : Config) {groupFolder runId : String} {request : ExecutionRequest}
    {task : ℕ} {execution : Execution} {outcome : Outcome}
    (h : c.Resumes worker groupFolder runId request task execution outcome) :
    (∃ d, (c.setWorkerPhase worker .active).collect cfg runId request outcome = some d ∧
        Stride cfg worker c d ∧ d.workers = (c.resumed worker runId).workers) ∨
      ((c.setWorkerPhase worker .active).collect cfg runId request outcome = none ∧
        Stride cfg worker c ((c.forgetRunning runId).setWorkerPhase worker .crashed)) := by
  unfold collect
  by_cases hcancelled : runId ∈ c.cancelledRunIds
  · cases outcome with
    | cancelledError =>
      exact .inl ⟨_, if_pos hcancelled,
        .collectCancelled h (fun _ hraised => by cases hraised) hcancelled, rfl⟩
    | returned result =>
      exact .inl ⟨_, if_pos hcancelled,
        .collectCancelled h (fun _ hraised => by cases hraised) hcancelled, rfl⟩
    | raised message =>
      exact .inl ⟨_, rfl, .collectRaised h, (frame_failBeforeStart _ _ _ _ _ _ _).1⟩
  · cases outcome with
    | cancelledError => exact .inr ⟨if_neg hcancelled, .crash h hcancelled⟩
    | returned result =>
      refine .inl ⟨_, if_neg hcancelled, .collectResult h hcancelled, ?_⟩
      obtain ⟨k, hk⟩ := storeTerminalResult_eq cfg result (c.resumed worker runId)
      exact (congrArg Coordinator.workers hk).trans rfl
    | raised message =>
      exact .inl ⟨_, rfl, .collectRaised h, (frame_failBeforeStart _ _ _ _ _ _ _).1⟩

/-- **The turn of a worker** is a sequence of strides. -/
theorem workerStep_strides (h : c.workerStep cfg worker = some c') :
    Strides cfg worker c c' := by
  unfold workerStep at h
  split at h
  · rename_i groupFolder hw
    obtain rfl := Option.some.inj h
    exact .trans (.single (.wake hw))
      (drainQueue_strides cfg _ (by simp [setWorkerPhase, hw]) rfl)
  · rename_i groupFolder runId request task hw
    split at h
    · rename_i outcome hphase
      obtain ⟨execution, he, hdone⟩ := Option.map_eq_some_iff.mp hphase
      have hactive : (c.resumed worker runId).workers.get? worker =
          some { groupFolder, phase := .active } := by
        simp [resumed, forgetRunning, setWorkerPhase, hw]
      rcases collect_stride cfg ⟨hw, he, hdone⟩ with
        ⟨d, hd, hstride, hworkers⟩ | ⟨hnone, hstride⟩
      · simp only [hd] at h
        obtain rfl := Option.some.inj h
        exact .trans (.single hstride) (drainQueue_strides cfg _ (hworkers ▸ hactive) rfl)
      · simp only [hnone] at h
        obtain rfl := Option.some.inj h
        exact .single hstride
    · cases h
  · cases h

/-! ## The invariant between strides -/

/-- A stride is a sequence of moves, or the end of the worker. -/
theorem Stride.moves (s : Stride cfg worker c c')
    (hE : ∀ t e, c.executions.get? t = some e → e.Conforming) :
    Moves .none c c' ∨ ∃ groupFolder runId, c.Crashes worker groupFolder runId ∧
      c' = (c.forgetRunning runId).setWorkerPhase worker .crashed := by
  cases s with
  | wake scheduled => exact .inl (.single (.wake scheduled))
  | skip head unwanted => exact .inl (.single (.skip head.active head.queue unwanted))
  | @reject groupFolder runId request rest backend slotId error head wanted rejected =>
    obtain ⟨store, result, rfl, hfailed, k, hk⟩ := failBeforeStart_eq cfg runId request
      backend slotId error (c.popped groupFolder rest)
    rw [hk]
    exact .inl (.head (.noise c (c.draws + 1) store c.runSnapshots c.runSessionIds c.now)
      (.single (.reject (c := { c with draws := c.draws + 1, workspaceSessionStore := store })
        head.active head.queue wanted hfailed k)))
  | @launch groupFolder runId request rest backendName head wanted selected known =>
    obtain ⟨store, snapshots, sessionId, hlaunch⟩ := launch_eq cfg runId request backendName
      (c.popped groupFolder rest)
    rw [hlaunch]
    exact .inl (.tail (.single (.launch head.active head.queue wanted backendName
      (workspaceKey cfg request) sessionId)) (.noise _ (c.draws + 1) store snapshots
        (c.runSessionIds.insert runId sessionId) c.now))
  | finish active queue => exact .inl (.single (.finish active queue))
  | @collectCancelled groupFolder runId _ _ _ _ resumes handled cancelled =>
    exact .inl (.tail (.single (.collectCancelled resumes.awaits resumes.awaited resumes.done
      cancelled)) (.noise _ c.draws c.workspaceSessionStore c.runSnapshots
        (c.runSessionIds.erase runId) c.now))
  | @collectResult groupFolder runId _ _ _ result resumes kept =>
    obtain ⟨k, hk⟩ := storeTerminalResult_eq cfg result (c.resumed worker runId)
    rw [hk]
    exact .inl (.head (.noise c c.draws c.workspaceSessionStore c.runSnapshots
      (c.runSessionIds.erase runId) c.now) (.single (.collectResult
        (c := { c with runSessionIds := c.runSessionIds.erase runId }) resumes.awaits
        resumes.awaited resumes.done kept k)))
  | collectRaised resumes =>
    -- Conforming tasks return or are cancelled.
    rcases hE _ _ resumes.awaited _ resumes.done with hcancelled | ⟨result, hresult, -⟩
    · cases hcancelled
    · cases hresult
  | crash resumes kept =>
    exact .inr ⟨_, _, ⟨_, _, _, resumes.awaits, resumes.awaited, resumes.done, kept⟩, rfl⟩

theorem Inv.stride (h : Inv c) (s : Stride cfg worker c c') : Inv c' := by
  rcases s.moves h.conforming with hmoves | ⟨groupFolder, runId, hcrash, rfl⟩
  · exact h.moves hmoves
  · exact h.crash hcrash

/-- What every stride keeps, a turn keeps. -/
theorem Inv.strides_keep {P : Coordinator → Prop} (h : Inv c) (s : Strides cfg worker c c')
    (hP : P c) (keep : ∀ {d d'}, Inv d → P d → Stride cfg worker d d' → P d') : P c' := by
  have hboth : Inv c' ∧ P c' := by
    induction s with
    | refl => exact ⟨h, hP⟩
    | tail _ s ih => exact ⟨ih.1.stride s, keep ih.1 ih.2 s⟩
  exact hboth.2

end Coordinator

end Portex
