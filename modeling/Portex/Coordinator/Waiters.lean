import Portex.Coordinator.Progress

/-!
# Waiting tasks that are cancelled

A task that waits for a run awaits the run's own future, and the worker of the group reads the
same future to tell whether a queued run is still wanted. Cancelling the task cancels the future:
the worker then drops a queued run that nobody cancelled, and every other task that waits for the
run is cancelled with the first. A run survives the cancellation of a waiting task that comes when
the run has left the queue, and finds no other task waiting for it.

## Main definitions

* `Considerate`: waiting tasks are cancelled only there
* `withoutCancels`: a run in which those tasks go on waiting
* `Alike`: the states of two runs that differ in the cancelled tasks and their futures

## Main results

* `Alike.step`: the coordinator does the same in both runs
* `waiters_harmless`: a considerate run differs from the run without the cancellations only there
* `exists_lost_run`: a queued run that is lost with the task that waited for it
-/

namespace Portex

open Foundation

namespace Coordinator

variable {cfg : Config} {c c' d : Coordinator}

/-! ## The coordinator with other futures and waiting tasks -/

def withWaits (c : Coordinator) (futures : Heap Future) (waiters : Heap Waiter) : Coordinator :=
  { c with futures, waiters }

section WithWaits

variable (F : Heap Future) (W : Heap Waiter)

@[simp] theorem futures_withWaits : (c.withWaits F W).futures = F := rfl

@[simp] theorem waiters_withWaits : (c.withWaits F W).waiters = W := rfl

@[simp] theorem workers_withWaits : (c.withWaits F W).workers = c.workers := rfl

@[simp] theorem resolveSessionId_withWaits (request : ExecutionRequest) (backendName : String)
    (freshSession : Option Bool) :
    (c.withWaits F W).resolveSessionId cfg request backendName freshSession =
      ((c.resolveSessionId cfg request backendName freshSession).1,
        (c.resolveSessionId cfg request backendName freshSession).2.withWaits F W) := by
  unfold resolveSessionId withWaits
  simp only
  split
  · rfl
  · split <;> rfl

@[simp] theorem peekSessionId_withWaits (request : ExecutionRequest) (backendName : String) :
    (c.withWaits F W).peekSessionId cfg request backendName =
      ((c.peekSessionId cfg request backendName).1,
        (c.peekSessionId cfg request backendName).2.withWaits F W) :=
  resolveSessionId_withWaits F W request backendName none

@[simp] theorem modifySnapshot_withWaits (runId : String)
    (f : ExecutionRunSnapshot → ExecutionRunSnapshot) :
    (c.withWaits F W).modifySnapshot runId f = (c.modifySnapshot runId f).withWaits F W := by
  unfold modifySnapshot withWaits
  simp only
  split <;> rfl

theorem dropStale_withWaits (maxCompletedRuns : ℕ) (order : List String) (c : Coordinator) :
    dropStale maxCompletedRuns order (c.withWaits F W) =
      (dropStale maxCompletedRuns order c).withWaits F W := by
  induction order generalizing c with
  | nil => rfl
  | cons stale order ih =>
    unfold dropStale
    split
    · exact ih { c with
        completedResults := c.completedResults.erase stale
        statuses := c.statuses.erase stale
        runSnapshots := c.runSnapshots.erase stale }
    · rfl

/-- The futures after the future of a run was resolved. -/
def resolveIn (c : Coordinator) (result : ExecutionResult) (F : Heap Future) : Heap Future :=
  match c.runFutures.get? result.runId with
  | none => F
  | some future => F.modify future (Future.setResult result)

theorem resolveFuture_withWaits (result : ExecutionResult) :
    (c.withWaits F W).resolveFuture result =
      (c.resolveFuture result).withWaits (c.resolveIn result F) W := by
  unfold resolveFuture resolveIn withWaits
  cases h : c.runFutures.get? result.runId <;> simp only

@[simp] theorem resolveIn_markTerminal (result terminal : ExecutionResult) (c : Coordinator) :
    (c.markTerminal terminal).resolveIn result F = c.resolveIn result F := by
  obtain ⟨snapshots, h⟩ := modifySnapshot_eq terminal.runId _ c
  unfold markTerminal
  rw [h]
  rfl

@[simp] theorem resolveIn_dropStale (result : ExecutionResult) (maxCompletedRuns : ℕ)
    (order : List String) (c : Coordinator) :
    (dropStale maxCompletedRuns order c).resolveIn result F = c.resolveIn result F := by
  obtain ⟨evicted, kept, statuses, results, snapshots, -, -, -, h⟩ :=
    dropStale_eq maxCompletedRuns order c
  rw [h]
  rfl

@[simp] theorem storeTerminalResult_withWaits (result : ExecutionResult) :
    (c.withWaits F W).storeTerminalResult cfg result =
      (c.storeTerminalResult cfg result).withWaits (c.resolveIn result F) W := by
  let recorded := { c with
    statuses := c.statuses.insert result.runId result.status
    completedResults := c.completedResults.insert result.runId result
    completedOrder := c.completedOrder ++ [result.runId] }
  let kept := dropStale cfg.maxCompletedRuns (recorded.markTerminal result).completedOrder
    (recorded.markTerminal result)
  have hmarked : (recorded.withWaits F W).markTerminal result =
      (recorded.markTerminal result).withWaits F W := modifySnapshot_withWaits F W ..
  have hkept : dropStale cfg.maxCompletedRuns (recorded.markTerminal result).completedOrder
      ((recorded.markTerminal result).withWaits F W) = kept.withWaits F W :=
    dropStale_withWaits F W ..
  have hresolved : (kept.withWaits F W).resolveFuture result =
      (kept.resolveFuture result).withWaits (c.resolveIn result F) W := by
    rw [resolveFuture_withWaits, resolveIn_dropStale, resolveIn_markTerminal]
    rfl
  have hchain : (dropStale cfg.maxCompletedRuns
      ((recorded.withWaits F W).markTerminal result).completedOrder
      ((recorded.withWaits F W).markTerminal result)).resolveFuture result =
        (kept.resolveFuture result).withWaits (c.resolveIn result F) W := by
    rw [hmarked]
    exact (congrArg (resolveFuture result) hkept).trans hresolved
  exact congrArg (fun e : Coordinator =>
    { e with
      runRequests := e.runRequests.erase result.runId
      history := { e.history with stored := e.history.stored ++ [result] } }) hchain

@[simp] theorem launch_withWaits (runId : String) (request : ExecutionRequest)
    (backendName : String) :
    (c.withWaits F W).launch cfg runId request backendName =
      (c.launch cfg runId request backendName).withWaits F W := by
  unfold launch markRunning
  simp only [resolveSessionId_withWaits]
  obtain ⟨sessionId, store, hsession⟩ := resolveSessionId_eq cfg request backendName none c
  simp only [hsession, withWaits]
  unfold modifySnapshot
  simp only
  split <;> rfl

@[simp] theorem executionStep_withWaits (task : ℕ) :
    (c.withWaits F W).executionStep task = (c.executionStep task).map (withWaits · F W) := by
  unfold executionStep startExecution withWaits
  simp only
  split
  · rfl
  · split
    · split <;> rfl
    · rfl

@[simp] theorem finishExecution_withWaits (task : ℕ) (execution : Execution)
    (result : ExecutionResult) :
    (c.withWaits F W).finishExecution task execution result =
      (c.finishExecution task execution result).withWaits F W := by
  unfold finishExecution
  split <;> rfl

@[simp] theorem retryExecution_withWaits (task : ℕ) (execution : Execution) (reason : String) :
    (c.withWaits F W).retryExecution cfg task execution reason =
      (c.retryExecution cfg task execution reason).withWaits F W := by
  let marked := c.markRecoveryAttempt execution.runId reason
  let invalidated := { marked with
    workspaceSessionStore := marked.workspaceSessionStore.invalidate execution.workspaceKey }
  have hmarked : (c.withWaits F W).markRecoveryAttempt execution.runId reason =
      marked.withWaits F W := modifySnapshot_withWaits F W ..
  have hresolved : resolveSessionId cfg execution.request execution.backendName (some true)
      { (c.withWaits F W).markRecoveryAttempt execution.runId reason with
        workspaceSessionStore := ((c.withWaits F W).markRecoveryAttempt execution.runId
          reason).workspaceSessionStore.invalidate execution.workspaceKey } =
      ((resolveSessionId cfg execution.request execution.backendName (some true) invalidated).1,
        (resolveSessionId cfg execution.request execution.backendName (some true)
          invalidated).2.withWaits F W) := by
    rw [hmarked]
    exact resolveSessionId_withWaits (c := invalidated) F W ..
  exact congrArg (fun resolved : String × Coordinator =>
    (recordCall execution resolved.1 true { resolved.2 with
      runSessionIds := resolved.2.runSessionIds.insert execution.runId resolved.1
    }).setExecutionPhase task (.retrying resolved.1)) hresolved

@[simp] theorem markRecoveryResult_withWaits (runId : String) (succeeded : Bool) :
    (c.withWaits F W).markRecoveryResult runId succeeded =
      (c.markRecoveryResult runId succeeded).withWaits F W :=
  modifySnapshot_withWaits F W ..

theorem resumeExecuting_withWaits (task : ℕ) (execution : Execution) (ending : Ending) :
    (c.withWaits F W).resumeExecuting cfg task execution ending =
      (c.resumeExecuting cfg task execution ending).withWaits F W := by
  unfold resumeExecuting
  split
  · exact finishExecution_withWaits F W ..
  · split
    · exact retryExecution_withWaits F W ..
    · rfl
  · rfl
  · rfl

theorem resumeRetrying_withWaits (task : ℕ) (execution : Execution) (sessionId : String)
    (ending : Ending) : (c.withWaits F W).resumeRetrying task execution sessionId ending =
      (c.resumeRetrying task execution sessionId ending).withWaits F W := by
  unfold resumeRetrying
  split
  · rw [markRecoveryResult_withWaits]
    exact finishExecution_withWaits F W ..
  · rw [markRecoveryResult_withWaits]
    rfl
  · rfl
  · rfl

@[simp] theorem backendEndsStep_withWaits (task : ℕ) (ending : Ending) :
    (c.withWaits F W).backendEndsStep cfg task ending =
      (c.backendEndsStep cfg task ending).map (withWaits · F W) := by
  unfold backendEndsStep
  have hexecutions : (c.withWaits F W).executions = c.executions := rfl
  rw [hexecutions]
  split
  · rfl
  · rename_i execution he
    split
    · exact congrArg some (resumeExecuting_withWaits F W ..)
    · exact congrArg some (resumeRetrying_withWaits F W ..)
    · rfl

end WithWaits

/-! ## Futures that differ where a waiting task was cancelled -/

/-- The futures `F` are those of `c`, but for cancelled ones of runs that have left the queue. -/
structure Alike (c : Coordinator) (F : Heap Future) : Prop where
  size : F.size = c.futures.size
  alike : ∀ i, F.get? i = c.futures.get? i ∨ ∃ f f', c.futures.get? i = some f ∧
    F.get? i = some f' ∧ f.state = .cancelled ∧ f'.runId = f.runId ∧
      ∀ r, c.runFutures.get? r = some i → r ∈ c.startedIds

/-- The futures `F'` of `c'` are as alike as the futures `F` of `c`. -/
structure Follows (c : Coordinator) (F : Heap Future) (c' : Coordinator) (F' : Heap Future) :
    Prop where
  alike : Alike c F → Alike c' F'
  same : ∀ i, F.size = c.futures.size → F.get? i = c.futures.get? i →
    F'.get? i = c'.futures.get? i

variable {F F' : Heap Future} {W : Heap Waiter}

theorem Follows.of_eq (hfutures : c'.futures = c.futures) (hrun : c'.runFutures = c.runFutures)
    (hstarted : c.startedIds ⊆ c'.startedIds) : Follows c F c' F where
  alike h := by
    refine ⟨hfutures ▸ h.size, fun i => ?_⟩
    rw [hfutures, hrun]
    rcases h.alike i with heq | ⟨f, f', hf, hf', hcancelled, hown, hr⟩
    · exact .inl heq
    · exact .inr ⟨f, f', hf, hf', hcancelled, hown, fun r h => hstarted (hr r h)⟩
  same i _ h := hfutures ▸ h

theorem Follows.trans {e : Coordinator} {F'' : Heap Future} (hF : Alike c F)
    (h : Follows c F d F') (k : Follows d F' e F'') : Follows c F e F'' where
  alike hF := k.alike (h.alike hF)
  same i hsize heq := k.same i (h.alike hF).size (h.same i hsize heq)

/-- A cancelled future stays cancelled when the result of its run is stored. -/
theorem follows_storeTerminalResult (cfg : Config) (result : ExecutionResult) (c : Coordinator) :
    Follows c F (c.storeTerminalResult cfg result) (c.resolveIn result F) := by
  obtain ⟨k, hk⟩ := storeTerminalResult_eq cfg result c
  rw [hk]
  have hfutures : k.apply.futures = c.resolveIn result c.futures := rfl
  have hget (G : Heap Future) (i : ℕ) : (c.resolveIn result G).get? i = (G.get? i).map fun f =>
      if c.runFutures.get? result.runId = some i then f.setResult result else f := by
    unfold resolveIn
    cases h : c.runFutures.get? result.runId with
    | none => simp
    | some j =>
      simp only [Heap.get?_modify, Option.some.injEq]
      by_cases hij : i = j
      · simp [hij]
      · simp [hij, Ne.symm hij]
  have hsize (G : Heap Future) : (c.resolveIn result G).size = G.size := by
    unfold resolveIn
    split <;> simp
  refine ⟨fun h => ⟨?_, fun i => ?_⟩, fun i _ heq => ?_⟩
  · rw [hfutures, hsize, hsize]
    exact h.size
  · rw [hfutures, hget, hget]
    rcases h.alike i with heq | ⟨f, f', hf, hf', hcancelled, hown, hr⟩
    · exact .inl (by rw [heq])
    · refine .inr ⟨f, if c.runFutures.get? result.runId = some i then f'.setResult result else f',
        ?_, by rw [hf']; rfl, hcancelled, ?_, fun r hrun => ?_⟩
      · rw [hf, Option.map_some]
        unfold Future.setResult
        rw [hcancelled, ite_self]
      · split
        · rw [Future.runId_setResult, hown]
        · exact hown
      · rw [Closing.runFutures_apply, Dict.get?_erase] at hrun
        split at hrun
        · cases hrun
        · exact hr r hrun
  · rw [hfutures, hget, hget, heq]

/-- A run that has not left the queue is wanted with either futures. -/
theorem Alike.wanted (h : Alike c F) {r : String} (hr : r ∉ c.startedIds) :
    (c.withWaits F W).wanted r = c.wanted r := by
  unfold Coordinator.wanted withWaits
  simp only
  cases hi : c.runFutures.get? r with
  | none => rfl
  | some i =>
    rcases h.alike i with heq | ⟨f, f', -, -, -, -, hstarted⟩
    · simp only [heq]
    · exact absurd (hstarted r hi) hr

theorem failBeforeStart_follows (cfg : Config) (W : Heap Waiter) (runId : String)
    (request : ExecutionRequest) (backend slotId error : String) (hF : Alike c F) : ∃ F',
    (c.withWaits F W).failBeforeStart cfg runId request backend slotId error =
      (c.failBeforeStart cfg runId request backend slotId error).withWaits F' W ∧
    Follows c F (c.failBeforeStart cfg runId request backend slotId error) F' := by
  obtain ⟨sessionId, store, hpeek⟩ := resolveSessionId_eq cfg request backend none c
  let peeked := { c with draws := c.draws + 1, workspaceSessionStore := store }
  have hpeeked : Follows c F peeked F := .of_eq rfl rfl fun _ h => h
  unfold failBeforeStart
  simp only [peekSessionId_withWaits]
  simp only [peekSessionId, hpeek]
  exact ⟨_, storeTerminalResult_withWaits F W _, hpeeked.trans hF (follows_storeTerminalResult ..)⟩

/-- The worker loop, by induction on the deque: its runs have not left the queue. -/
theorem drainQueue_follows (cfg : Config) (W : Heap Waiter) (worker : ℕ) (groupFolder : String)
    (queue : List (String × ExecutionRequest)) (hqueue : ∀ entry ∈ queue, entry.1 ∉ c.startedIds)
    (hF : Alike c F) : ∃ F',
    drainQueue cfg worker groupFolder queue (c.withWaits F W) =
      (drainQueue cfg worker groupFolder queue c).withWaits F' W ∧
    Follows c F (drainQueue cfg worker groupFolder queue c) F' := by
  induction queue generalizing c F with
  | nil => exact ⟨F, rfl, .of_eq rfl rfl fun _ h => h⟩
  | cons entry rest ih =>
    obtain ⟨runId, request⟩ := entry
    have hrest : ∀ entry ∈ rest, entry.1 ∉ c.startedIds :=
      fun entry hentry => hqueue entry (List.mem_cons_of_mem _ hentry)
    let popped := { c with groupQueues := c.groupQueues.insert groupFolder rest }
    have hpopped : Follows c F popped F := .of_eq rfl rfl fun _ h => h
    have hwanted : (popped.withWaits F W).wanted runId = popped.wanted runId :=
      (hpopped.alike hF).wanted (hqueue _ List.mem_cons_self)
    rw [drainQueue_cons worker groupFolder runId request rest c popped rfl,
      drainQueue_cons worker groupFolder runId request rest (c.withWaits F W)
        (popped.withWaits F W) rfl, hwanted]
    split
    · rcases executeRequest_cases cfg runId request with
        ⟨backend, slotId, error, h⟩ | ⟨backendName, h⟩
      · obtain ⟨F₁, heq, hfailed⟩ := failBeforeStart_follows cfg W runId request
          backend slotId error (hpopped.alike hF)
        have hsame := sameTasks_failBeforeStart cfg runId request backend slotId error
          popped
        have hstarted : (popped.failBeforeStart cfg runId request backend slotId error).startedIds =
            c.startedIds := congrArg (List.map Prod.fst) hsame.started
        obtain ⟨F₂, heq', hdrained⟩ := ih (fun entry he => hstarted ▸ hrest entry he)
          (hfailed.alike (hpopped.alike hF))
        simp only [h, heq]
        exact ⟨F₂, heq', .trans hF (.trans hF hpopped hfailed) hdrained⟩
      · simp only [h, launch_withWaits]
        refine ⟨F, rfl, ?_⟩
        obtain ⟨store, snapshots, sessionId, hlaunch⟩ := launch_eq cfg runId request backendName
          popped
        rw [hlaunch]
        exact .of_eq rfl rfl fun r hr => by simp [startedIds, setWorkerPhase] at hr ⊢; exact .inl hr
    · obtain ⟨F', heq, hfollows⟩ := ih (c := popped) hrest (hpopped.alike hF)
      exact ⟨F', heq, .trans hF hpopped hfollows⟩

/-- What a worker collects leaves the deques and the started runs alone. -/
theorem collect_follows (cfg : Config) (W : Heap Waiter) (runId : String)
    (request : ExecutionRequest) (outcome : Outcome) (hF : Alike c F) :
    ((c.withWaits F W).collect cfg runId request outcome = none ∧
        c.collect cfg runId request outcome = none) ∨
      ∃ d F', (c.withWaits F W).collect cfg runId request outcome = some (d.withWaits F' W) ∧
        c.collect cfg runId request outcome = some d ∧ Follows c F d F' ∧
        d.groupQueues = c.groupQueues ∧ d.startedIds = c.startedIds := by
  let forgotten := c.forgetRunning runId
  have hforgotten : Follows c F forgotten F := .of_eq rfl rfl fun _ h => h
  have hdiscarded : Follows c F (forgotten.discardCancelled runId) F :=
    .of_eq rfl rfl fun _ h => h
  cases outcome with
  | cancelledError =>
    by_cases hc : runId ∈ c.cancelledRunIds
    · exact .inr ⟨forgotten.discardCancelled runId, F, if_pos hc, if_pos hc, hdiscarded, rfl, rfl⟩
    · exact .inl ⟨if_neg hc, if_neg hc⟩
  | returned result =>
    refine .inr ?_
    by_cases hc : runId ∈ c.cancelledRunIds
    · exact ⟨forgotten.discardCancelled runId, F, if_pos hc, if_pos hc, hdiscarded, rfl, rfl⟩
    · obtain ⟨k, hk⟩ := storeTerminalResult_eq cfg result forgotten
      refine ⟨forgotten.storeTerminalResult cfg result, _,
        (if_neg hc).trans (congrArg some (storeTerminalResult_withWaits (c := forgotten) F W result)),
        if_neg hc,
        .trans hF hforgotten (follows_storeTerminalResult ..), ?_, ?_⟩
      · rw [hk]
        rfl
      · rw [hk]
        rfl
  | raised message =>
    obtain ⟨F', heq, hfollows⟩ := failBeforeStart_follows cfg W runId request
      (safeSelectBackendName cfg request) request.slotId message (hforgotten.alike hF)
    obtain ⟨store, result, -, -, k, hk⟩ := failBeforeStart_eq cfg runId request
      (safeSelectBackendName cfg request) request.slotId message forgotten
    refine .inr ⟨_, F', congrArg some heq, rfl, .trans hF hforgotten hfollows, ?_, ?_⟩
    · rw [hk]
      rfl
    · rw [hk]
      rfl

/-- A worker whose task has ended collects its outcome and goes on with the loop. -/
theorem workerStep_collected {worker task : ℕ} {g runId : String} {request : ExecutionRequest}
    {outcome : Outcome}
    (hw : c.workers.get? worker = some { groupFolder := g, phase := .awaiting runId request task })
    (hdone : (c.executions.get? task).map Execution.phase = some (.done outcome))
    (hd : (c.setWorkerPhase worker .active).collect cfg runId request outcome = some d) :
    c.workerStep cfg worker = some (drainQueue cfg worker g (d.queue g) d) := by
  simp [workerStep, hw, hdone, hd]

theorem workerStep_crashed {worker task : ℕ} {g runId : String} {request : ExecutionRequest}
    {outcome : Outcome}
    (hw : c.workers.get? worker = some { groupFolder := g, phase := .awaiting runId request task })
    (hdone : (c.executions.get? task).map Execution.phase = some (.done outcome))
    (hnone : (c.setWorkerPhase worker .active).collect cfg runId request outcome = none) :
    c.workerStep cfg worker = some ((c.forgetRunning runId).setWorkerPhase worker .crashed) := by
  simp [workerStep, hw, hdone, hnone]

theorem workerStep_follows (h : Inv c) {worker : ℕ} (hF : Alike c F)
    (hstep : c.workerStep cfg worker = some c') : ∃ F',
    (c.withWaits F W).workerStep cfg worker = some (c'.withWaits F' W) ∧ Follows c F c' F' := by
  have hqueue (g : String) : ∀ entry ∈ c.queue g, entry.1 ∉ c.startedIds :=
    fun entry he => h.entry_unstarted he
  let active := c.setWorkerPhase worker .active
  have hactive : Follows c F active F := .of_eq rfl rfl fun _ h => h
  obtain ⟨⟨g, phase⟩, hw, hlive, hrest, -⟩ := workerStep_cases hstep
  cases phase with
  | scheduled =>
    have hc' : drainQueue cfg worker g (c.queue g) active = c' := by
      simp only [workerStep, hw] at hstep
      exact Option.some.inj hstep
    obtain ⟨F', heq, hfollows⟩ := drainQueue_follows (c := active) cfg W worker g
      (c.queue g) (hqueue g) (hactive.alike hF)
    rw [hc'] at heq hfollows
    refine ⟨F', ?_, .trans hF hactive hfollows⟩
    rw [← heq]
    simp only [workerStep, workers_withWaits, hw]
    rfl
  | awaiting runId request task =>
    cases hdone : (c.executions.get? task).map Execution.phase with
    | none => simp [workerStep, hw, hdone] at hstep
    | some phase =>
      cases phase with
      | done outcome =>
        rcases collect_follows (c := active) cfg W runId request outcome (hactive.alike hF) with
          ⟨hnone', hnone⟩ | ⟨d, F₁, hd', hd, hcollected, hqueues, hstarted⟩
        · obtain rfl := Option.some.inj ((workerStep_crashed hw hdone hnone).symm.trans hstep)
          exact ⟨F, workerStep_crashed (c := c.withWaits F W) hw hdone hnone',
            .of_eq rfl rfl fun _ h => h⟩
        · obtain rfl := Option.some.inj ((workerStep_collected hw hdone hd).symm.trans hstep)
          -- what the worker collects leaves the deque of its group alone
          have hrest : ∀ entry ∈ d.queue g, entry.1 ∉ d.startedIds := by
            rw [hstarted, show d.queue g = c.queue g by simp only [queue, hqueues]; rfl]
            exact hqueue g
          obtain ⟨F₂, heq, hdrained⟩ := drainQueue_follows cfg W worker g
            (d.queue g) hrest (hcollected.alike (hactive.alike hF))
          refine ⟨F₂, ?_, .trans hF (.trans hF hactive hcollected) hdrained⟩
          rw [workerStep_collected (c := c.withWaits F W) hw hdone hd', ← heq]
          rfl
      | created | executing | retrying _ => simp [workerStep, hw, hdone] at hstep
  | active => exact absurd rfl hrest
  | finished => cases hlive
  | crashed => cases hlive

@[simp] theorem ensureWorker_withWaits (groupFolder : String) :
    (c.withWaits F W).ensureWorker groupFolder =
      (c.ensureWorker groupFolder).withWaits F W := by
  unfold ensureWorker withWaits
  simp only
  split
  · rfl
  · split <;> rfl

theorem submitExecution_follows (request : ExecutionRequest) (uuid : String) (hF : Alike c F) :
    ∃ F', ((c.withWaits F W).submitExecution request uuid).2 =
        (c.submitExecution request uuid).2.withWaits F' W ∧
      Follows c F (c.submitExecution request uuid).2 F' := by
  let future : Future := { runId := runIdOf request uuid }
  let submission := { c.submitted (runIdOf request uuid) request with
    runSnapshots := c.runSnapshots.insert (runIdOf request uuid)
      { runId := runIdOf request uuid
        groupFolder := request.groupFolder
        chatJid := request.chatJid
        userId := request.userId
        source := request.source
        slotId := request.slotId
        requestedMode := request.requestedMode
        status := .queued
        createdAt := c.now } }
  have hsubmission : Follows c F submission (F.alloc future) := by
    have hsame (i : ℕ) (h : F.get? i = c.futures.get? i) :
        (F.alloc future).get? i = (c.futures.alloc future).get? i := by
      rw [Heap.get?_alloc, Heap.get?_alloc, hF.size, h]
    refine ⟨fun h => ⟨?_, fun i => ?_⟩, fun i _ h => hsame i h⟩
    · exact (Heap.size_alloc ..).trans ((congrArg (· + 1) h.size).trans (Heap.size_alloc ..).symm)
    · rcases h.alike i with heq | ⟨f, f', hf, hf', hcancelled, hown, hr⟩
      · exact .inl (hsame i heq)
      · have hne : i ≠ c.futures.size := Nat.ne_of_lt (Heap.lt_size_of_get? hf)
        refine .inr ⟨f, f', ?_, ?_, hcancelled, hown, fun r hrun => ?_⟩
        · exact (Heap.get?_alloc ..).trans ((if_neg hne).trans hf)
        · rw [Heap.get?_alloc, hF.size, if_neg hne, hf']
        · simp only [submission, submitted, Dict.get?_insert] at hrun
          split at hrun
          · exact absurd (Option.some.inj hrun).symm hne
          · exact hr r hrun
  have hensure : Follows submission (F.alloc future)
      (submission.ensureWorker request.groupFolder) (F.alloc future) := by
    rcases ensureWorker_cases request.groupFolder submission with ⟨heq, -⟩ | ⟨heq, -⟩ <;> rw [heq]
    · exact .of_eq rfl rfl fun _ h => h
    · exact .of_eq rfl rfl fun _ h => h
  refine ⟨F.alloc future, ?_, .trans hF hsubmission hensure⟩
  have heq : ((c.withWaits F W).submitExecution request uuid).2 =
      (submission.withWaits (F.alloc future) W).ensureWorker request.groupFolder := by
    unfold submitExecution withWaits
    simp only [hF.size]
    rfl
  rw [heq, ensureWorker_withWaits]
  rfl

theorem cancelQueued_follows (runId : String) (request : ExecutionRequest) (hF : Alike c F) :
    ∃ F', (c.withWaits F W).cancelQueued cfg runId request =
        (c.cancelQueued cfg runId request).withWaits F' W ∧
      Follows c F (c.cancelQueued cfg runId request) F' := by
  obtain ⟨sessionId, store, hpeek⟩ := resolveSessionId_eq cfg request
    (safeSelectBackendName cfg request) none c
  let peeked := { c with draws := c.draws + 1, workspaceSessionStore := store }
  have hpeeked : Follows c F peeked F := .of_eq rfl rfl fun _ h => h
  let result : ExecutionResult :=
    { runId
      groupFolder := request.groupFolder
      backend := safeSelectBackendName cfg request
      sessionId
      slotId := request.slotId
      status := .cancelled }
  have hstored := follows_storeTerminalResult (F := F) cfg result peeked
  unfold cancelQueued
  simp only [peekSessionId_withWaits]
  simp only [peekSessionId, hpeek]
  refine ⟨peeked.resolveIn result F, ?_, .trans hF (.trans hF hpeeked hstored)
    (.of_eq rfl rfl fun _ h => h)⟩
  exact congrArg (recordCancel runId .queued)
    (storeTerminalResult_withWaits (c := peeked) F W result)

theorem cancelRunning_follows (runId : String) (request : ExecutionRequest) (hF : Alike c F) :
    ∃ F', ((c.withWaits F W).cancelRunning cfg runId request).2 =
        (c.cancelRunning cfg runId request).2.withWaits F' W ∧
      Follows c F (c.cancelRunning cfg runId request).2 F' := by
  obtain ⟨sessionId, store, hpeek⟩ := resolveSessionId_eq cfg request
    (safeSelectBackendName cfg request) none c
  let peeked := { c with draws := c.draws + 1, workspaceSessionStore := store }
  have hpeeked : Follows c F peeked F := .of_eq rfl rfl fun _ h => h
  let marked := { peeked with
    cancelledRunIds := c.cancelledRunIds.insert runId
    statuses := c.statuses.insert runId .cancelled
    executions := c.cancelExecution runId }
  have hmarked : Follows c F marked F := .of_eq rfl rfl fun _ h => h
  let result : ExecutionResult :=
    { runId
      groupFolder := request.groupFolder
      backend := safeSelectBackendName cfg request
      sessionId := c.runSessionIds.getD runId sessionId
      slotId := request.slotId
      status := .cancelled }
  have hstored := follows_storeTerminalResult (F := F) cfg result marked
  unfold cancelRunning
  simp only [peekSessionId_withWaits]
  simp only [peekSessionId, hpeek]
  have hbackends : (peeked.withWaits F W).runningBackends = c.runningBackends := rfl
  rw [hbackends]
  cases c.runningBackends.get? runId with
  | none => exact ⟨F, rfl, hpeeked⟩
  | some backend =>
    refine ⟨marked.resolveIn result F, ?_, .trans hF (.trans hF hmarked hstored)
      (.of_eq rfl rfl fun _ h => h)⟩
    exact congrArg (recordCancel runId .running)
      (storeTerminalResult_withWaits (c := marked) F W result)

theorem cancel_follows (cfg : Config) (W : Heap Waiter) (runId : String) (hF : Alike c F) :
    ∃ F', ((c.withWaits F W).cancel cfg runId).2 = (c.cancel cfg runId).2.withWaits F' W ∧
      Follows c F (c.cancel cfg runId).2 F' := by
  have hsame : Follows c F c F := .of_eq rfl rfl fun _ h => h
  unfold cancel
  have hstatuses : (c.withWaits F W).statuses = c.statuses := rfl
  have hrequests : (c.withWaits F W).runRequests = c.runRequests := rfl
  rw [hstatuses, hrequests]
  cases c.statuses.get? runId with
  | none => exact ⟨F, rfl, hsame⟩
  | some status =>
    cases status with
    | queued =>
      cases c.runRequests.get? runId with
      | none => exact ⟨F, rfl, hsame⟩
      | some request => exact cancelQueued_follows runId request hF
    | running =>
      cases c.runRequests.get? runId with
      | none => exact ⟨F, rfl, hsame⟩
      | some request => exact cancelRunning_follows runId request hF
    | completed | failed | cancelled | timeout => exact ⟨F, rfl, hsame⟩

theorem Turned.follows {task : ℕ} {execution : Execution} (h : Turned task execution c d) :
    Follows c F d F :=
  .of_eq h.futures h.runFutures fun r hr => by rwa [startedIds, h.started]

/-- **The coordinator does not look at the futures of runs that have left the queue.** -/
theorem step_follows {a : Action} (h : Inv c) (hof : a.ofWaiter = false) (hF : Alike c F)
    (hstep : step cfg c a = some c') :
    ∃ F', step cfg (c.withWaits F W) a = some (c'.withWaits F' W) ∧ Follows c F c' F' := by
  cases a with
  | submit request uuid =>
    obtain rfl := Option.some.inj hstep
    obtain ⟨F', heq, hfollows⟩ := submitExecution_follows (W := W) request uuid hF
    exact ⟨F', congrArg some heq, hfollows⟩
  | cancel runId =>
    obtain rfl := Option.some.inj hstep
    obtain ⟨F', heq, hfollows⟩ := cancel_follows cfg W runId hF
    exact ⟨F', congrArg some heq, hfollows⟩
  | worker worker => exact workerStep_follows h hF hstep
  | execution task =>
    obtain ⟨execution, -, hturned⟩ := executionStep_turned hstep
    exact ⟨F, (executionStep_withWaits F W task).trans (congrArg (Option.map _) hstep),
      hturned.follows⟩
  | backendEnds task ending =>
    obtain ⟨execution, -, hturned⟩ := backendEndsStep_turned hstep
    exact ⟨F, (backendEndsStep_withWaits F W task ending).trans (congrArg (Option.map _) hstep),
      hturned.follows⟩
  | tick =>
    obtain rfl := Option.some.inj hstep
    exact ⟨F, rfl, .of_eq rfl rfl fun _ h => h⟩
  | wait _ | waiter _ | cancelWaiter _ => cases hof

/-! ## Waiting tasks while none is cancelled -/

/-- A task waits on the future of its run, or has the stored result of the run. -/
def Informed (c : Coordinator) : Prop :=
  ∀ waiter w, c.waiters.get? waiter = some w → w.cancelRequested = false ∧
    ((∃ i, w.state = .waiting ∧ w.future = some i ∧ c.submittedIds[i]? = some w.runId) ∨
      ∃ result ∈ c.history.stored, result.runId = w.runId ∧ w.state = .returned result)

theorem informed_empty : Informed {} := by simp [Informed]

theorem Move.waiters {guards : Guards} (m : Move guards c c') : c'.waiters = c.waiters := by
  cases m <;> rfl

theorem Move.submitted_prefix {guards : Guards} (m : Move guards c c') :
    c.history.submitted <+: c'.history.submitted := by
  cases m with
  | submit => exact List.prefix_append _ _
  | spawn => exact List.prefix_append _ _
  | _ => exact List.prefix_rfl

theorem waiters_of_step {a : Action} (h : Inv c) (ha : c.Ordinary a) (hof : a.ofWaiter = false)
    (hstep : step cfg c a = some c') :
    c'.waiters = c.waiters ∧ c.history.submitted <+: c'.history.submitted := by
  rcases step_moves .none h.conforming ha hof nofun nofun hstep with
    hmoves | ⟨worker, g, r, -, hcrash, rfl⟩
  · exact hmoves.keep (P := fun d => d.waiters = c.waiters ∧
      c.history.submitted <+: d.history.submitted) h ⟨rfl, List.prefix_rfl⟩
      fun _ k m => ⟨m.waiters.trans k.1, k.2.trans m.submitted_prefix⟩
  · exact ⟨rfl, List.prefix_rfl⟩

theorem Informed.mono (k : c.Informed) (hwaiters : c'.waiters = c.waiters)
    (hsubmitted : c.history.submitted <+: c'.history.submitted)
    (hstored : c.history.stored <+: c'.history.stored) : c'.Informed := by
  intro waiter w hw
  obtain ⟨hkept, ⟨i, hwaiting, hi, hid⟩ | ⟨result, hresult, hown, hreturned⟩⟩ :=
    k waiter w (hwaiters ▸ hw)
  · refine ⟨hkept, .inl ⟨i, hwaiting, hi, ?_⟩⟩
    obtain ⟨more, hmore⟩ := hsubmitted.map Prod.fst
    rw [submittedIds, ← hmore]
    exact List.getElem?_append_left (List.getElem?_eq_some_iff.mp hid).1 ▸ hid
  · exact ⟨hkept, .inr ⟨result, hstored.subset hresult, hown, hreturned⟩⟩

theorem Informed.wait (k : c.Informed) (h : Inv c) (runId : String) :
    (c.waitForRun runId).Informed := by
  unfold waitForRun
  split
  · rename_i result hresult
    obtain ⟨hmem, hown⟩ := h.results runId result hresult
    intro waiter w hw
    rcases Heap.get?_alloc_cases hw with ⟨-, rfl⟩ | hw
    · exact ⟨rfl, .inr ⟨result, hmem, hown, rfl⟩⟩
    · exact k waiter w hw
  · split
    · exact k
    · rename_i i hi
      intro waiter w hw
      rcases Heap.get?_alloc_cases hw with ⟨-, rfl⟩ | hw
      · exact ⟨rfl, .inl ⟨i, rfl, rfl, ((h.future_iff runId i).mp hi).1⟩⟩
      · exact k waiter w hw

/-- A waiting task resumes with the stored result of its run. -/
theorem Informed.resume (k : c.Informed) (h : Inv c) (hsettled : c.Settled) {waiter i : ℕ}
    {w : Waiter} {f : Future} (hw : c.waiters.get? waiter = some w) (hwaiting : w.state = .waiting)
    (hi : w.future = some i) (hf : c.futures.get? i = some f) (hstored : f.state ≠ .pending) :
    ∃ result ∈ c.history.stored, result.runId = w.runId ∧ f.state = .resolved result ∧
      c.resumeWaiter waiter w f =
        some { c with waiters := c.waiters.modify waiter fun w =>
          { w with state := .returned result } } := by
  obtain ⟨hkept, ⟨j, -, hj, hid⟩ | ⟨result, -, -, hreturned⟩⟩ := k waiter w hw
  · obtain rfl := Option.some.inj (hi.symm.trans hj)
    have hown : f.runId = w.runId := Option.some.inj ((h.runId_future hf).symm.trans hid)
    rcases hsettled i f hf with ⟨hpending, -⟩ | ⟨result, hresult, hrun, hstate⟩
    · exact absurd hpending hstored
    · refine ⟨result, hresult, hrun.trans hown, hstate, ?_⟩
      unfold resumeWaiter
      simp [hstate, hkept]
  · rw [hwaiting] at hreturned
    cases hreturned

theorem awaitedFuture_eq_some {waiter i : ℕ} : c.awaitedFuture waiter = some i ↔
    ∃ w, c.waiters.get? waiter = some w ∧ w.state = .waiting ∧ w.future = some i := by
  unfold awaitedFuture
  cases c.waiters.get? waiter with
  | none => simp
  | some w => by_cases hw : w.state = .waiting <;> simp [hw]

theorem Informed.step {a : Action} (k : c.Informed) (s : Sound c) (ha : c.Orderly a)
    (hstep : step cfg c a = some c') : c'.Informed := by
  cases hof : a.ofWaiter with
  | false =>
    obtain ⟨hwaiters, hsubmitted⟩ := waiters_of_step s.inv ha.ordinary hof hstep
    exact k.mono hwaiters hsubmitted (stored_initial_of_step s.inv ha.ordinary hstep)
  | true =>
    cases a with
    | wait runId =>
      obtain rfl := Option.some.inj hstep
      exact k.wait s.inv runId
    | waiter waiter =>
      simp only [Coordinator.step, waiterStep, Option.bind_eq_bind, Option.bind_eq_some_iff]
        at hstep
      obtain ⟨i, hi, w, hw, f, hf, hresume⟩ := hstep
      obtain ⟨w', hw', hwaiting, hfuture⟩ := awaitedFuture_eq_some.mp hi
      obtain rfl := Option.some.inj (hw.symm.trans hw')
      have hdone : f.state ≠ .pending := by
        intro hpending
        simp [resumeWaiter, hpending] at hresume
      obtain ⟨result, hresult, hown, -, heq⟩ :=
        k.resume s.inv s.settled hw hwaiting hfuture hf hdone
      obtain rfl := Option.some.inj (heq.symm.trans hresume)
      intro other v hv
      rcases Heap.get?_modify_cases hv with ⟨_, hbefore, rfl, rfl⟩ | ⟨-, hv⟩
      · obtain rfl := Option.some.inj (hw.symm.trans hbefore)
        exact ⟨(k waiter w hw).1, .inr ⟨result, hresult, hown, rfl⟩⟩
      · exact k other v hv
    | cancelWaiter waiter => exact ha.elim
    | _ => cases hof

/-! ## The run without the cancellations -/

/-- A waiting task is cancelled only once its run has left the queue, while no other task waits
on the same future, and no task waits on a future that was cancelled. Otherwise all is in
order. -/
def Considerate (c : Coordinator) : Action → Prop
  | .cancelWaiter waiter => ∀ i ∈ c.awaitedFuture waiter, ∀ f ∈ c.futures.get? i,
    f.state = .pending → c.statuses.get? f.runId ≠ some .queued ∧
      ∀ other < c.waiters.size, other ≠ waiter → c.awaitedFuture other ≠ some i
  | .wait runId => ∀ i ∈ c.runFutures.get? runId, ∀ f ∈ c.futures.get? i, f.state ≠ .cancelled
  | a => c.Orderly a

instance (c : Coordinator) : DecidablePred c.Considerate
  | .cancelWaiter waiter =>
    inferInstanceAs (Decidable (∀ i ∈ c.awaitedFuture waiter, ∀ f ∈ c.futures.get? i,
      f.state = .pending → c.statuses.get? f.runId ≠ some .queued ∧
        ∀ other < c.waiters.size, other ≠ waiter → c.awaitedFuture other ≠ some i))
  | .wait runId =>
    inferInstanceAs (Decidable (∀ i ∈ c.runFutures.get? runId, ∀ f ∈ c.futures.get? i,
      f.state ≠ .cancelled))
  | .submit request uuid => inferInstanceAs (Decidable (c.Orderly (.submit request uuid)))
  | .backendEnds task ending => inferInstanceAs (Decidable (c.Orderly (.backendEnds task ending)))
  | .cancel _ | .worker _ | .execution _ | .waiter _ | .tick => inferInstanceAs (Decidable True)

theorem Considerate.ordinary {a : Action} (ha : c.Considerate a) : c.Ordinary a := by
  cases a with
  | cancelWaiter => trivial
  | wait => trivial
  | submit => exact Orderly.ordinary ha
  | backendEnds => exact Orderly.ordinary ha
  | _ => trivial

/-- The action goes on in a run whose cancelled tasks go on waiting. -/
def goesOn (l : List Action) : Action → Bool
  | .cancelWaiter _ => false
  | .waiter waiter => !l.contains (.cancelWaiter waiter)
  | _ => true

/-- The run in which the cancelled tasks go on waiting. -/
def withoutCancels (l : List Action) : List Action := l.filter (goesOn l)

/-- The states of two runs that differ in the tasks that `l` cancels, and in their futures. -/
structure Parallel (l : List Action) (c d : Coordinator) : Prop where
  inv : Inv c
  sound : Sound d
  informed : d.Informed
  rest : d = c.withWaits d.futures d.waiters
  futures : Alike c d.futures
  size : d.waiters.size = c.waiters.size
  waiters : ∀ waiter, Action.cancelWaiter waiter ∉ l →
    d.waiters.get? waiter = c.waiters.get? waiter
  awaited : ∀ waiter i, Action.cancelWaiter waiter ∉ l → c.awaitedFuture waiter = some i →
    d.futures.get? i = c.futures.get? i

variable {l : List Action}

theorem parallel_empty : Parallel l {} {} where
  inv := inv_empty
  sound := sound_empty
  informed := informed_empty
  rest := rfl
  futures := ⟨rfl, fun _ => .inl rfl⟩
  size := rfl
  waiters _ _ := rfl
  awaited _ _ _ _ := rfl

theorem Considerate.orderly {a : Action} (k : Parallel l c d) (ha : c.Considerate a)
    (hgoes : goesOn l a = true) : d.Orderly a := by
  have hhistory : d.history = c.history := by rw [k.rest]; rfl
  have hexecutions : d.executions = c.executions := by rw [k.rest]; rfl
  cases a with
  | submit request uuid =>
    have hfresh : runIdOf request uuid ∉ c.history.submitted.map Prod.fst := ha
    rw [← hhistory] at hfresh
    exact hfresh
  | backendEnds task ending =>
    refine ⟨ha.1, fun hending => ?_⟩
    rw [CancelRequested, hexecutions]
    exact ha.2 hending
  | cancelWaiter waiter => cases hgoes
  | _ => trivial

/-- The same futures are awaited in both runs, but by the tasks that are cancelled. -/
theorem Parallel.awaitedFuture_eq (k : Parallel l c d) {waiter : ℕ}
    (hw : Action.cancelWaiter waiter ∉ l) :
    d.awaitedFuture waiter = c.awaitedFuture waiter := by
  rw [awaitedFuture, awaitedFuture, k.waiters waiter hw]

/-- A step of the coordinator itself. -/
theorem Parallel.task {a : Action} (k : Parallel l c d) (ha : c.Considerate a)
    (hof : a.ofWaiter = false) (hgoes : goesOn l a = true) (hstep : step cfg c a = some c') :
    ∃ d', d.Orderly a ∧ step cfg d a = some d' ∧ Parallel l c' d' := by
  have hd := ha.orderly k hgoes
  obtain ⟨F', heq, hfollows⟩ := step_follows (W := d.waiters) k.inv hof k.futures hstep
  rw [← k.rest] at heq
  obtain ⟨hwaiters, -⟩ := waiters_of_step k.inv ha.ordinary hof hstep
  refine ⟨_, hd, heq, ?_⟩
  exact {
    inv := k.inv.step ha.ordinary hstep
    sound := k.sound.step hd heq
    informed := k.informed.step k.sound hd heq
    rest := rfl
    futures := hfollows.alike k.futures
    size := k.size.trans (congrArg Heap.size hwaiters.symm)
    waiters := fun waiter hw => by
      rw [hwaiters]
      exact k.waiters waiter hw
    awaited := fun waiter i hw hi => by
      rw [awaitedFuture, hwaiters] at hi
      exact hfollows.same i k.futures.size (k.awaited waiter i hw hi) }

/-- Only waiting tasks change. -/
theorem Parallel.setWaiters (k : Parallel l c d) {W W' : Heap Waiter}
    (hinformed : Informed { d with waiters := W' }) (hsize : W'.size = W.size)
    (hwaiters : ∀ waiter, Action.cancelWaiter waiter ∉ l → W'.get? waiter = W.get? waiter)
    (hawaited : ∀ waiter i, Action.cancelWaiter waiter ∉ l →
      awaitedFuture waiter { c with waiters := W } = some i →
        d.futures.get? i = c.futures.get? i) :
    Parallel l { c with waiters := W } { d with waiters := W' } where
  inv := { k.inv with }
  sound := ⟨{ k.sound.inv with }, { k.sound.kept with }, { k.sound.served with },
    k.sound.settled, k.sound.asked, { k.sound.inOrder with }⟩
  informed := hinformed
  rest := by
    rw [k.rest]
    rfl
  futures := ⟨k.futures.size, k.futures.alike⟩
  size := hsize
  waiters := hwaiters
  awaited := hawaited

/-- A task starts to wait. -/
theorem Parallel.wait {runId : String} (k : Parallel l c d) (ha : c.Considerate (.wait runId)) :
    Parallel l (c.waitForRun runId) (d.waitForRun runId) := by
  have hinformed := k.informed.wait k.sound.inv runId
  have hresults : d.completedResults = c.completedResults := by rw [k.rest]; rfl
  have hfutures : d.runFutures = c.runFutures := by rw [k.rest]; rfl
  have hwaiters (w : Waiter) (waiter : ℕ) (hw : Action.cancelWaiter waiter ∉ l) :
      (d.waiters.alloc w).get? waiter = (c.waiters.alloc w).get? waiter := by
    rw [Heap.get?_alloc, Heap.get?_alloc, k.size, k.waiters waiter hw]
  have hsize (w : Waiter) : (d.waiters.alloc w).size = (c.waiters.alloc w).size := by
    rw [Heap.size_alloc, Heap.size_alloc, k.size]
  have hawaited (w : Waiter) (hnew : ∀ i, w.state = .waiting → w.future = some i →
      d.futures.get? i = c.futures.get? i) (waiter i : ℕ) (hw : Action.cancelWaiter waiter ∉ l)
      (hi : awaitedFuture waiter { c with waiters := c.waiters.alloc w } = some i) :
      d.futures.get? i = c.futures.get? i := by
    obtain ⟨v, hv, hwaiting, hfuture⟩ := awaitedFuture_eq_some.mp hi
    rcases Heap.get?_alloc_cases hv with ⟨-, rfl⟩ | hv
    · exact hnew i hwaiting hfuture
    · exact k.awaited waiter i hw (awaitedFuture_eq_some.mpr ⟨v, hv, hwaiting, hfuture⟩)
  unfold waitForRun at hinformed ⊢
  cases hresult : c.completedResults.get? runId with
  | some result =>
    have hresult' : d.completedResults.get? runId = some result := hresults ▸ hresult
    simp only [hresult'] at hinformed ⊢
    exact k.setWaiters hinformed (hsize _) (hwaiters _) (hawaited _ nofun)
  | none =>
    have hresult' : d.completedResults.get? runId = none := hresults ▸ hresult
    simp only [hresult'] at hinformed ⊢
    cases hfuture : c.runFutures.get? runId with
    | none =>
      have hfuture' : d.runFutures.get? runId = none := hfutures ▸ hfuture
      simpa only [hfuture'] using k
    | some i =>
      have hfuture' : d.runFutures.get? runId = some i := hfutures ▸ hfuture
      simp only [hfuture'] at hinformed ⊢
      refine k.setWaiters hinformed (hsize _) (hwaiters _) (hawaited _ fun j _ hj => ?_)
      obtain rfl := Option.some.inj hj
      rcases k.futures.alike i with heq | ⟨f, f', hf, -, hcancelled, -⟩
      · exact heq
      · exact absurd hcancelled (ha i hfuture f hf)

/-- A waiting task resumes, the same way wherever its future is the same. -/
theorem waiterStep_cases {waiter : ℕ} (hstep : c.waiterStep waiter = some c') :
    ∃ i w f state, c.awaitedFuture waiter = some i ∧ c.waiters.get? waiter = some w ∧
      c.futures.get? i = some f ∧ state ≠ .waiting ∧
      c' = { c with waiters := c.waiters.modify waiter fun w => { w with state } } ∧
      ∀ d : Coordinator, d.resumeWaiter waiter w f =
        some { d with waiters := d.waiters.modify waiter fun w => { w with state } } := by
  simp only [waiterStep, Option.bind_eq_bind, Option.bind_eq_some_iff] at hstep
  obtain ⟨i, hi, w, hw, f, hf, hresume⟩ := hstep
  have hcases : ∃ state : WaiterState, state ≠ .waiting ∧ ∀ d : Coordinator,
      d.resumeWaiter waiter w f =
        some { d with waiters := d.waiters.modify waiter fun w => { w with state } } := by
    unfold resumeWaiter at hresume ⊢
    split at hresume
    · cases hresume
    · exact ⟨_, by split <;> nofun, fun _ => rfl⟩
    · exact ⟨.cancelledError, nofun, fun _ => rfl⟩
  obtain ⟨state, hstate, hd⟩ := hcases
  exact ⟨i, w, f, state, hi, hw, hf, hstate, Option.some.inj (hresume.symm.trans (hd c)), hd⟩

/-- A task that has resumed awaits no future. -/
theorem awaitedFuture_resumed {waiter other i : ℕ} {state : WaiterState}
    (hstate : state ≠ .waiting) (hi : awaitedFuture other { c with
      waiters := c.waiters.modify waiter fun w => { w with state } } = some i) :
    c.awaitedFuture other = some i := by
  obtain ⟨w, hw, hwaiting, hfuture⟩ := awaitedFuture_eq_some.mp hi
  rcases Heap.get?_modify_cases hw with ⟨v, -, -, rfl⟩ | ⟨-, hw⟩
  · exact absurd hwaiting hstate
  · exact awaitedFuture_eq_some.mpr ⟨w, hw, hwaiting, hfuture⟩

/-- A task that is not cancelled resumes. -/
theorem Parallel.resume {waiter : ℕ} (k : Parallel l c d)
    (hgoes : Action.cancelWaiter waiter ∉ l) (hstep : step cfg c (.waiter waiter) = some c') :
    ∃ d', step cfg d (.waiter waiter) = some d' ∧ Parallel l c' d' := by
  obtain ⟨i, w, f, state, hi, hw, hf, hstate, rfl, hresume⟩ := waiterStep_cases hstep
  have hi' : d.awaitedFuture waiter = some i := (k.awaitedFuture_eq hgoes).trans hi
  have hw' : d.waiters.get? waiter = some w := (k.waiters waiter hgoes).trans hw
  have hf' : d.futures.get? i = some f := (k.awaited waiter i hgoes hi).trans hf
  have hd : step cfg d (.waiter waiter) =
      some { d with waiters := d.waiters.modify waiter fun w => { w with state } } := by
    simp [step, waiterStep, hi', hw', hf', hresume]
  refine ⟨_, hd, k.setWaiters (k.informed.step (a := .waiter waiter) k.sound trivial hd)
    ?_ ?_ ?_⟩
  · rw [Heap.size_modify, Heap.size_modify, k.size]
  · intro other hother
    rw [Heap.get?_modify, Heap.get?_modify, k.waiters other hother]
  · exact fun other j hother hj => k.awaited other j hother (awaitedFuture_resumed hstate hj)

/-- A task that is cancelled resumes. -/
theorem Parallel.drop {waiter : ℕ} (k : Parallel l c d)
    (hgoes : Action.cancelWaiter waiter ∈ l) (hstep : step cfg c (.waiter waiter) = some c') :
    Parallel l c' d := by
  obtain ⟨i, w, f, state, hi, hw, hf, hstate, rfl, -⟩ := waiterStep_cases hstep
  suffices h : Parallel l _ { d with waiters := d.waiters } from h
  refine k.setWaiters k.informed ?_ ?_ ?_
  · rw [Heap.size_modify, k.size]
  · intro other hother
    have hne : other ≠ waiter := fun heq => hother (heq ▸ hgoes)
    rw [Heap.get?_modify, if_neg hne, k.waiters other hother]
  · exact fun other j hother hj => k.awaited other j hother (awaitedFuture_resumed hstate hj)

theorem get?_futures_cancelWaiter (waiter i j : ℕ) : (c.cancelWaiter waiter i).futures.get? j =
    if j = i then (c.futures.get? j).map Future.cancel else c.futures.get? j :=
  Heap.get?_modify ..

/-- A future that is done stays as it is when the task that awaits it is cancelled. -/
theorem get?_futures_cancelWaiter_of_done {i : ℕ}
    (h : ∀ f, c.futures.get? i = some f → f.state ≠ .pending) (waiter j : ℕ) :
    (c.cancelWaiter waiter i).futures.get? j = c.futures.get? j := by
  rw [get?_futures_cancelWaiter]
  split
  · rename_i hj
    subst hj
    cases hf : c.futures.get? j with
    | none => rfl
    | some f => exact congrArg some (Future.cancel_of_done (h f hf))
  · rfl

/-- The future of a run that has left the queue is cancelled. -/
theorem Alike.cancelWaiter (h : Alike c F) (hinv : Inv c) {i : ℕ} {f : Future}
    (hf : c.futures.get? i = some f) (hpending : f.state = .pending)
    (hqueued : c.statuses.get? f.runId ≠ some .queued) (waiter : ℕ) :
    Alike (c.cancelWaiter waiter i) F := by
  refine ⟨h.size.trans (Heap.size_modify ..).symm, fun j => ?_⟩
  by_cases hj : j = i
  · subst hj
    have hstarted (r : String) (hr : c.runFutures.get? r = some j) : r ∈ c.startedIds := by
      obtain ⟨hid, hopen⟩ := (hinv.future_iff r j).mp hr
      obtain rfl : f.runId = r := Option.some.inj ((hinv.runId_future hf).symm.trans hid)
      by_contra hunstarted
      exact hqueued ((hinv.queued_iff _).mpr ⟨⟨List.mem_of_getElem? hid, hopen⟩, hunstarted⟩)
    have hcancel : (c.cancelWaiter waiter j).futures.get? j = some f.cancel := by
      rw [get?_futures_cancelWaiter, if_pos rfl, hf]
      rfl
    rcases h.alike j with heq | ⟨f₁, -, hf₁, -, hcancelled, -⟩
    · exact .inr ⟨f.cancel, f, hcancel, heq.trans hf, Future.state_cancel hpending,
        (Future.runId_cancel f).symm, hstarted⟩
    · obtain rfl := Option.some.inj (hf.symm.trans hf₁)
      rw [hpending] at hcancelled
      cases hcancelled
  · rw [get?_futures_cancelWaiter, if_neg hj]
    exact h.alike j

/-- A task is cancelled. -/
theorem Parallel.cancelWaiter {waiter i : ℕ} (k : Parallel l c d)
    (ha : c.Considerate (.cancelWaiter waiter)) (hmem : Action.cancelWaiter waiter ∈ l)
    (hi : c.awaitedFuture waiter = some i) : Parallel l (c.cancelWaiter waiter i) d := by
  have hne {other : ℕ} (hother : Action.cancelWaiter other ∉ l) : other ≠ waiter :=
    fun heq => hother (heq ▸ hmem)
  have hkept {other j : ℕ} (hother : Action.cancelWaiter other ∉ l)
      (hj : (c.cancelWaiter waiter i).awaitedFuture other = some j) :
      c.awaitedFuture other = some j := by
    obtain ⟨w, hw, hwaiting⟩ := awaitedFuture_eq_some.mp hj
    exact awaitedFuture_eq_some.mpr
      ⟨w, ((Heap.get?_modify ..).trans (if_neg (hne hother))).symm.trans hw, hwaiting⟩
  have hfutures : Alike (c.cancelWaiter waiter i) d.futures ∧
      ∀ other j, Action.cancelWaiter other ∉ l → c.awaitedFuture other = some j →
        d.futures.get? j = (c.cancelWaiter waiter i).futures.get? j := by
    by_cases hp : ∃ f, c.futures.get? i = some f ∧ f.state = .pending
    · obtain ⟨f, hf, hpending⟩ := hp
      obtain ⟨hqueued, halone⟩ := ha i hi f hf hpending
      refine ⟨k.futures.cancelWaiter k.inv hf hpending hqueued waiter, fun other j hother hj => ?_⟩
      obtain ⟨w, hw, -⟩ := awaitedFuture_eq_some.mp hj
      have hji : j ≠ i := by
        rintro rfl
        exact halone other (Heap.lt_size_of_get? hw) (hne hother) hj
      rw [get?_futures_cancelWaiter, if_neg hji]
      exact k.awaited other j hother hj
    · have hdone : ∀ f, c.futures.get? i = some f → f.state ≠ .pending :=
        fun f hf hpending => hp ⟨f, hf, hpending⟩
      refine ⟨⟨k.futures.size.trans (Heap.size_modify ..).symm, fun j => ?_⟩,
        fun other j hother hj => ?_⟩
      · rw [get?_futures_cancelWaiter_of_done hdone]
        exact k.futures.alike j
      · rw [get?_futures_cancelWaiter_of_done hdone]
        exact k.awaited other j hother hj
  exact {
    inv := k.inv.cancelWaiter waiter i
    sound := k.sound
    informed := k.informed
    rest := k.rest
    futures := hfutures.1
    size := k.size.trans (Heap.size_modify ..).symm
    waiters := fun other hother => (k.waiters other hother).trans
      ((Heap.get?_modify ..).trans (if_neg (hne hother))).symm
    awaited := fun other j hother hj => hfutures.2 other j hother (hkept hother hj) }

/-- **The coordinator does the same in both runs.** -/
theorem Parallel.step_keep {a : Action} (k : Parallel l c d) (ha : c.Considerate a ∧ a ∈ l)
    (hgoes : goesOn l a = true) (hstep : step cfg c a = some c') :
    ∃ d', d.Orderly a ∧ step cfg d a = some d' ∧ Parallel l c' d' := by
  cases hof : a.ofWaiter with
  | false => exact k.task ha.1 hof hgoes hstep
  | true =>
    cases a with
    | wait runId =>
      obtain rfl := Option.some.inj hstep
      exact ⟨_, trivial, rfl, k.wait ha.1⟩
    | waiter waiter =>
      obtain ⟨d', hd', hparallel⟩ := k.resume (by simpa [goesOn] using hgoes) hstep
      exact ⟨d', trivial, hd', hparallel⟩
    | cancelWaiter waiter => cases hgoes
    | _ => cases hof

theorem Parallel.step_blind {a : Action} (k : Parallel l c d) (ha : c.Considerate a ∧ a ∈ l)
    (hgoes : goesOn l a = false) (hstep : step cfg c a = some c') : Parallel l c' d := by
  cases a with
  | waiter waiter => exact k.drop (by simpa [goesOn] using hgoes) hstep
  | cancelWaiter waiter =>
    simp only [step, Option.map_eq_some_iff] at hstep
    obtain ⟨i, hi, rfl⟩ := hstep
    exact k.cancelWaiter ha.1 ha.2 hi
  | _ => cases hgoes

theorem parallel_of_run (h : Run (step cfg) Considerate {} l c) :
    ∃ d, Run (step cfg) Orderly {} (withoutCancels l) d ∧ Parallel l c d :=
  h.mem.project parallel_empty (fun k ha hgoes hstep => k.step_keep ha hgoes hstep)
    (fun k ha hgoes hstep => k.step_blind ha hgoes hstep)

/-! ## What the other tasks get -/

/-- The task has the stored result of its run, or waits and is to get it once it is stored. -/
def Answered (cfg : Config) (c : Coordinator) (waiter : ℕ) (w : Waiter) : Prop :=
  (∃ result ∈ c.history.stored, result.runId = w.runId ∧ w.state = .returned result) ∨
    w.state = .waiting ∧ ∀ result ∈ c.history.stored, result.runId = w.runId →
      ∃ d w', step cfg c (.waiter waiter) = some d ∧ d.waiters.get? waiter = some w' ∧
        w'.state = .returned result

/-- The future that a task waits on, once the result of its run is stored. -/
theorem Sound.future_of_stored (k : Sound d) {i : ℕ} {r : String}
    (hid : d.submittedIds[i]? = some r) {result : ExecutionResult}
    (hresult : result ∈ d.history.stored) (hown : result.runId = r) :
    d.futures.get? i = some { runId := r, state := .resolved result } := by
  obtain ⟨j, hj⟩ := k.future_resolved hresult
  obtain rfl : j = i := k.inv.future_unique (hown ▸ k.inv.runId_future hj) hid
  rw [hj, hown]

theorem Parallel.answered (k : Parallel l c d) {waiter : ℕ} {w : Waiter}
    (hw : c.waiters.get? waiter = some w) (hother : Action.cancelWaiter waiter ∉ l) :
    Answered cfg c waiter w := by
  have hhistory : d.history = c.history := by rw [k.rest]; rfl
  obtain ⟨hkept, ⟨i, hwaiting, hi, hid⟩ | ⟨result, hresult, hown, hreturned⟩⟩ :=
    k.informed waiter w ((k.waiters waiter hother).trans hw)
  · refine .inr ⟨hwaiting, fun result hresult hown => ?_⟩
    have hawaited : c.awaitedFuture waiter = some i :=
      awaitedFuture_eq_some.mpr ⟨w, hw, hwaiting, hi⟩
    have hf := k.sound.future_of_stored hid (hhistory ▸ hresult) hown
    rw [k.awaited waiter i hother hawaited] at hf
    refine ⟨{ c with waiters := c.waiters.modify waiter fun w =>
      { w with state := .returned result } }, { w with state := .returned result }, ?_, ?_, rfl⟩
    · simp [step, waiterStep, hawaited, hw, hf, resumeWaiter, hkept]
    · simp [hw]
  · exact .inl ⟨result, hhistory ▸ hresult, hown, hreturned⟩

/-- Runs that have left the bookkeeping have left it in both runs. -/
theorem Parallel.finished (k : Parallel l c d) {r : String} (h : d.Finished r) :
    c.Finished r := by
  rw [k.rest] at h
  exact ⟨h.stored, h.request, h.future, h.task, h.backend, h.status, h.queue⟩

theorem Parallel.idle_finished (k : Parallel l c d) (hrest : c.Resting) (hidle : c.Idle cfg)
    {r : String} (hr : r ∈ c.submittedIds) : c.Finished r := by
  have hworkers : d.workers = c.workers := by rw [k.rest]; rfl
  have hexecutions : d.executions = c.executions := by rw [k.rest]; rfl
  have hhistory : d.history = c.history := by rw [k.rest]; rfl
  have hrest' : d.Resting := fun worker w hw => hrest worker w (hworkers ▸ hw)
  have hr' : r ∈ d.submittedIds := by rwa [submittedIds, hhistory]
  exact k.finished (finished_of_idle k.sound hrest' (hidle.congr hworkers hexecutions) hr')

theorem resting_of_run {allowed : Coordinator → Action → Prop}
    (h : Run (step cfg) allowed {} l c) : c.Resting :=
  h.invariant resting_empty fun hc _ hstep => hc.step hstep

/-- **Considerate cancellations of waiting tasks are harmless.** -/
theorem waiters_harmless (h : Run (step cfg) Considerate {} l c) :
    -- without the cancellations, the coordinator does the same
    (∃ d, Run (step cfg) Orderly {} (withoutCancels l) d ∧
      d = c.withWaits d.futures d.waiters) ∧
    -- the tasks come to rest, and then every run has its result and has left the bookkeeping
    (∀ m d, Run (step cfg) (fun c a => c.Considerate a ∧ a.ofTask = true) c m d →
      m.length ≤ c.work ∧ (d.Idle cfg → ∀ r ∈ c.submittedIds, d.Finished r)) ∧
    (∃ m d, Run (step cfg) (fun c a => c.Considerate a ∧ a.ofTask = true) c m d ∧
      d.Idle cfg) ∧
    -- a waiting task that is not cancelled gets the stored result of its run
    ∀ waiter w, c.waiters.get? waiter = some w → Action.cancelWaiter waiter ∉ l →
      Answered cfg c waiter w := by
  obtain ⟨d, hd, k⟩ := parallel_of_run h
  refine ⟨⟨d, hd, k.rest⟩, fun m e hm => ⟨?_, fun hidle r hr => ?_⟩, ?_,
    fun waiter w hw hother => k.answered hw hother⟩
  · exact length_le_work k.inv (hm.mono fun _ _ ha => ⟨Considerate.ordinary ha.1, ha.2⟩)
  · have hrun := h.append (hm.mono fun _ _ ha => ha.1)
    obtain ⟨e', -, ke⟩ := parallel_of_run hrun
    have hsubmitted : Inv e ∧ c.history.submitted <+: e.history.submitted :=
      hm.invariant (I := fun e => Inv e ∧ c.history.submitted <+: e.history.submitted)
        ⟨k.inv, List.prefix_rfl⟩ fun {t u a} hc ha hstep => by
          have hof : a.ofWaiter = false := by
            cases a <;> first | rfl | cases ha.2
          exact ⟨hc.1.step ha.1.ordinary hstep,
            hc.2.trans (waiters_of_step hc.1 ha.1.ordinary hof hstep).2⟩
    exact ke.idle_finished (resting_of_run hrun) hidle
      ((hsubmitted.2.map Prod.fst).subset hr)
  · obtain ⟨m, e, hm, hidle⟩ := exists_idle cfg k.inv
    refine ⟨m, e, hm.mono fun s a ha => ⟨?_, ha.2⟩, hidle⟩
    cases a with
    | worker | execution => trivial
    | backendEnds => exact ha.1
    | _ => cases ha.2

/-- A running run loses the only task that waits for it, and another run keeps its own. -/
def tornDown : List Action :=
  [.submit (.sample "first") "", .submit (.sample "second") "", .wait "first", .wait "second",
    .worker 0, .execution 0, .cancelWaiter 0, .backendEnds 0 (.dict {}), .waiter 0, .worker 0]

theorem waiters_harmless_tornDown :
    ∃ c, Run (step .sample) Considerate {} tornDown c ∧ c.storedIds = ["first"] ∧
      ∃ m d, Run (step .sample) (fun c a => c.Considerate a ∧ a.ofTask = true) c m d ∧
        m.length ≤ 6 ∧ d.Finished "first" ∧ d.Finished "second" := by
  have h : Run (step .sample) Considerate {} tornDown _ := .of_execute (by decide)
  obtain ⟨-, hrest, ⟨m, d, hm, hidle⟩, -⟩ := waiters_harmless h
  obtain ⟨hlength, hfinished⟩ := hrest m d hm
  exact ⟨_, h, by decide, m, d, hm, Nat.le_trans hlength (by decide),
    hfinished hidle "first" (by decide), hfinished hidle "second" (by decide)⟩

/-- A queued run loses the task that waits for it. -/
def lostRun : List Action :=
  [.submit (.sample "first") "", .submit (.sample "second") "", .wait "second", .worker 0,
    .execution 0, .cancelWaiter 0, .backendEnds 0 (.dict {}), .worker 0]

/-- A queued run that is lost with the task that waited for it: no task can go on, and the run,
which would start without the cancellation, is queued for good. -/
theorem exists_lost_run :
    ∃ c d, Run (step .sample) Ordinary {} lostRun c ∧ c.Idle .sample ∧
      "second" ∈ c.submittedIds ∧ "second" ∉ c.storedIds ∧ "second" ∉ c.startedIds ∧
      c.statuses.get? "second" = some .queued ∧
      Run (step .sample) Orderly {} (withoutCancels lostRun) d ∧ "second" ∈ d.startedIds := by
  have h : Run (step .sample) Ordinary {} lostRun _ := .of_execute (by decide)
  have h' : Run (step .sample) Orderly {} (withoutCancels lostRun) _ := .of_execute (by decide)
  exact ⟨_, _, h, idle_of_done (by decide) (by decide), by decide, by decide, by decide, by decide,
    h', by decide⟩

end Coordinator

end Portex
