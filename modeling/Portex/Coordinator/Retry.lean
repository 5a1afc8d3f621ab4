import Portex.Coordinator.Threads

/-!
# The retry after a failed session resume

A non-fresh run of the runtime backend whose first call raised `SessionResumeFailedError` is called
once more, with a new session id. The retry runs in the task that `cancel` tries to stop: where the
backend answers the cancellation with that error, the run is called again after its cancelled
result was stored.

## Main definitions

* `Called`: the call that a step adds
* `Retries`: the second call of a run
* `Disciplined`: what is to hold of every state, and of every step

## Main results

* `step_called`: what every step calls
* `disciplined_of_run`: the retries of every run whose steps settle their runs
-/

namespace Portex

open Foundation

namespace Coordinator

variable {cfg : Config} {worker task : ℕ} {c c' : Coordinator} {e : Execution} {r s : String}

/-! ## The calls of a step -/

/-- The call that a step adds, if it adds one. -/
inductive Called (c c' : Coordinator) : Action → Prop
  | none {a : Action} (calls : c'.history.calls = c.history.calls) : Called c c' a
  | first {task : ℕ} {e : Execution} (found : c.executions.get? task = some e)
      (created : e.phase = .created) (kept : e.cancelRequested = false)
      (calls : c'.history.calls = c.history.calls ++ [firstCall e]) : Called c c' (.execution task)
  | again {task : ℕ} {e : Execution} {message sessionId : String}
      (found : c.executions.get? task = some e) (executing : e.phase = .executing)
      (retry : shouldRetrySessionResume e true = true)
      (calls : c'.history.calls = c.history.calls ++ [retryCall e sessionId]) :
      Called c c' (.backendEnds task (.runtimeError true message))

@[simp] theorem calls_failBeforeStart (runId : String) (request : ExecutionRequest)
    (backend slotId error : String) :
    (c.failBeforeStart cfg runId request backend slotId error).history.calls =
      c.history.calls := by
  obtain ⟨store, result, -, -, k, hk⟩ := failBeforeStart_eq cfg runId request backend slotId error c
  rw [hk]
  rfl

theorem Stride.calls (s : Stride cfg worker c c') : c'.history.calls = c.history.calls := by
  cases s with
  | wake | skip | finish | collectCancelled | crash => rfl
  | reject => exact calls_failBeforeStart ..
  | collectRaised => exact calls_failBeforeStart ..
  | collectResult => exact calls_storeTerminalResult ..
  | @launch groupFolder runId request rest backendName =>
    obtain ⟨store, snapshots, sessionId, hlaunch⟩ := launch_eq cfg runId request backendName
      (c.popped groupFolder rest)
    rw [hlaunch]
    rfl

theorem Strides.calls (s : Strides cfg worker c c') : c'.history.calls = c.history.calls := by
  induction s with
  | refl => rfl
  | tail _ s ih => exact s.calls.trans ih

theorem calls_cancel (cfg : Config) (runId : String) (c : Coordinator) :
    (c.cancel cfg runId).2.history.calls = c.history.calls := by
  have hpeek (request : ExecutionRequest) (backend : String) :
      (c.peekSessionId cfg request backend).2.history.calls = c.history.calls := by
    obtain ⟨sessionId, store, hpeek⟩ := resolveSessionId_eq cfg request backend none c
    unfold peekSessionId
    rw [hpeek]
  unfold cancel
  split
  · split
    · rfl
    · simp [cancelQueued, recordCancel, hpeek]
  · split
    · rfl
    · unfold cancelRunning
      simp only
      split
      · exact hpeek _ _
      · simp [recordCancel, hpeek]
  · rfl

theorem calls_finishExecution (task : ℕ) (e : Execution) (result : ExecutionResult)
    (c : Coordinator) : (c.finishExecution task e result).history.calls = c.history.calls := by
  unfold finishExecution
  split <;> rfl

theorem backendEndsStep_called {ending : Ending}
    (hstep : c.backendEndsStep cfg task ending = some c') :
    Called c c' (.backendEnds task ending) := by
  obtain ⟨e, he, hends⟩ := callEnds_of_step hstep
  have hnoted (succeeded : Bool) : (c.noted e succeeded).history.calls = c.history.calls := by
    obtain ⟨snapshots, hsnapshots⟩ := noted_eq e succeeded c
    rw [hsnapshots]
  cases hends with
  | finish => exact .none ((calls_finishExecution ..).trans (hnoted true))
  | @retry failed message executing run retried =>
    obtain ⟨sessionId, store, snapshots, heq⟩ := retryExecution_eq cfg task e message c
    rw [heq]
    -- Only a `SessionResumeFailedError` is retried.
    obtain rfl : failed = true := by
      simp only [shouldRetrySessionResume, Bool.and_eq_true] at retried
      exact retried.2
    obtain rfl := runBackendWithTimeout_runtimeError run
    exact .again he executing retried rfl
  | fail => exact .none (hnoted false)
  | cancelled | raised => exact .none rfl

/-- **Every step calls at most once**: a task that starts, or one whose first call failed to
resume its session. -/
theorem step_called {a : Action} (hstep : step cfg c a = some c') : Called c c' a := by
  cases a with
  | submit request uuid =>
    obtain rfl := Option.some.inj hstep
    rcases ensureWorker_cases request.groupFolder _ with ⟨heq, -⟩ | ⟨heq, -⟩
    · rw [submitExecution, heq]
      exact .none rfl
    · rw [submitExecution, heq]
      exact .none rfl
  | cancel runId =>
    obtain rfl := Option.some.inj hstep
    exact .none (calls_cancel cfg runId c)
  | worker worker => exact .none (workerStep_strides hstep).calls
  | execution task =>
    obtain ⟨e, he, hstarts⟩ := starts_of_step hstep
    cases hstarts with
    | drop => exact .none rfl
    | call created kept => exact .first he created kept rfl
  | backendEnds task ending => exact backendEndsStep_called hstep
  | tick =>
    obtain rfl := Option.some.inj hstep
    exact .none rfl
  | wait _ | waiter _ | cancelWaiter _ =>
    rcases step_waiter rfl hstep with ⟨waiters, rfl, -⟩ | ⟨waiter, future, -, -, rfl⟩
    · exact .none rfl
    · exact .none rfl

/-! ## The discipline -/

/-- The step ends the first call of the run with a `SessionResumeFailedError`, the run is one of
the runtime backend that did not ask for a fresh session, and it has no stored result. -/
def Retries (c : Coordinator) (a : Action) (r : String) : Prop :=
  ∃ task e message, a = .backendEnds task (.runtimeError true message) ∧
    c.executions.get? task = some e ∧ e.runId = r ∧ e.phase = .executing ∧
    c.callsOf r = [firstCall e] ∧ e.request.freshSession = false ∧
    e.backendName = "openai_runtime" ∧ r ∉ c.storedIds

/-- Each run is called at most twice, and its stored result carries the session id of its last
call. -/
structure WithinTwo (c : Coordinator) : Prop where
  length_le : ∀ r, (c.callsOf r).length ≤ 2
  matching : ∀ result ∈ c.history.stored, LastSession (c.callsOf result.runId) result.sessionId

/-- A run that has been called is called again only by a retry. -/
def RetriesOnly (c : Coordinator) (a : Action) (c' : Coordinator) : Prop :=
  ∀ r, c.callsOf r ≠ [] → c'.callsOf r ≠ c.callsOf r → Retries c a r

theorem Threads.withinTwo (h : Threads c) : WithinTwo c where
  length_le r := by
    by_cases hmem : r ∈ c.taskIds
    · obtain ⟨e, he, rfl⟩ := List.mem_map.mp hmem
      obtain ⟨task, he⟩ := List.getElem?_of_mem he
      exact (h.traced task e he).length_le
    · rw [h.callsOf_eq_nil hmem]
      exact Nat.zero_le 2
  matching := h.matching

theorem Threads.retriesOnly (h : Threads c) {a : Action} (hsettles : Settles cfg c a)
    (hstep : Coordinator.step cfg c a = some c') : RetriesOnly c a c' := by
  intro r hcalled hchanged
  have hown {e : Execution} {call : BackendCall} (hrun : call.runId = e.runId)
      (hcalls : c'.history.calls = c.history.calls ++ [call]) : e.runId = r := by
    rw [callsOf_append hcalls] at hchanged
    split at hchanged
    · rw [← hrun]
      assumption
    · exact absurd rfl hchanged
  cases step_called hstep with
  | none calls => exact absurd (congrArg (List.filter _) calls) hchanged
  | @first task e found created kept calls =>
    obtain rfl := hown rfl calls
    have htraced := h.traced task e found
    rw [created] at htraced
    generalize c.callsOf e.runId = called at hcalled htraced
    cases htraced
    exact absurd rfl hcalled
  | @again task e message sessionId found executing retry calls =>
    obtain rfl := hown rfl calls
    have htraced := h.traced task e found
    rw [executing] at htraced
    have hkept := hsettles e found executing retry
    simp only [shouldRetrySessionResume, Bool.and_eq_true, Bool.not_eq_true',
      usesWorkspaceSession, beq_iff_eq] at retry
    refine ⟨task, e, message, rfl, found, rfl, executing, ?_, retry.1.1, retry.1.2,
      h.unflagged task e found (Execution.InFlight.undone (.inl executing)) hkept⟩
    generalize c.callsOf e.runId = called at htraced
    cases htraced
    rfl

/-- **Retries.** In every run whose steps settle their runs, each run is called at most twice, the
second time only after its first call failed to resume the session and while it has no stored
result, and the stored result of a run carries the session id of its last call. -/
theorem disciplined_of_run {l : List Action}
    (h : Run (step cfg) (fun c a => c.Distinct a ∧ Settles cfg c a) {} l c) :
    WithinTwo c ∧ ∀ l₁ a l₂ u v, l = l₁ ++ [a] ++ l₂ → Run (step cfg) Distinct {} l₁ u →
      step cfg u a = some v → RetriesOnly u a v := by
  have hthreads {m : List Action} {d : Coordinator}
      (hd : Run (step cfg) (fun c a => c.Distinct a ∧ Settles cfg c a) {} m d) : Threads d :=
    hd.invariant threads_empty fun hu ha hstep => hu.step ha.1 ha.2 hstep
  refine ⟨(hthreads h).withinTwo, ?_⟩
  rintro l₁ a l₂ u v rfl hu hstep
  obtain ⟨w, hw, -⟩ := h.split
  obtain ⟨u', hu', ha, -⟩ := hw.of_snoc
  obtain rfl := hu.unique hu'
  exact (hthreads hu').retriesOnly ha.2 hstep

/-! ## Histories -/

/-- A run whose first call fails to resume its session, and whose second one answers. -/
def resumeFails : List Action :=
  [.submit (.sample "first") "", .worker 0, .execution 0,
    .backendEnds 0 (.runtimeError true "expired"), .backendEnds 0 (.dict {}), .worker 0]

theorem disciplined_resumeFails : ∃ c,
    Run (step .sample) (fun c a => c.Distinct a ∧ Settles .sample c a) {} resumeFails c ∧
      WithinTwo c ∧ c.storedIds = ["first"] ∧ c.history.calls.length = 2 := by
  have h : Run (step .sample) (fun c a => c.Distinct a ∧ Settles .sample c a) {} resumeFails _ :=
    .of_execute (by decide +kernel)
  exact ⟨_, h, (disciplined_of_run h).1, by decide +kernel, by decide +kernel⟩

/-- A cancelled run whose backend answers that it could not resume the session is called again,
after its result was stored and with another session id. -/
theorem exists_retry_after_cancel : ∃ c c',
    Run (step .sample) Distinct {} [.submit (.sample "first") "", .worker 0, .execution 0,
      .cancel "first"] c ∧
    step .sample c (.backendEnds 0 (.runtimeError true "expired")) = some c' ∧
    ¬ RetriesOnly c (.backendEnds 0 (.runtimeError true "expired")) c' ∧ ¬ WithinTwo c' := by
  have h : Run (step .sample) Distinct {} [.submit (.sample "first") "", .worker 0, .execution 0,
    .cancel "first"] _ := .of_execute (by decide +kernel)
  refine ⟨_, _, h, (Option.some_get (by decide +kernel)).symm, fun hretries => ?_, fun hwithin => ?_⟩
  · obtain ⟨_, _, _, -, -, -, -, -, -, -, hopen⟩ :=
      hretries "first" (by decide +kernel) (by decide +kernel)
    exact absurd hopen (by decide +kernel)
  · exact absurd hwithin.matching (by decide +kernel)

end Coordinator

end Portex
