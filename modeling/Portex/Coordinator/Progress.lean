import Mathlib.Data.List.Perm.Subperm
import Portex.Coordinator.ExactlyOnce

/-!
# Progress of the coordinator

The tasks of the coordinator cannot go on for ever: each turn of a worker or an execution task,
and each end of a backend call, uses up some of a finite amount of work, of which only a
submission brings more. When no task can go on, every run has its terminal result.

## Main definitions

* `Action.ofTask`: the turns of workers and execution tasks, and the ends of backend calls
* `Idle`: no task can go on
* `work`: a bound on the turns that are left

## Main results

* `work_lt_of_step`: each turn uses up work
* `stored_of_idle`: when no task can go on, every run is stored
* `exists_idle`: the tasks can always be brought to that point
-/

namespace Portex

open Foundation

namespace Coordinator

variable {cfg : Config} {c c' d : Coordinator}

/-- The turns of workers and execution tasks, and the ends of backend calls. -/
def Action.ofTask : Action → Bool
  | .worker _ | .execution _ | .backendEnds _ _ => true
  | _ => false

/-- No task can go on. -/
def Idle (cfg : Config) (c : Coordinator) : Prop :=
  ∀ a, a.ofTask = true → step cfg c a = none

/-! ## What a turn does to the tasks -/

/-- The same tasks, and the same runs submitted and started. -/
structure SameTasks (c d : Coordinator) : Prop where
  workers : d.workers = c.workers
  executions : d.executions = c.executions
  submitted : d.history.submitted = c.history.submitted
  started : d.history.started = c.history.started

theorem sameTasks_storeTerminalResult (cfg : Config) (result : ExecutionResult)
    (c : Coordinator) :
    SameTasks c (c.storeTerminalResult cfg result) := by
  obtain ⟨k, hk⟩ := storeTerminalResult_eq cfg result c
  rw [hk]
  exact ⟨rfl, rfl, rfl, rfl⟩

theorem SameTasks.trans {e : Coordinator} (h : SameTasks c d) (k : SameTasks d e) :
    SameTasks c e :=
  ⟨k.workers.trans h.workers, k.executions.trans h.executions, k.submitted.trans h.submitted,
    k.started.trans h.started⟩

theorem sameTasks_failBeforeStart (cfg : Config) (runId : String) (request : ExecutionRequest)
    (backend slotId error : String) (c : Coordinator) :
    SameTasks c (c.failBeforeStart cfg runId request backend slotId error) := by
  obtain ⟨store, result, -, -, k, hk⟩ :=
    failBeforeStart_eq cfg runId request backend slotId error c
  rw [hk]
  exact ⟨rfl, rfl, rfl, rfl⟩

theorem sameTasks_collect (runId : String) (request : ExecutionRequest) (outcome : Outcome) :
    ∀ d ∈ c.collect cfg runId request outcome, SameTasks c d := by
  have hforgotten : SameTasks c (c.forgetRunning runId) := ⟨rfl, rfl, rfl, rfl⟩
  have hdiscarded : SameTasks c ((c.forgetRunning runId).discardCancelled runId) :=
    ⟨rfl, rfl, rfl, rfl⟩
  intro d hd
  unfold collect at hd
  simp only at hd
  split at hd
  · split at hd
    · obtain rfl := Option.some.inj hd
      exact hdiscarded
    · cases hd
  · split at hd
    · obtain rfl := Option.some.inj hd
      exact hdiscarded
    · obtain rfl := Option.some.inj hd
      exact hforgotten.trans (sameTasks_storeTerminalResult ..)
  · obtain rfl := Option.some.inj hd
    exact hforgotten.trans (sameTasks_failBeforeStart ..)

/-- Where the worker loop ends: at the `await` of a new execution task, or for good. -/
inductive Drained (worker : ℕ) (c d : Coordinator) : Prop
  | launched (runId : String) (request : ExecutionRequest) (execution : Execution)
      (created : execution.phase = .created)
      (workers : d.workers = c.workers.modify worker fun w =>
        { w with phase := .awaiting runId request c.executions.size })
      (executions : d.executions = c.executions.alloc execution)
      (submitted : d.history.submitted = c.history.submitted)
      (started : d.history.started = c.history.started ++ [(runId, request)])
  | finished
      (workers : d.workers = c.workers.modify worker fun w => { w with phase := .finished })
      (executions : d.executions = c.executions)
      (submitted : d.history.submitted = c.history.submitted)
      (started : d.history.started = c.history.started)

theorem Drained.of_sameTasks {worker : ℕ} {e : Coordinator} (h : SameTasks c d)
    (k : Drained worker d e) : Drained worker c e := by
  cases k with
  | launched runId request execution created workers executions submitted started =>
    rw [h.workers, h.executions] at workers
    exact .launched runId request execution created workers (h.executions ▸ executions)
      (submitted.trans h.submitted) (h.started ▸ started)
  | finished workers executions submitted started =>
    exact .finished (h.workers ▸ workers) (executions.trans h.executions)
      (submitted.trans h.submitted) (started.trans h.started)

/-- **The worker loop**, by induction on the deque. -/
theorem drained_drainQueue (worker : ℕ) (groupFolder : String)
    (queue : List (String × ExecutionRequest)) (c : Coordinator) :
    Drained worker c (drainQueue cfg worker groupFolder queue c) := by
  induction queue generalizing c with
  | nil => exact .finished rfl rfl rfl rfl
  | cons entry rest ih =>
    obtain ⟨runId, request⟩ := entry
    have hpopped : SameTasks c { c with groupQueues := c.groupQueues.insert groupFolder rest } :=
      ⟨rfl, rfl, rfl, rfl⟩
    unfold drainQueue
    simp only
    split
    · rcases executeRequest_cases cfg runId request with
        ⟨backend, slotId, error, h⟩ | ⟨backendName, h⟩
      · rw [h]
        exact .of_sameTasks (hpopped.trans (sameTasks_failBeforeStart ..)) (ih _)
      · obtain ⟨store, snapshots, sessionId, hlaunch⟩ := launch_eq cfg runId request backendName
          { c with groupQueues := c.groupQueues.insert groupFolder rest }
        rw [h, hlaunch]
        exact .launched runId request _ rfl rfl rfl rfl rfl
    · exact .of_sameTasks hpopped (ih _)

/-- A turn of a worker: from the `await` of a task that ended or from the start, through the
loop. A worker may also end at once. -/
theorem workerStep_cases {worker : ℕ} (hstep : c.workerStep cfg worker = some c') :
    ∃ w, c.workers.get? worker = some w ∧ w.phase.done = false ∧ w.phase ≠ .active ∧
      ((∃ d, SameTasks (c.setWorkerPhase worker .active) d ∧ Drained worker d c') ∨
        SameTasks (c.setWorkerPhase worker .crashed) c') := by
  unfold workerStep at hstep
  split at hstep
  · rename_i groupFolder hw
    obtain rfl := Option.some.inj hstep
    exact ⟨_, hw, rfl, nofun, .inl ⟨_, ⟨rfl, rfl, rfl, rfl⟩, drained_drainQueue ..⟩⟩
  · rename_i groupFolder runId request task hw
    split at hstep
    · split at hstep
      · rename_i d hd
        obtain rfl := Option.some.inj hstep
        exact ⟨_, hw, rfl, nofun, .inl ⟨d, sameTasks_collect _ _ _ d hd, drained_drainQueue ..⟩⟩
      · obtain rfl := Option.some.inj hstep
        exact ⟨_, hw, rfl, nofun, .inr ⟨rfl, rfl, rfl, rfl⟩⟩
    · cases hstep
  · cases hstep

/-! ## Work -/

/-- The turns that an execution task has left. -/
def executionWork (execution : Execution) : ℕ :=
  match execution.phase with
  | .created => 3
  | .executing => 2
  | .retrying _ => 1
  | .done _ => 0

/-- The turns that a worker has left, its launches apart. -/
def workerWork (worker : Worker) : ℕ :=
  match worker.phase with
  | .scheduled => 3
  | .awaiting _ _ _ => 2
  | .active => 1
  | .finished | .crashed => 0

/-- A bound on the turns that are left: each launch brings an execution task. -/
def work (c : Coordinator) : ℕ :=
  6 * (c.history.submitted.length - c.history.started.length) +
    c.executions.total executionWork + c.workers.total workerWork

theorem SameTasks.work_eq (h : SameTasks c d) : d.work = c.work := by
  rw [work, work, h.workers, h.executions, h.submitted, h.started]

/-- A turn of an execution task takes its phase on. -/
structure Turned (task : ℕ) (execution : Execution) (c d : Coordinator) : Prop where
  executions : ∃ phase, d.executions =
      c.executions.modify task (fun execution => { execution with phase }) ∧
    executionWork { execution with phase } < executionWork execution
  workers : d.workers = c.workers
  submitted : d.history.submitted = c.history.submitted
  started : d.history.started = c.history.started
  futures : d.futures = c.futures
  runFutures : d.runFutures = c.runFutures

theorem executionStep_turned {task : ℕ} (hstep : c.executionStep task = some c') :
    ∃ execution, c.executions.get? task = some execution ∧ Turned task execution c c' := by
  obtain ⟨e, he, hstarts⟩ := starts_of_step hstep
  refine ⟨e, he, ?_⟩
  cases hstarts with
  | drop created | call created =>
    exact ⟨⟨_, rfl, by simp [executionWork, created]⟩, rfl, rfl, rfl, rfl, rfl⟩

theorem finishExecution_turned {task : ℕ} {execution : Execution} {result : ExecutionResult}
    (hin : execution.InFlight) :
    Turned task execution c (c.finishExecution task execution result) := by
  have hwork : 0 < executionWork execution := by
    rcases hin with h | ⟨_, h⟩ <;> simp [executionWork, h]
  unfold finishExecution
  split <;> exact ⟨⟨_, rfl, hwork⟩, rfl, rfl, rfl, rfl, rfl⟩

theorem backendEndsStep_turned {task : ℕ} {ending : Ending}
    (hstep : c.backendEndsStep cfg task ending = some c') :
    ∃ execution, c.executions.get? task = some execution ∧ Turned task execution c c' := by
  obtain ⟨e, he, hends⟩ := callEnds_of_step hstep
  refine ⟨e, he, ?_⟩
  have hdone (hin : e.InFlight) (outcome : Outcome) :
      Turned task e c (c.setExecutionPhase task (.done outcome)) := by
    have hwork : 0 < executionWork e := by
      rcases hin with h | ⟨_, h⟩ <;> simp [executionWork, h]
    exact ⟨⟨_, rfl, hwork⟩, rfl, rfl, rfl, rfl, rfl⟩
  cases hends with
  | finish called =>
    obtain ⟨snapshots, hsnapshots⟩ := noted_eq e true c
    rw [hsnapshots]
    exact { finishExecution_turned (c := { c with runSnapshots := snapshots })
      called.inFlight with }
  | @retry _ message executing =>
    obtain ⟨sessionId, store, snapshots, heq⟩ := retryExecution_eq cfg task e message c
    rw [heq]
    exact ⟨⟨_, rfl, by simp [executionWork, executing]⟩, rfl, rfl, rfl, rfl, rfl⟩
  | fail called =>
    obtain ⟨snapshots, hsnapshots⟩ := noted_eq e false c
    rw [hsnapshots]
    exact { hdone called.inFlight _ with }
  | cancelled called | raised called => exact hdone called.inFlight _

theorem Turned.work_lt {task : ℕ} {execution : Execution}
    (he : c.executions.get? task = some execution) (h : Turned task execution c d) :
    d.work < c.work := by
  obtain ⟨⟨phase, hexecutions, hlt⟩, hworkers, hsubmitted, hstarted, -, -⟩ := h
  have htotal := Heap.total_modify executionWork he fun execution => { execution with phase }
  rw [← hexecutions] at htotal
  rw [work, work, hworkers, hsubmitted, hstarted]
  omega

/-- No more runs started than were submitted. -/
theorem Inv.started_le (h : Inv c) : c.history.started.length ≤ c.history.submitted.length := by
  have hnodup : c.history.started.Nodup := by
    rw [List.nodup_iff_count_le_one]
    intro entry
    obtain ⟨passed, hpassed, hsub⟩ := h.fifo entry.2.groupFolder
    have hin : (c.startedIn entry.2.groupFolder).Nodup := by
      have hsubmitted : (c.submittedIn entry.2.groupFolder).Nodup :=
        (List.Nodup.of_map _ h.submitted_nodup).filter _
      rw [hpassed] at hsubmitted
      exact hsub.nodup (List.Nodup.of_append_left hsubmitted)
    have hcount := List.nodup_iff_count_le_one.mp hin entry
    rwa [startedIn, List.count_filter (by simp)] at hcount
  exact (hnodup.subperm fun _ he => h.started_submitted he).length_le

theorem Drained.work_le {worker : ℕ} {g : String} (h : Drained worker c d) (hd : Inv d)
    (hw : c.workers.get? worker = some { groupFolder := g, phase := .active }) :
    d.work ≤ c.work := by
  have hle := hd.started_le
  cases h with
  | launched runId request execution created workers executions submitted started =>
    have htotal := Heap.total_modify workerWork hw fun w =>
      { w with phase := .awaiting runId request c.executions.size }
    rw [← workers] at htotal
    simp only [workerWork] at htotal
    have hexecution : executionWork execution = 3 := by simp [executionWork, created]
    rw [submitted, started, List.length_append, List.length_singleton] at hle
    rw [work, work, submitted, started, executions, Heap.total_alloc, List.length_append,
      List.length_singleton]
    omega
  | finished workers executions submitted started =>
    have htotal := Heap.total_modify workerWork hw fun w => { w with phase := .finished }
    rw [← workers] at htotal
    simp only [workerWork] at htotal
    rw [work, work, submitted, started, executions]
    omega

theorem work_setWorkerPhase {worker : ℕ} {w : Worker} (hw : c.workers.get? worker = some w)
    (phase : WorkerPhase) (hlt : workerWork { w with phase } < workerWork w) :
    (c.setWorkerPhase worker phase).work < c.work := by
  have htotal := Heap.total_modify workerWork hw fun w => { w with phase }
  simp only [work, setWorkerPhase]
  omega

/-- **Each turn uses up work.** -/
theorem work_lt_of_step {a : Action} (h : Inv c) (ha : c.Ordinary a) (hof : a.ofTask = true)
    (hstep : step cfg c a = some c') : c'.work < c.work := by
  have h' := h.step ha hstep
  cases a with
  | worker worker =>
    obtain ⟨w, hw, hdone, hactive, ⟨d, hsame, hdrained⟩ | hsame⟩ := workerStep_cases hstep
    · have hphase : workerWork { w with phase := .active } < workerWork w := by
        cases hp : w.phase <;> simp_all [workerWork, WorkerPhase.done]
      have hd : d.workers.get? worker = some { w with phase := .active } := by
        rw [hsame.workers]
        simp [setWorkerPhase, hw]
      calc c'.work ≤ d.work := hdrained.work_le h' hd
        _ = (c.setWorkerPhase worker .active).work := hsame.work_eq
        _ < c.work := work_setWorkerPhase hw _ hphase
    · have hphase : workerWork { w with phase := .crashed } < workerWork w := by
        cases hp : w.phase <;> simp_all [workerWork, WorkerPhase.done]
      rw [hsame.work_eq]
      exact work_setWorkerPhase hw _ hphase
  | execution task =>
    obtain ⟨execution, he, hturned⟩ := executionStep_turned hstep
    exact hturned.work_lt he
  | backendEnds task ending =>
    obtain ⟨execution, he, hturned⟩ := backendEndsStep_turned hstep
    exact hturned.work_lt he
  | _ => cases hof

/-- The tasks of a coordinator take no more turns than there is work. -/
theorem length_le_work {l : List Action} (h : Inv c)
    (hrun : Run (step cfg) (fun c a => c.Ordinary a ∧ a.ofTask = true) c l d) :
    l.length ≤ c.work := by
  have hwork : Inv d ∧ l.length + d.work ≤ c.work := by
    induction hrun with
    | nil => exact ⟨h, by simp⟩
    | snoc _ ha hstep ih =>
      have hlt := work_lt_of_step ih.1 ha.1 ha.2 hstep
      refine ⟨ih.1.step ha.1 hstep, ?_⟩
      rw [List.length_append, List.length_singleton]
      omega
  omega

/-! ## Rest -/

/-- Between two actions no worker is in the middle of a turn. -/
def Resting (c : Coordinator) : Prop :=
  ∀ worker w, c.workers.get? worker = some w → w.phase ≠ .active

theorem resting_empty : Resting {} := by simp [Resting]

theorem resting_setPhase {worker : ℕ} {phase : WorkerPhase}
    (hworkers : d.workers = c.workers.modify worker fun w => { w with phase })
    (hphase : phase ≠ .active)
    (h : ∀ other w, other ≠ worker → c.workers.get? other = some w → w.phase ≠ .active) :
    d.Resting := by
  intro other w hw
  rw [hworkers] at hw
  rcases Heap.get?_modify_cases hw with ⟨w', -, -, rfl⟩ | ⟨hother, hw⟩
  · exact hphase
  · exact h other w hother hw

theorem workers_cancel (runId : String) : (c.cancel cfg runId).2.workers = c.workers := by
  unfold cancel
  split
  · split
    · rfl
    · rename_i request hrequest
      unfold cancelQueued peekSessionId
      obtain ⟨sessionId, store, hpeek⟩ := resolveSessionId_eq cfg request
        (safeSelectBackendName cfg request) none c
      simp only [hpeek]
      exact (sameTasks_storeTerminalResult ..).workers
  · split
    · rfl
    · rename_i request hrequest
      unfold cancelRunning peekSessionId
      obtain ⟨sessionId, store, hpeek⟩ := resolveSessionId_eq cfg request
        (safeSelectBackendName cfg request) none c
      simp only [hpeek]
      split
      · rfl
      · exact (sameTasks_storeTerminalResult ..).workers
  · rfl

/-- **A turn ends at an `await` or for good.** -/
theorem Resting.step {a : Action} (h : c.Resting) (hstep : step cfg c a = some c') :
    c'.Resting := by
  have hsame (hworkers : c'.workers = c.workers) : c'.Resting := by
    intro worker w hw
    exact h worker w (hworkers ▸ hw)
  cases a with
  | submit request uuid =>
    obtain rfl := Option.some.inj hstep
    unfold submitExecution
    simp only
    rcases ensureWorker_cases request.groupFolder _ with ⟨heq, -⟩ | ⟨heq, -⟩
    · rw [heq]
      exact h
    · rw [heq]
      intro worker w hw
      rcases Heap.get?_alloc_cases hw with ⟨-, rfl⟩ | hw
      · simp
      · exact h worker w hw
  | cancel runId =>
    obtain rfl := Option.some.inj hstep
    exact hsame (workers_cancel runId)
  | worker worker =>
    obtain ⟨w, hw, -, -, ⟨d, hd, hdrained⟩ | hcrashed⟩ := workerStep_cases hstep
    · have hothers : ∀ other w, other ≠ worker → d.workers.get? other = some w →
          w.phase ≠ .active := by
        intro other w hne hw
        rw [hd.workers, setWorkerPhase, Heap.get?_modify, if_neg hne] at hw
        exact h other w hw
      cases hdrained with
      | launched runId request execution created workers =>
        exact resting_setPhase workers (by simp) hothers
      | finished workers => exact resting_setPhase workers (by simp) hothers
    · exact resting_setPhase hcrashed.workers (by simp) fun other w _ hw => h other w hw
  | execution task =>
    obtain ⟨execution, -, hturned⟩ := executionStep_turned hstep
    exact hsame hturned.workers
  | backendEnds task ending =>
    obtain ⟨execution, -, hturned⟩ := backendEndsStep_turned hstep
    exact hsame hturned.workers
  | tick =>
    obtain rfl := Option.some.inj hstep
    exact h
  | wait _ | waiter _ | cancelWaiter _ =>
    rcases step_waiter rfl hstep with ⟨waiters, rfl, -⟩ | ⟨waiter, future, -, -, rfl⟩
    · exact h
    · exact h

/-! ## When no task can go on -/

theorem Idle.not_awaits (hidle : c.Idle cfg) (h : Inv c) {worker task : ℕ} {g r : String}
    {q : ExecutionRequest} : ¬ c.Awaits worker g r q task := by
  intro ha
  obtain ⟨-, -, e, he, -, -⟩ := h.awaits _ _ _ _ _ ha
  cases hphase : e.phase with
  | created =>
    have := hidle (.execution task) rfl
    simp [step, executionStep, he, hphase] at this
  | executing =>
    have := hidle (.backendEnds task .timeoutError) rfl
    simp [step, backendEndsStep, he, hphase] at this
  | retrying sessionId =>
    have := hidle (.backendEnds task .timeoutError) rfl
    simp [step, backendEndsStep, he, hphase] at this
  | done outcome =>
    have := hidle (.worker worker) rfl
    unfold Awaits at ha
    simp only [step, workerStep, ha, he, Option.map_some, hphase] at this
    split at this <;> cases this

theorem Idle.not_hasWorker (hidle : c.Idle cfg) (h : Inv c) (hrest : c.Resting) (g : String) :
    ¬ c.HasWorker g := by
  rintro ⟨worker, ⟨g', phase⟩, -, hw, hdone⟩
  cases phase with
  | scheduled =>
    have := hidle (.worker worker) rfl
    simp [step, workerStep, hw] at this
  | active => exact hrest worker _ hw rfl
  | awaiting r q task => exact hidle.not_awaits h hw
  | finished => cases hdone
  | crashed => cases hdone

/-- Whether a task can go on is up to the tasks. -/
theorem Idle.congr (hidle : c.Idle cfg) (hworkers : d.workers = c.workers)
    (hexecutions : d.executions = c.executions) : d.Idle cfg := by
  intro a hof
  have hc := hidle a hof
  cases a with
  | worker worker =>
    simp only [step, workerStep] at hc ⊢
    rw [hworkers, hexecutions]
    split at hc
    · cases hc
    · split at hc
      · split at hc <;> cases hc
      · rfl
    · rfl
  | execution task =>
    simp only [step, executionStep] at hc ⊢
    rw [hexecutions]
    split at hc
    · rfl
    · split at hc
      · cases hc
      · rfl
  | backendEnds task ending =>
    simp only [step, backendEndsStep] at hc ⊢
    rw [hexecutions]
    split at hc
    · rfl
    · split at hc
      · cases hc
      · cases hc
      · rfl
  | _ => cases hof

theorem idle_of_done (hworkers : ∀ w ∈ c.workers.cells, w.phase.done = true)
    (hexecutions : ∀ e ∈ c.executions.cells, executionWork e = 0) : c.Idle cfg := by
  have hexecution {task : ℕ} {e : Execution} (he : c.executions.get? task = some e) :
      executionWork e = 0 := hexecutions e (List.mem_of_getElem? he)
  intro a hof
  by_contra hstep
  obtain ⟨d, hd⟩ := Option.ne_none_iff_exists'.mp hstep
  cases a with
  | worker worker =>
    obtain ⟨w, hw, hdone, -⟩ := workerStep_cases hd
    simp [hworkers w (List.mem_of_getElem? hw)] at hdone
  | execution task =>
    obtain ⟨e, he, ⟨phase, -, hlt⟩, -⟩ := executionStep_turned hd
    rw [hexecution he] at hlt
    cases hlt
  | backendEnds task ending =>
    obtain ⟨e, he, ⟨phase, -, hlt⟩, -⟩ := backendEndsStep_turned hd
    rw [hexecution he] at hlt
    cases hlt
  | _ => cases hof

/-- The run has its result, and has left the deques and the maps of queued and running runs. -/
structure Finished (c : Coordinator) (runId : String) : Prop where
  stored : runId ∈ c.storedIds
  request : c.runRequests.get? runId = none
  future : c.runFutures.get? runId = none
  task : c.runningTasks.get? runId = none
  backend : c.runningBackends.get? runId = none
  status : c.statuses.get? runId ≠ some .queued ∧ c.statuses.get? runId ≠ some .running
  queue : ∀ g q, (runId, q) ∉ c.queue g

/-- **When no task can go on, every run has its result.** -/
theorem stored_of_idle (k : Sound c) (hrest : c.Resting) (hidle : c.Idle cfg) {r : String}
    (hr : r ∈ c.submittedIds) : r ∈ c.storedIds := by
  by_contra hopen
  by_cases hstarted : r ∈ c.startedIds
  · obtain ⟨worker, g, q, task, ha⟩ := k.served.running_awaited r hstarted hopen
    exact hidle.not_awaits k.inv ha
  · obtain ⟨⟨r, q⟩, hq, rfl⟩ := List.mem_map.mp hr
    have hentry := k.kept.queued_entry r q hq hopen hstarted
    exact hidle.not_hasWorker k.inv hrest q.groupFolder
      (k.served.queue_served _ (List.ne_nil_of_mem hentry))

theorem finished_of_idle (k : Sound c) (hrest : c.Resting) (hidle : c.Idle cfg) {r : String}
    (hr : r ∈ c.submittedIds) : c.Finished r := by
  have hstored := stored_of_idle k hrest hidle hr
  have htask : c.runningTasks.get? r = none := by
    refine Option.eq_none_iff_forall_ne_some.mpr fun task htask => ?_
    obtain ⟨worker, g, q, ha⟩ := k.inv.running_task r task htask
    exact hidle.not_awaits k.inv ha
  exact {
    stored := hstored
    request := Option.eq_none_iff_forall_ne_some.mpr fun q hq =>
      ((k.inv.request_iff r q).mp hq).2 hstored
    future := Option.eq_none_iff_forall_ne_some.mpr fun i hi =>
      ((k.inv.future_iff r i).mp hi).2 hstored
    task := htask
    backend := by
      have := k.inv.running_backend r
      rw [htask] at this
      simpa using this
    status := ⟨fun hs => ((k.inv.queued_iff r).mp hs).1.2 hstored,
      fun hs => ((k.inv.running_iff r).mp hs).1.2 hstored⟩
    queue := fun g q hq => hidle.not_hasWorker k.inv hrest g
      (k.served.queue_served g (List.ne_nil_of_mem hq)) }

/-- Where some task can go on, one can with a backend that conforms. -/
theorem exists_turn (hidle : ¬ c.Idle cfg) :
    ∃ a d, c.Orderly a ∧ a.ofTask = true ∧ step cfg c a = some d := by
  simp only [Idle, not_forall] at hidle
  obtain ⟨a, hof, hstep⟩ := hidle
  obtain ⟨d, hd⟩ := Option.ne_none_iff_exists'.mp hstep
  cases a with
  | worker worker => exact ⟨.worker worker, d, trivial, hof, hd⟩
  | execution task => exact ⟨.execution task, d, trivial, hof, hd⟩
  | backendEnds task ending =>
    have htimeout : ∃ d, step cfg c (.backendEnds task .timeoutError) = some d := by
      simp only [step, backendEndsStep] at hd ⊢
      split at hd
      · cases hd
      · split at hd
        · exact ⟨_, rfl⟩
        · exact ⟨_, rfl⟩
        · cases hd
    obtain ⟨d, hd⟩ := htimeout
    exact ⟨.backendEnds task .timeoutError, d, ⟨trivial, by simp⟩, rfl, hd⟩
  | _ => cases hof

/-- **The tasks can always be brought to rest**, by induction on the work that is left. -/
theorem exists_idle (cfg : Config) {c : Coordinator} (h : Inv c) :
    ∃ l d, Run (step cfg) (fun c a => c.Orderly a ∧ a.ofTask = true) c l d ∧ d.Idle cfg := by
  by_cases hidle : c.Idle cfg
  · exact ⟨[], c, .nil, hidle⟩
  · obtain ⟨a, d, ha, hof, hstep⟩ := exists_turn hidle
    have hlt := work_lt_of_step h ha.ordinary hof hstep
    obtain ⟨l, e, hrun, he⟩ := exists_idle cfg (h.step ha.ordinary hstep)
    exact ⟨[a] ++ l, e, (Run.single ⟨ha, hof⟩ hstep).append hrun, he⟩
termination_by c.work

end Coordinator

end Portex
