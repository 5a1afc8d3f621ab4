import Portex.Coordinator.Postings

/-!
# The execution tasks and their calls

What every backend leaves true, whatever it answers with: each run has at most one execution task,
the calls of a run are those of its task, in their order, and the maps of running runs follow the
tasks. With it go the stored results: each is to carry the session id of the last call of its run,
and no result may be stored under a task that still calls.

## Main definitions

* `callsOf`, `Traced`: the calls of a run, and what they are by the phase of its task
* `Threads`: the invariant
* `Distinct`, `Settles`: the conditions on actions

## Main results

* `Threads.store`, `Threads.setPhase`: a result is stored, a task takes a turn
* `Threads.step`: every action that settles its run keeps the invariant
-/

namespace Portex

open Foundation

/-- The run that a worker awaits, and its task. -/
def WorkerPhase.awaited : WorkerPhase → Option (String × ExecutionRequest × ℕ)
  | .awaiting runId request task => some (runId, request, task)
  | _ => none

theorem WorkerPhase.awaited_eq_some {phase : WorkerPhase} {run : String × ExecutionRequest × ℕ} :
    phase.awaited = some run ↔ phase = .awaiting run.1 run.2.1 run.2.2 := by
  obtain ⟨runId, request, task⟩ := run
  cases phase <;> simp [awaited]

def Execution.raises (execution : Execution) : Bool :=
  match execution.phase with
  | .done (.raised _) => true
  | _ => false

theorem Execution.raises_iff {execution : Execution} :
    execution.raises = true ↔ ∃ message, execution.phase = .done (.raised message) := by
  unfold raises
  split
  · rename_i message hphase
    exact ⟨fun _ => ⟨message, hphase⟩, fun _ => rfl⟩
  · rename_i hphase
    refine ⟨fun hraises => ?_, fun ⟨message, hraised⟩ => absurd hraised (hphase message)⟩
    cases hraises

namespace Coordinator

variable {cfg : Config} {worker task : ℕ} {c c' : Coordinator} {e : Execution} {r s : String}

/-! ## Calls -/

/-- The calls of a run, in order. -/
def callsOf (c : Coordinator) (runId : String) : List BackendCall :=
  c.history.calls.filter fun call => call.runId = runId

/-- The run ids of the execution tasks. -/
def taskIds (c : Coordinator) : List String := c.executions.cells.map Execution.runId

def firstCall (e : Execution) : BackendCall :=
  { runId := e.runId, request := e.request, sessionId := e.sessionId, retry := false }

def retryCall (e : Execution) (sessionId : String) : BackendCall :=
  { runId := e.runId, request := e.request, sessionId, retry := true }

/-- The last of the calls, if there is one, has the session id. -/
def LastSession (calls : List BackendCall) (sessionId : String) : Prop :=
  ∀ call ∈ calls.getLast?, call.sessionId = sessionId

instance (calls : List BackendCall) : DecidablePred (LastSession calls) := fun _ =>
  inferInstanceAs (Decidable (∀ call ∈ calls.getLast?, _))

/-- The task returned a result of its run, under the session id. -/
def Returns (e : Execution) (sessionId : String) (outcome : Outcome) : Prop :=
  ∀ result, outcome = .returned result → result.runId = e.runId ∧ result.sessionId = sessionId

/-- The calls that a task has made, by its phase. -/
inductive Traced (e : Execution) : ExecutionPhase → List BackendCall → Prop
  | created : Traced e .created []
  | executing : Traced e .executing [firstCall e]
  | retrying (sessionId : String) :
      Traced e (.retrying sessionId) [firstCall e, retryCall e sessionId]
  | dropped : Traced e (.done .cancelledError) []
  | once {outcome : Outcome} (returns : Returns e e.sessionId outcome) :
      Traced e (.done outcome) [firstCall e]
  | twice {outcome : Outcome} (sessionId : String) (returns : Returns e sessionId outcome) :
      Traced e (.done outcome) [firstCall e, retryCall e sessionId]

theorem Traced.length_le {phase : ExecutionPhase} {calls : List BackendCall}
    (h : Traced e phase calls) : calls.length ≤ 2 := by
  cases h <;> simp

/-- A returned result is one of the run, and carries the session id of the last call. -/
theorem Traced.returned {calls : List BackendCall} {result : ExecutionResult}
    (h : Traced e (.done (.returned result)) calls) :
    result.runId = e.runId ∧ LastSession calls result.sessionId := by
  cases h with
  | once returns =>
    obtain ⟨hrun, hsession⟩ := returns result rfl
    refine ⟨hrun, fun call hcall => ?_⟩
    obtain rfl := Option.some.inj hcall
    exact hsession.symm
  | twice sessionId returns =>
    obtain ⟨hrun, hsession⟩ := returns result rfl
    refine ⟨hrun, fun call hcall => ?_⟩
    obtain rfl := Option.some.inj hcall
    exact hsession.symm

/-- A task in flight ends with the calls it has made. -/
theorem Traced.ends {phase : ExecutionPhase} {calls : List BackendCall} {outcome : Outcome}
    (h : Traced e phase calls) (hin : phase = .executing ∨ ∃ s, phase = .retrying s)
    (hreturns : ∀ result, outcome = .returned result →
      result.runId = e.runId ∧ LastSession calls result.sessionId) :
    Traced e (.done outcome) calls := by
  cases h with
  | executing =>
    refine .once fun result hresult => ?_
    obtain ⟨hrun, hlast⟩ := hreturns result hresult
    exact ⟨hrun, (hlast _ rfl).symm⟩
  | retrying s =>
    refine .twice s fun result hresult => ?_
    obtain ⟨hrun, hlast⟩ := hreturns result hresult
    exact ⟨hrun, (hlast _ rfl).symm⟩
  | created | dropped | once | twice =>
    rcases hin with hin | ⟨s, hin⟩
    · cases hin
    · cases hin

theorem Traced.congr {e' : Execution} {phase : ExecutionPhase} {calls : List BackendCall}
    (h : Traced e phase calls) (hrun : e'.runId = e.runId) (hrequest : e'.request = e.request)
    (hsession : e'.sessionId = e.sessionId) : Traced e' phase calls := by
  have hfirst : firstCall e = firstCall e' := by
    rw [firstCall, firstCall, hrun, hrequest, hsession]
  have hretry : ∀ s, retryCall e s = retryCall e' s := by
    intro s
    rw [retryCall, retryCall, hrun, hrequest]
  cases h with
  | created => exact .created
  | dropped => exact .dropped
  | executing => exact hfirst ▸ .executing
  | retrying s => exact hfirst ▸ hretry s ▸ .retrying s
  | once returns =>
    refine hfirst ▸ .once fun result hresult => ?_
    rw [hrun, hsession]
    exact returns result hresult
  | twice s returns =>
    refine hfirst ▸ hretry s ▸ .twice s fun result hresult => ?_
    rw [hrun]
    exact returns result hresult

/-- The calls of a run after another one. -/
theorem callsOf_append {call : BackendCall}
    (h : c'.history.calls = c.history.calls ++ [call]) (r : String) :
    c'.callsOf r = if call.runId = r then c.callsOf r ++ [call] else c.callsOf r := by
  unfold callsOf
  rw [h, List.filter_append]
  split
  · rename_i hr
    rw [List.filter_cons_of_pos (by simpa using hr), List.filter_nil]
  · rename_i hr
    rw [List.filter_cons_of_neg (by simpa using hr), List.filter_nil, List.append_nil]

theorem mem_taskIds (he : c.executions.get? task = some e) : e.runId ∈ c.taskIds :=
  List.mem_map_of_mem (List.mem_of_getElem? he)

/-! ## The invariant -/

/-- The run map of sessions names the session id of the last call, or of the one to come. -/
def Current (e : Execution) (calls : List BackendCall) (sessionId : String) : Prop :=
  (calls = [] → sessionId = e.sessionId) ∧ LastSession calls sessionId

/-- The stored results carry the session ids of the last calls of their runs. -/
def Matching (c : Coordinator) : Prop :=
  ∀ result ∈ c.history.stored, LastSession (c.callsOf result.runId) result.sessionId

/-- The execution tasks and their calls. -/
structure Threads (c : Coordinator) : Prop where
  submitted_nodup : c.submittedIds.Nodup
  stored_submitted : ∀ r ∈ c.storedIds, r ∈ c.submittedIds
  order_stored : ∀ r ∈ c.completedOrder, r ∈ c.storedIds
  future_open : ∀ r i, c.runFutures.get? r = some i → c.Open r
  request_open : ∀ r q, c.runRequests.get? r = some q → c.Open r
  queued : ∀ g, ∀ entry ∈ c.queue g, entry ∈ c.history.submitted ∧ entry.2.groupFolder = g ∧
    entry.1 ∉ c.taskIds
  queue_nodup : ∀ g, ((c.queue g).map Prod.fst).Nodup
  task_nodup : c.taskIds.Nodup
  task_submitted : ∀ r ∈ c.taskIds, r ∈ c.submittedIds
  awaits : ∀ worker g r q task, c.Awaits worker g r q task →
    ∃ e, c.executions.get? task = some e ∧ e.runId = r
  running : ∀ task e, c.executions.get? task = some e → ¬ e.IsDone →
    c.runningTasks.get? e.runId = some task
  status : ∀ task e, c.executions.get? task = some e → e.runId ∉ c.storedIds →
    c.statuses.get? e.runId = some .running
  unflagged : ∀ task e, c.executions.get? task = some e → ¬ e.IsDone →
    e.cancelRequested = false → e.runId ∉ c.storedIds
  sessions : ∀ r, (c.runningBackends.get? r).isSome = true →
    (c.runSessionIds.get? r).isSome = true
  current : ∀ task e sessionId, c.executions.get? task = some e →
    c.runSessionIds.get? e.runId = some sessionId → Current e (c.callsOf e.runId) sessionId
  traced : ∀ task e, c.executions.get? task = some e → Traced e e.phase (c.callsOf e.runId)
  called : ∀ call ∈ c.history.calls, call.runId ∈ c.taskIds
  matching : c.Matching

/-- A run without a task has made no calls. -/
theorem Threads.callsOf_eq_nil (h : Threads c) (hr : r ∉ c.taskIds) : c.callsOf r = [] := by
  refine List.filter_eq_nil_iff.mpr fun call hcall => ?_
  have hcalled := h.called call hcall
  simp only [decide_eq_true_eq]
  rintro rfl
  exact hr hcalled

/-- The task of a run is the only one. -/
theorem Threads.task_unique (h : Threads c) {task' : ℕ} {e' : Execution}
    (he : c.executions.get? task = some e) (he' : c.executions.get? task' = some e')
    (hr : e.runId = e'.runId) : task = task' ∧ e = e' := by
  have hmap (t : ℕ) : c.taskIds[t]? = (c.executions.get? t).map Execution.runId :=
    List.getElem?_map ..
  have hi := (hmap task).trans (congrArg (Option.map Execution.runId) he)
  have hj := (hmap task').trans (congrArg (Option.map Execution.runId) he')
  obtain ⟨hlt, hi⟩ := List.getElem?_eq_some_iff.mp hi
  obtain ⟨hlt', hj⟩ := List.getElem?_eq_some_iff.mp hj
  obtain rfl := (List.Nodup.getElem_inj_iff h.task_nodup).mp (hi.trans (hr.trans hj.symm))
  exact ⟨rfl, Option.some.inj (he.symm.trans he')⟩

theorem threads_empty : Threads {} where
  submitted_nodup := List.nodup_nil
  stored_submitted := by simp [storedIds]
  order_stored := by simp
  future_open := by simp
  request_open := by simp
  queued := by simp [queue, Dict.getD]
  queue_nodup := by simp [queue, Dict.getD]
  task_nodup := List.nodup_nil
  task_submitted _ hr := by cases hr
  awaits := by simp [Awaits]
  running := by simp
  status := by simp
  unflagged := by simp
  sessions := by simp
  current := by simp
  traced := by simp
  called := by simp
  matching := by simp [Matching]

/-- **A result is stored**: its run is one that was submitted, its task does not go on, and it
carries the session id of the last call. -/
theorem Threads.store (h : Threads c) {result : ExecutionResult} (k : Closing c result)
    (hsubmitted : result.runId ∈ c.submittedIds)
    (hflagged : ∀ task e, c.executions.get? task = some e → e.runId = result.runId →
      ¬ e.IsDone → e.cancelRequested = true)
    (hlast : LastSession (c.callsOf result.runId) result.sessionId) : Threads k.apply := by
  have hstored : ∀ r, r ∈ k.apply.storedIds ↔ r ∈ c.storedIds ∨ r = result.runId := by
    intro r
    rw [Closing.storedIds_apply, List.mem_append, List.mem_singleton]
  -- Runs are evicted in the order in which they were stored, so none that is open.
  have hevicted : ∀ r ∈ k.evicted, r ∈ k.apply.storedIds := by
    intro r hr
    have hmem : r ∈ c.completedOrder ++ [result.runId] := by
      rw [k.order_eq]
      exact List.mem_append_left _ hr
    rcases List.mem_append.mp hmem with hmem | hmem
    · exact (hstored r).mpr (.inl (h.order_stored r hmem))
    · exact (hstored r).mpr (.inr (List.mem_singleton.mp hmem))
  exact
  { h with
    stored_submitted := fun r hr => by
      rcases (hstored r).mp hr with hr | rfl
      · exact h.stored_submitted r hr
      · exact hsubmitted
    order_stored := fun r hr => by
      have hmem : r ∈ c.completedOrder ++ [result.runId] := by
        rw [k.order_eq]
        exact List.mem_append_right _ hr
      rcases List.mem_append.mp hmem with hmem | hmem
      · exact (hstored r).mpr (.inl (h.order_stored r hmem))
      · exact (hstored r).mpr (.inr (List.mem_singleton.mp hmem))
    future_open := fun r i hi => by
      simp only [Closing.runFutures_apply, Dict.get?_erase] at hi
      split at hi
      · cases hi
      · exact k.open_apply.mpr ⟨h.future_open r i hi, ‹_›⟩
    request_open := fun r q hq => by
      simp only [Closing.runRequests_apply, Dict.get?_erase] at hq
      split at hq
      · cases hq
      · exact k.open_apply.mpr ⟨h.request_open r q hq, ‹_›⟩
    status := fun task e he hr => by
      rw [hstored, not_or] at hr
      have hkept : e.runId ∉ k.evicted := fun hev => by
        rcases (hstored _).mp (hevicted _ hev) with hmem | hmem
        · exact hr.1 hmem
        · exact hr.2 hmem
      rw [Closing.statuses_apply, k.get?_statuses, if_neg hkept, if_neg hr.2]
      exact h.status task e he hr.1
    unflagged := fun task e he hdone hflag hr => by
      rcases (hstored _).mp hr with hr | hr
      · exact h.unflagged task e he hdone hflag hr
      · rw [hflagged task e he hr hdone] at hflag
        cases hflag
    matching := fun other hother => by
      rcases List.mem_append.mp hother with hother | hother
      · exact h.matching other hother
      · obtain rfl := List.mem_singleton.mp hother
        exact hlast }

/-! ## A task takes a turn -/

theorem taskIds_modify {f : Execution → Execution} (hf : ∀ e, (f e).runId = e.runId)
    (hexec : c'.executions = c.executions.modify task f) : c'.taskIds = c.taskIds := by
  unfold taskIds
  rw [hexec]
  exact Heap.map_cells_modify Execution.runId f hf _ _

/-- The tasks after one of them is changed. -/
theorem get?_of_modify {f : Execution → Execution}
    (hexec : c'.executions = c.executions.modify task f) {other : ℕ} {e' : Execution}
    (he' : c'.executions.get? other = some e') :
    ∃ e, c.executions.get? other = some e ∧ e' = if other = task then f e else e := by
  rw [hexec] at he'
  rcases Heap.get?_modify_cases he' with ⟨e, he, hsame, rfl⟩ | ⟨hother, he'⟩
  · exact ⟨e, he, (if_pos hsame.symm).symm⟩
  · exact ⟨e', he', (if_neg hother).symm⟩

/-- What a turn of a task changes: its phase, the calls, and the session id of a running run. -/
structure TurnOf (c c' : Coordinator) (task : ℕ) (e : Execution) (phase : ExecutionPhase) :
    Prop where
  executions : c'.executions = c.executions.modify task fun e => { e with phase }
  found : c.executions.get? task = some e
  undone : ¬ e.IsDone
  traced : Traced e phase (c'.callsOf e.runId)
  others : ∀ r, r ≠ e.runId → c'.callsOf r = c.callsOf r
  called : ∀ call ∈ c'.history.calls, call ∈ c.history.calls ∨ call.runId = e.runId
  /-- A run with a stored result is not called again. -/
  kept : c'.callsOf e.runId = c.callsOf e.runId ∨ e.runId ∉ c.storedIds
  sessionIds : ∀ r, r ≠ e.runId → c'.runSessionIds.get? r = c.runSessionIds.get? r
  sessions : (c.runSessionIds.get? e.runId).isSome = true →
    (c'.runSessionIds.get? e.runId).isSome = true
  current : ∀ sessionId, c'.runSessionIds.get? e.runId = some sessionId →
    Current e (c'.callsOf e.runId) sessionId
  listing : c'.history.submitted = c.history.submitted ∧ c'.history.stored = c.history.stored ∧
    c'.completedOrder = c.completedOrder ∧ c'.runFutures = c.runFutures ∧
    c'.runRequests = c.runRequests ∧ c'.groupQueues = c.groupQueues ∧ c'.workers = c.workers ∧
    c'.runningTasks = c.runningTasks ∧ c'.runningBackends = c.runningBackends ∧
    c'.statuses = c.statuses

/-- A task after a turn is another one, as it was, or the one that took the turn. -/
theorem Threads.get?_turn (h : Threads c) {phase : ExecutionPhase} {other : ℕ} {e' : Execution}
    (t : TurnOf c c' task e phase) (he' : c'.executions.get? other = some e') :
    (other = task ∧ e' = { e with phase }) ∨
      (c.executions.get? other = some e' ∧ e'.runId ≠ e.runId) := by
  obtain ⟨before, hbefore, heq⟩ := get?_of_modify t.executions he'
  by_cases hother : other = task
  · subst hother
    obtain rfl := Option.some.inj (t.found.symm.trans hbefore)
    exact .inl ⟨rfl, by rw [heq, if_pos rfl]⟩
  · rw [if_neg hother] at heq
    subst heq
    exact .inr ⟨hbefore, fun hr => hother (h.task_unique hbefore t.found hr).1⟩

/-- **A task takes a turn.** -/
theorem Threads.turn (h : Threads c) {phase : ExecutionPhase} (t : TurnOf c c' task e phase) :
    Threads c' := by
  obtain ⟨hsubmitted, hstored, horder, hfutures, hrequests, hqueues, hworkers, htasks, hbackends,
    hstatuses⟩ := t.listing
  have hids : c'.taskIds = c.taskIds := by
    refine taskIds_modify ?_ t.executions
    exact fun _ => rfl
  have hsubmittedIds : c'.submittedIds = c.submittedIds :=
    congrArg (List.map Prod.fst) hsubmitted
  have hstoredIds : c'.storedIds = c.storedIds :=
    congrArg (List.map ExecutionResult.runId) hstored
  have hopen : ∀ r, c'.Open r ↔ c.Open r := by
    intro r
    unfold Open
    rw [hsubmittedIds, hstoredIds]
  have hqueue : ∀ g, c'.queue g = c.queue g := by
    intro g
    unfold queue
    rw [hqueues]
  have hget {other : ℕ} {e' : Execution} (he' : c'.executions.get? other = some e') :=
    h.get?_turn t he'
  exact
  { submitted_nodup := hsubmittedIds ▸ h.submitted_nodup
    stored_submitted := by
      rw [hstoredIds, hsubmittedIds]
      exact h.stored_submitted
    order_stored := by
      rw [hstoredIds, horder]
      exact h.order_stored
    future_open := fun r i hi => (hopen r).mpr (h.future_open r i (hfutures ▸ hi))
    request_open := fun r q hq => (hopen r).mpr (h.request_open r q (hrequests ▸ hq))
    queued := fun g entry hentry => by
      rw [hids, hsubmitted]
      exact h.queued g entry (hqueue g ▸ hentry)
    queue_nodup := fun g => by
      rw [hqueue]
      exact h.queue_nodup g
    task_nodup := hids ▸ h.task_nodup
    task_submitted := by
      rw [hids, hsubmittedIds]
      exact h.task_submitted
    awaits := fun worker g r q other ha => by
      have hold : c.Awaits worker g r q other := by
        unfold Awaits at ha ⊢
        rwa [hworkers] at ha
      obtain ⟨before, hbefore, hr⟩ := h.awaits worker g r q other hold
      refine ⟨if other = task then { before with phase } else before, ?_, ?_⟩
      · rw [t.executions, Heap.get?_modify, hbefore]
        split <;> rfl
      · split <;> exact hr
    running := fun other e' he' hdone => by
      rw [htasks]
      rcases hget he' with ⟨rfl, rfl⟩ | ⟨hold, -⟩
      · exact h.running other e t.found t.undone
      · exact h.running other e' hold hdone
    status := fun other e' he' hr => by
      rw [hstoredIds] at hr
      rw [hstatuses]
      rcases hget he' with ⟨rfl, rfl⟩ | ⟨hold, -⟩
      · exact h.status other e t.found hr
      · exact h.status other e' hold hr
    unflagged := fun other e' he' hdone hflag => by
      rw [hstoredIds]
      rcases hget he' with ⟨rfl, rfl⟩ | ⟨hold, -⟩
      · exact h.unflagged other e t.found t.undone hflag
      · exact h.unflagged other e' hold hdone hflag
    sessions := fun r hr => by
      rw [hbackends] at hr
      by_cases hown : r = e.runId
      · subst hown
        exact t.sessions (h.sessions _ hr)
      · rw [t.sessionIds r hown]
        exact h.sessions r hr
    current := fun other e' sessionId he' hs => by
      rcases hget he' with ⟨rfl, rfl⟩ | ⟨hold, hne⟩
      · exact t.current sessionId hs
      · rw [t.others _ hne]
        rw [t.sessionIds _ hne] at hs
        exact h.current other e' sessionId hold hs
    traced := fun other e' he' => by
      rcases hget he' with ⟨rfl, rfl⟩ | ⟨hold, hne⟩
      · exact t.traced.congr rfl rfl rfl
      · rw [t.others _ hne]
        exact h.traced other e' hold
    called := fun call hcall => by
      rw [hids]
      rcases t.called call hcall with hold | hown
      · exact h.called call hold
      · rw [hown]
        exact mem_taskIds t.found
    matching := fun result hresult => by
      rw [hstored] at hresult
      by_cases hown : result.runId = e.runId
      · -- The result of the run itself, if there is one, keeps its last call.
        rcases t.kept with hsame | hopen
        · rw [hown, hsame, ← hown]
          exact h.matching result hresult
        · exact absurd (List.mem_map.mpr ⟨result, hresult, hown⟩) hopen
      · rw [t.others _ hown]
        exact h.matching result hresult }

/-- The execution task of a run is told to stop. -/
theorem Threads.flag (h : Threads c) (runId : String) (cancelledRunIds : List String) :
    Threads { c with cancelledRunIds, executions := c.cancelExecution runId } := by
  unfold cancelExecution
  cases hrunning : c.runningTasks.get? runId with
  | none => exact { h with }
  | some task =>
    simp only
    have hids : taskIds { c with
        cancelledRunIds, executions := c.executions.modify task Execution.cancel } = c.taskIds :=
      taskIds_modify Execution.runId_cancel rfl
    have hget : ∀ {other e'}, (c.executions.modify task Execution.cancel).get? other = some e' →
        ∃ e, c.executions.get? other = some e ∧ (e' = e ∨ e' = e.cancel) := by
      intro other e' he'
      obtain ⟨e, he, heq⟩ := get?_of_modify (show ({ c with
        executions := c.executions.modify task Execution.cancel } : Coordinator).executions =
          c.executions.modify task Execution.cancel from rfl) he'
      refine ⟨e, he, ?_⟩
      split at heq
      · exact .inr heq
      · exact .inl heq
    -- A flag changes nothing of a task but the flag.
    have hsame : ∀ {other e'}, (c.executions.modify task Execution.cancel).get? other = some e' →
        ∃ e, c.executions.get? other = some e ∧ e'.runId = e.runId ∧ e'.request = e.request ∧
          e'.sessionId = e.sessionId ∧ e'.phase = e.phase ∧
          (e'.cancelRequested = false → e.cancelRequested = false) := by
      intro other e' he'
      obtain ⟨e, he, rfl | rfl⟩ := hget he'
      · exact ⟨e', he, rfl, rfl, rfl, rfl, id⟩
      · refine ⟨e, he, e.runId_cancel, e.request_cancel, ?_, e.phase_cancel, ?_⟩
        · unfold Execution.cancel
          split <;> rfl
        · unfold Execution.cancel
          split
          · exact id
          · intro hflag
            cases hflag
    exact
    { h with
      queued := fun g entry hentry => by
        rw [hids]
        exact h.queued g entry hentry
      task_nodup := hids ▸ h.task_nodup
      task_submitted := by
        rw [hids]
        exact h.task_submitted
      awaits := fun worker g r q other ha => by
        obtain ⟨e, he, hr⟩ := h.awaits worker g r q other ha
        refine ⟨if other = task then e.cancel else e, ?_, ?_⟩
        · rw [Heap.get?_modify, he]
          split <;> rfl
        · split
          · rw [Execution.runId_cancel, hr]
          · exact hr
      running := fun other e' he' hdone => by
        obtain ⟨e, he, hrun, -, -, hphase, -⟩ := hsame he'
        rw [hrun]
        refine h.running other e he fun hold => hdone ?_
        unfold Execution.IsDone at hold ⊢
        rwa [hphase]
      status := fun other e' he' hr => by
        obtain ⟨e, he, hrun, -⟩ := hsame he'
        rw [hrun] at hr ⊢
        exact h.status other e he hr
      unflagged := fun other e' he' hdone hflag => by
        obtain ⟨e, he, hrun, -, -, hphase, hflagged⟩ := hsame he'
        rw [hrun]
        refine h.unflagged other e he (fun hold => hdone ?_) (hflagged hflag)
        unfold Execution.IsDone at hold ⊢
        rwa [hphase]
      current := fun other e' sessionId he' hs => by
        obtain ⟨e, he, hrun, -, hsession, -⟩ := hsame he'
        rw [hrun] at hs ⊢
        have hcurrent := h.current other e sessionId he hs
        exact ⟨fun hnil => (hcurrent.1 hnil).trans hsession.symm, hcurrent.2⟩
      traced := fun other e' he' => by
        obtain ⟨e, he, hrun, hrequest, hsession, hphase, -⟩ := hsame he'
        rw [hrun, hphase]
        exact (h.traced other e he).congr hrun hrequest hsession
      called := by
        rw [hids]
        exact h.called }

/-! ## Submission and cancellation -/

/-- Maps of the workers and the session store do not matter. -/
theorem Threads.submit (h : Threads c) {runId : String} (request : ExecutionRequest)
    (fresh : runId ∉ c.submittedIds) : Threads (c.submitted runId request) := by
  -- A run that was never submitted has neither a result nor a task.
  have hstored : runId ∉ c.storedIds := fun hr => fresh (h.stored_submitted _ hr)
  have htask : runId ∉ c.taskIds := fun hr => fresh (h.task_submitted _ hr)
  have hopen {r : String} (hr : c.Open r) : (c.submitted runId request).Open r :=
    ⟨by rw [submittedIds_submitted]; exact List.mem_append_left _ hr.1, hr.2⟩
  have hown : (c.submitted runId request).Open runId :=
    ⟨by rw [submittedIds_submitted]; simp, hstored⟩
  have hqueue : ∀ g, (c.submitted runId request).queue g =
      if g = request.groupFolder then c.queue g ++ [(runId, request)] else c.queue g := by
    intro g
    simp only [queue, submitted, Dict.getD, Dict.get?_insert]
    split
    · rename_i hg
      subst hg
      rfl
    · rfl
  exact
  { h with
    submitted_nodup := by
      rw [submittedIds_submitted]
      exact List.nodup_append'.mpr ⟨h.submitted_nodup, List.nodup_singleton _, by simpa using fresh⟩
    stored_submitted := fun r hr => by
      rw [submittedIds_submitted]
      exact List.mem_append_left _ (h.stored_submitted r hr)
    future_open := fun r i hi => by
      simp only [runFutures_submitted, Dict.get?_insert] at hi
      split at hi
      · rename_i hr
        exact hr ▸ hown
      · exact hopen (h.future_open r i hi)
    request_open := fun r q hq => by
      simp only [runRequests_submitted, Dict.get?_insert] at hq
      split at hq
      · rename_i hr
        exact hr ▸ hown
      · exact hopen (h.request_open r q hq)
    queued := fun g entry hentry => by
      rw [hqueue] at hentry
      have hold (hin : entry ∈ c.queue g) : entry ∈ (c.submitted runId request).history.submitted ∧
          entry.2.groupFolder = g ∧ entry.1 ∉ c.taskIds := by
        obtain ⟨hlisted, hg, hidle⟩ := h.queued g entry hin
        exact ⟨List.mem_append_left _ hlisted, hg, hidle⟩
      split at hentry
      · rename_i hg
        rcases List.mem_append.mp hentry with hentry | hentry
        · exact hold hentry
        · obtain rfl := List.mem_singleton.mp hentry
          exact ⟨List.mem_append_right _ (List.mem_singleton_self _), hg.symm, htask⟩
      · exact hold hentry
    queue_nodup := fun g => by
      rw [hqueue]
      split
      · rw [List.map_append]
        refine List.nodup_append'.mpr ⟨h.queue_nodup g, List.nodup_singleton _, ?_⟩
        rw [List.map_singleton, List.disjoint_singleton]
        rintro hin
        obtain ⟨entry, hentry, hr⟩ := List.mem_map.mp hin
        exact fresh (List.mem_map.mpr ⟨entry, (h.queued g entry hentry).1, hr⟩)
      · exact h.queue_nodup g
    task_submitted := fun r hr => by
      rw [submittedIds_submitted]
      exact List.mem_append_left _ (h.task_submitted r hr)
    status := fun task e he hr => by
      have hne : e.runId ≠ runId := fun heq => htask (heq ▸ mem_taskIds he)
      simp only [statuses_submitted, Dict.get?_insert, if_neg hne]
      exact h.status task e he hr }

theorem Threads.spawn (h : Threads c) (groupFolder : String) :
    Threads (c.ensureWorker groupFolder) := by
  rcases ensureWorker_cases groupFolder c with ⟨heq, -⟩ | ⟨heq, -⟩
  · rwa [heq]
  · rw [heq]
    exact
    { h with
      awaits := fun worker g r q task ha => by
        simp only [Awaits, spawned, Heap.get?_alloc] at ha
        split at ha
        · cases ha
        · exact h.awaits worker g r q task ha }

theorem Threads.cancelQueued (h : Threads c) {request : ExecutionRequest}
    (hstatus : c.statuses.get? r = some .queued) (hrequest : c.runRequests.get? r = some request) :
    Threads (c.cancelQueued cfg r request) := by
  have hopen := h.request_open r request hrequest
  -- A run with a task is running.
  have hidle : ∀ task e, c.executions.get? task = some e → e.runId ≠ r := by
    rintro task e he rfl
    have hrunning := h.status task e he hopen.2
    rw [hstatus] at hrunning
    cases hrunning
  have hcalls : c.callsOf r = [] := by
    refine h.callsOf_eq_nil fun hr => ?_
    obtain ⟨e, he, hown⟩ := List.mem_map.mp hr
    obtain ⟨task, he⟩ := List.getElem?_of_mem he
    exact hidle task e he hown
  unfold Coordinator.cancelQueued peekSessionId
  obtain ⟨sessionId, store, hpeek⟩ := resolveSessionId_eq cfg request
    (safeSelectBackendName cfg request) none c
  simp only [hpeek]
  obtain ⟨k, hk⟩ := storeTerminalResult_eq cfg
    { runId := r
      groupFolder := request.groupFolder
      backend := safeSelectBackendName cfg request
      sessionId
      slotId := request.slotId
      status := .cancelled }
    { c with draws := c.draws + 1, workspaceSessionStore := store }
  rw [hk]
  have hpeeked : Threads { c with draws := c.draws + 1, workspaceSessionStore := store } :=
    { h with }
  have hclosed := hpeeked.store k hopen.1 (fun task e he hr => absurd hr (hidle task e he))
    fun call hcall => by
      have hlast : call ∈ (c.callsOf r).getLast? := hcall
      rw [hcalls] at hlast
      cases hlast
  exact { hclosed with }

/-- The same where the status was set just before. -/
theorem Threads.storeCancelled (h : Threads c) (cfg : Config) (result : ExecutionResult)
    (status : ExecutionStatus) (hsubmitted : result.runId ∈ c.submittedIds)
    (hflagged : ∀ task e, c.executions.get? task = some e → e.runId = result.runId →
      ¬ e.IsDone → e.cancelRequested = true)
    (hlast : LastSession (c.callsOf result.runId) result.sessionId) :
    Threads ({ c with statuses := c.statuses.insert result.runId status }.storeTerminalResult cfg
      result) := by
  obtain ⟨k, hk⟩ := storeTerminalResult_eq cfg result
    { c with statuses := c.statuses.insert result.runId status }
  rw [hk]
  exact { h.store (Closing.ofInsert rfl k) hsubmitted hflagged hlast with }

/-- Once a run is cancelled, a task of it that goes on has been told to stop. -/
theorem Threads.flagged_of_undone (h : Threads c)
    (he : (c.cancelExecution r).get? task = some e) (hrun : e.runId = r) (hdone : ¬ e.IsDone) :
    e.cancelRequested = true := by
  have hcancel (before : Execution) (hundone : ¬ before.cancel.IsDone) :
      before.cancel.cancelRequested = true := by
    unfold Execution.cancel at hundone ⊢
    split
    · rename_i outcome hphase
      simp only [hphase] at hundone
      exact absurd ⟨outcome, hphase⟩ hundone
    · rfl
  obtain ⟨before, hbefore, hsame | ⟨rfl, -⟩⟩ := get?_cancelExecution he
  · subst hsame
    -- The task is the one the map of running tasks names, so the flag was set.
    have hrunning := h.running task e hbefore hdone
    rw [hrun] at hrunning
    simp only [cancelExecution, hrunning, Heap.get?_modify, if_pos, hbefore, Option.map_some]
      at he
    rw [← Option.some.inj he] at hdone ⊢
    exact hcancel e hdone
  · exact hcancel before hdone

theorem Threads.cancelRunning (h : Threads c) {request : ExecutionRequest}
    (hrequest : c.runRequests.get? r = some request) :
    Threads (c.cancelRunning cfg r request).2 := by
  have hopen := h.request_open r request hrequest
  unfold Coordinator.cancelRunning peekSessionId
  obtain ⟨peeked, store, hpeek⟩ := resolveSessionId_eq cfg request
    (safeSelectBackendName cfg request) none c
  simp only [hpeek]
  split
  · exact { h with }
  · -- A running run has a session id, so that the previewed one is not used.
    rename_i backend hbackend
    obtain ⟨sessionId, hsession⟩ := Option.isSome_iff_exists.mp
      (h.sessions r (Option.isSome_iff_exists.mpr ⟨backend, hbackend⟩))
    have hused : c.runSessionIds.getD r peeked = sessionId := by
      rw [Dict.getD, hsession, Option.getD_some]
    rw [hused]
    have hflagged : Threads { c with
        draws := c.draws + 1
        workspaceSessionStore := store
        cancelledRunIds := c.cancelledRunIds.insert r
        executions := c.cancelExecution r } := { h.flag r (c.cancelledRunIds.insert r) with }
    have hlast : LastSession (c.callsOf r) sessionId := by
      intro call hcall
      have hmem : r ∈ c.taskIds := by
        by_contra hnot
        rw [h.callsOf_eq_nil hnot] at hcall
        cases hcall
      obtain ⟨e, he, rfl⟩ := List.mem_map.mp hmem
      obtain ⟨task, he⟩ := List.getElem?_of_mem he
      exact (h.current task e sessionId he hsession).2 call hcall
    have hclosed := hflagged.storeCancelled cfg
      { runId := r
        groupFolder := request.groupFolder
        backend := safeSelectBackendName cfg request
        sessionId
        slotId := request.slotId
        status := .cancelled } .cancelled hopen.1
      (fun task e he hrun hdone => h.flagged_of_undone he hrun hdone) hlast
    exact { hclosed with }

theorem Threads.cancel (h : Threads c) (cfg : Config) (r : String) :
    Threads (c.cancel cfg r).2 := by
  unfold Coordinator.cancel
  split
  · rename_i hstatus
    split
    · exact h
    · exact h.cancelQueued hstatus ‹_›
  · split
    · exact h
    · exact h.cancelRunning ‹_›
  · exact h

/-! ## The worker -/

/-- A worker that changes to a phase in which it awaits nothing. -/
theorem Threads.setPhase (h : Threads c) (worker : ℕ) {phase : WorkerPhase}
    (hphase : ∀ r q task, phase ≠ .awaiting r q task) :
    Threads (c.setWorkerPhase worker phase) :=
  { h with
    awaits := fun other g r q task ha => by
      simp only [Awaits, setWorkerPhase, Heap.get?_modify] at ha
      split at ha
      · obtain ⟨w, -, hw⟩ := Option.map_eq_some_iff.mp ha
        exact absurd (congrArg Worker.phase hw) (hphase r q task)
      · exact h.awaits other g r q task ha }

/-- The head of a deque is dropped. -/
theorem Threads.pop (h : Threads c) {groupFolder : String}
    {entry : String × ExecutionRequest} {rest : List (String × ExecutionRequest)}
    (hqueue : c.queue groupFolder = entry :: rest) : Threads (c.popped groupFolder rest) := by
  have hpopped : ∀ g, (c.popped groupFolder rest).queue g =
      if g = groupFolder then rest else c.queue g := by
    intro g
    simp only [queue, popped, Dict.getD, Dict.get?_insert]
    split
    · rfl
    · rfl
  exact
  { h with
    queued := fun g other hother => by
      rw [hpopped] at hother
      split at hother
      · rename_i hg
        subst hg
        exact h.queued g other (hqueue ▸ List.mem_cons_of_mem _ hother)
      · exact h.queued g other hother
    queue_nodup := fun g => by
      rw [hpopped]
      split
      · have hnodup := h.queue_nodup groupFolder
        rw [hqueue, List.map_cons] at hnodup
        exact hnodup.of_cons
      · exact h.queue_nodup g }

/-- A run that is still wanted is open. -/
theorem Threads.open_of_wanted (h : Threads c) (hwanted : c.wanted r = true) : c.Open r := by
  unfold wanted at hwanted
  split at hwanted
  · cases hwanted
  · exact h.future_open r _ ‹_›

/-- A worker stores the failed result that stands for a run. -/
theorem Threads.fail (h : Threads c) (cfg : Config) {request : ExecutionRequest}
    {backend slotId error : String} (hsubmitted : r ∈ c.submittedIds)
    (hdone : ∀ task e, c.executions.get? task = some e → e.runId = r → e.IsDone)
    (hlast : LastSession (c.callsOf r) (c.peekSessionId cfg request backend).1) :
    Threads (c.failBeforeStart cfg r request backend slotId error) := by
  unfold failBeforeStart peekSessionId at *
  obtain ⟨sessionId, store, hpeek⟩ := resolveSessionId_eq cfg request backend none c
  simp only [hpeek] at hlast ⊢
  obtain ⟨k, hk⟩ := storeTerminalResult_eq cfg
    { runId := r
      groupFolder := request.groupFolder
      backend
      sessionId
      slotId
      status := .failed
      error := some error }
    { c with draws := c.draws + 1, workspaceSessionStore := store }
  rw [hk]
  have hpeeked : Threads { c with draws := c.draws + 1, workspaceSessionStore := store } :=
    { h with }
  exact hpeeked.store k hsubmitted
    (fun task e he hrun hundone => absurd (hdone task e he hrun) hundone) hlast

/-- The entries that stay in the queues are of other runs. -/
theorem Threads.ne_of_mem_popped (h : Threads c) {groupFolder g : String}
    {request : ExecutionRequest} {rest : List (String × ExecutionRequest)}
    {entry : String × ExecutionRequest} (head : c.AtHead worker groupFolder r request rest)
    (hentry : entry ∈ (c.popped groupFolder rest).queue g) : entry.1 ≠ r := by
  obtain ⟨hlisted, hfolder, -⟩ := h.queued groupFolder (r, request)
    (head.queue ▸ List.mem_cons_self ..)
  obtain ⟨hlisted', hfolder', -⟩ := (h.pop head.queue).queued g _ hentry
  intro hrun
  -- A run was submitted once, to one group.
  have hsame : entry = (r, request) :=
    List.inj_on_of_nodup_map h.submitted_nodup hlisted' hlisted hrun
  subst hsame
  obtain rfl : groupFolder = g := hfolder.symm.trans hfolder'
  have hrest : (c.popped groupFolder rest).queue groupFolder = rest := by
    simp [queue, popped, Dict.getD]
  have hnodup := h.queue_nodup groupFolder
  rw [head.queue, List.map_cons] at hnodup
  rw [hrest] at hentry
  exact (List.nodup_cons.mp hnodup).1 (List.mem_map_of_mem hentry)

/-- A run is launched: it is the first task of the run. -/
theorem Threads.launch (h : Threads c) {groupFolder : String} {request : ExecutionRequest}
    {rest : List (String × ExecutionRequest)} (backendName : String)
    (head : c.AtHead worker groupFolder r request rest) (hwanted : c.wanted r = true) :
    Threads (((c.popped groupFolder rest).launch cfg r request backendName).setWorkerPhase worker
      (.awaiting r request c.executions.size)) := by
  obtain ⟨-, -, hidle⟩ := h.queued groupFolder (r, request) (head.queue ▸ List.mem_cons_self ..)
  have hopen := h.open_of_wanted hwanted
  have hpopped := h.pop head.queue
  obtain ⟨store, snapshots, sessionId, hlaunch⟩ := launch_eq cfg r request backendName
    (c.popped groupFolder rest)
  rw [hlaunch]
  have hothers : ∀ g, ∀ entry ∈ (c.popped groupFolder rest).queue g, entry.1 ≠ r :=
    fun g entry hentry => h.ne_of_mem_popped head hentry
  -- Each task is the new one, or an old one of another run.
  have hget : ∀ {task e}, (c.executions.alloc
      { request, runId := r, backendName, workspaceKey := workspaceKey cfg request,
        sessionId }).get? task = some e →
      (e.runId = r ∧ e.sessionId = sessionId ∧ e.phase = .created ∧ task = c.executions.size) ∨
        (c.executions.get? task = some e ∧ e.runId ≠ r) := by
    intro task e he
    rcases Heap.get?_alloc_cases he with ⟨htask, rfl⟩ | he
    · exact .inl ⟨rfl, rfl, rfl, htask⟩
    · exact .inr ⟨he, fun hrun => hidle (hrun ▸ mem_taskIds he)⟩
  have hids : (c.executions.alloc
      { request, runId := r, backendName, workspaceKey := workspaceKey cfg request,
        sessionId }).cells.map Execution.runId = c.taskIds ++ [r] := by
    simp [Heap.alloc, taskIds]
  have hmem_ids : ∀ other, other ∈ (c.executions.alloc
      { request, runId := r, backendName, workspaceKey := workspaceKey cfg request,
        sessionId }).cells.map Execution.runId ↔ other ∈ c.taskIds ∨ other = r := by
    intro other
    rw [hids, List.mem_append, List.mem_singleton]
  have hnone : c.callsOf r = [] := h.callsOf_eq_nil hidle
  exact
  { hpopped with
    queued := fun g entry hentry => by
      obtain ⟨hin, hg, hold⟩ := hpopped.queued g entry hentry
      refine ⟨hin, hg, fun hmem => ?_⟩
      rcases (hmem_ids entry.1).mp hmem with hmem | hmem
      · exact hold hmem
      · -- An entry that waits is of another run than the one that was popped.
        exact hothers g entry hentry hmem
    task_nodup := (congrArg List.Nodup hids).mpr
      (List.nodup_append'.mpr ⟨h.task_nodup, List.nodup_singleton _, by simpa using hidle⟩)
    task_submitted := fun other hmem => by
      rcases (hmem_ids other).mp hmem with hmem | hmem
      · exact h.task_submitted other hmem
      · exact hmem ▸ hopen.1
    awaits := fun other g r' q task ha => by
      simp only [Awaits, setWorkerPhase, Heap.get?_modify] at ha
      split at ha
      · obtain ⟨w, -, hw⟩ := Option.map_eq_some_iff.mp ha
        obtain ⟨rfl, rfl, rfl⟩ := WorkerPhase.awaiting.inj (congrArg Worker.phase hw)
        exact ⟨_, (Heap.get?_alloc ..).trans (if_pos rfl), rfl⟩
      · obtain ⟨e, he, hrun⟩ := h.awaits other g r' q task ha
        refine ⟨e, ?_, hrun⟩
        exact (Heap.get?_alloc ..).trans
          ((if_neg (Nat.ne_of_lt (Heap.lt_size_of_get? he))).trans he)
    running := fun task e he hdone => by
      simp only [setWorkerPhase, Dict.get?_insert]
      rcases hget he with ⟨hrun, -, -, rfl⟩ | ⟨hold, hne⟩
      · rw [if_pos hrun]
        rfl
      · rw [if_neg hne]
        exact h.running task e hold hdone
    status := fun task e he hr => by
      simp only [setWorkerPhase, Dict.get?_insert]
      rcases hget he with ⟨hrun, -⟩ | ⟨hold, hne⟩
      · rw [if_pos hrun]
      · rw [if_neg hne]
        exact h.status task e hold hr
    unflagged := fun task e he hdone hflag => by
      rcases hget he with ⟨hrun, -⟩ | ⟨hold, -⟩
      · exact hrun ▸ hopen.2
      · exact h.unflagged task e hold hdone hflag
    sessions := fun other hr => by
      simp only [setWorkerPhase, Dict.get?_insert] at hr ⊢
      split at hr
      · rename_i heq
        rw [if_pos heq]
        rfl
      · rename_i hne
        rw [if_neg hne]
        exact h.sessions other hr
    current := fun task e used he hs => by
      simp only [setWorkerPhase, Dict.get?_insert] at hs
      rcases hget he with ⟨hrun, hsession, -⟩ | ⟨hold, hne⟩
      · rw [if_pos hrun] at hs
        obtain rfl := Option.some.inj hs
        -- There is no call yet that could have another session id.
        refine ⟨fun _ => hsession.symm, fun call hcall => ?_⟩
        have hnil : call ∈ (c.callsOf r).getLast? := hrun ▸ hcall
        rw [hnone] at hnil
        cases hnil
      · rw [if_neg hne] at hs
        exact h.current task e used hold hs
    traced := fun task e he => by
      rcases hget he with ⟨hrun, -, hphase, -⟩ | ⟨hold, -⟩
      · have hcalls : callsOf (((c.popped groupFolder rest).launch cfg r request
            backendName).setWorkerPhase worker (.awaiting r request c.executions.size)) e.runId =
            [] := by
          rw [hlaunch, hrun]
          exact hnone
        rw [hlaunch] at hcalls
        rw [hcalls, hphase]
        exact .created
      · exact h.traced task e hold
    called := fun call hcall => (hmem_ids call.runId).mpr (.inl (h.called call hcall)) }

/-- The run that a worker awaits is over for its task. -/
theorem Threads.done_of_resumes (h : Threads c) {groupFolder : String}
    {request : ExecutionRequest} {outcome : Outcome}
    (resumes : c.Resumes worker groupFolder r request task e outcome) :
    e.runId = r ∧ ∀ other e', c.executions.get? other = some e' → e'.runId = r → e'.IsDone := by
  obtain ⟨awaited, hawaited, hrun⟩ := h.awaits _ _ _ _ _ resumes.awaits
  obtain rfl := Option.some.inj (resumes.awaited.symm.trans hawaited)
  refine ⟨hrun, fun other e' he' hr => ?_⟩
  obtain ⟨-, rfl⟩ := h.task_unique resumes.awaited he' (hrun.trans hr.symm)
  exact ⟨outcome, resumes.done⟩

/-- A worker resumes from the end of a task, and forgets it. -/
theorem Threads.resume (h : Threads c) (worker : ℕ)
    (hdone : ∀ other e', c.executions.get? other = some e' → e'.runId = r → e'.IsDone)
    (phase : WorkerPhase) (hphase : ∀ r q task, phase ≠ .awaiting r q task) :
    Threads ((c.setWorkerPhase worker phase).forgetRunning r) :=
  { h.setPhase worker hphase with
    running := fun other e' he' hundone => by
      have hne : e'.runId ≠ r := fun hrun => hundone (hdone other e' he' hrun)
      simp only [forgetRunning, setWorkerPhase, Dict.get?_erase, if_neg hne]
      exact h.running other e' he' hundone
    sessions := fun other hother => by
      simp only [forgetRunning, setWorkerPhase, Dict.get?_erase] at hother ⊢
      split at hother
      · cases hother
      · rename_i hne
        rw [if_neg hne]
        exact h.sessions other hother
    current := fun other e' sessionId he' hs => by
      simp only [forgetRunning, setWorkerPhase, Dict.get?_erase] at hs
      split at hs
      · cases hs
      · exact h.current other e' sessionId he' hs }

/-- Whatever the worker would file under the previewed session id, its run was last called
with. -/
def RaisesInSession (c : Coordinator) (cfg : Config) (worker : ℕ) : Prop :=
  ∀ groupFolder runId request task execution message,
    c.Resumes worker groupFolder runId request task execution (.raised message) →
      LastSession (c.callsOf runId)
        (c.peekSessionId cfg request (safeSelectBackendName cfg request)).1

instance (c : Coordinator) (cfg : Config) : DecidablePred (c.RaisesInSession cfg) := fun worker =>
  decidable_of_iff (∀ w ∈ c.workers.get? worker, ∀ run ∈ w.phase.awaited,
    ∀ execution ∈ c.executions.get? run.2.2, execution.raises = true →
      LastSession (c.callsOf run.1)
        (c.peekSessionId cfg run.2.1 (safeSelectBackendName cfg run.2.1)).1) <| by
    constructor
    · intro h groupFolder runId request task execution message resumes
      exact h _ resumes.awaits (runId, request, task) rfl execution resumes.awaited
        (Execution.raises_iff.mpr ⟨message, resumes.done⟩)
    · intro h w hw run hrun execution he hraises
      obtain ⟨message, hdone⟩ := Execution.raises_iff.mp hraises
      refine h w.groupFolder run.1 run.2.1 run.2.2 execution message ⟨?_, he, hdone⟩
      obtain ⟨groupFolder, phase⟩ := w
      obtain rfl := WorkerPhase.awaited_eq_some.mp hrun
      exact hw

theorem peekSessionId_congr {request : ExecutionRequest} {backend : String}
    (hstore : c'.workspaceSessionStore = c.workspaceSessionStore) (hdraws : c'.draws = c.draws) :
    (c'.peekSessionId cfg request backend).1 = (c.peekSessionId cfg request backend).1 := by
  unfold peekSessionId resolveSessionId
  rw [hstore, hdraws]
  split
  · rfl
  · simp only
    split <;> rfl

theorem Threads.stride (h : Threads c) (hraised : c.RaisesInSession cfg worker)
    (s : Stride cfg worker c c') : Threads c' := by
  have hactive : ∀ r q task, WorkerPhase.active ≠ .awaiting r q task := by simp
  cases s with
  | wake scheduled => exact h.setPhase worker hactive
  | skip head unwanted => exact h.pop head.queue
  | @reject groupFolder runId request rest backend slotId error head wanted rejected =>
    obtain ⟨-, -, hidle⟩ := h.queued groupFolder (runId, request)
      (head.queue ▸ List.mem_cons_self ..)
    -- The run has no task, and so no call that the previewed session id could differ from.
    refine (h.pop head.queue).fail cfg (h.open_of_wanted wanted).1
      (fun task e he hrun => absurd (hrun ▸ mem_taskIds he) hidle) fun call hcall => ?_
    have hlast : call ∈ (c.callsOf runId).getLast? := hcall
    rw [h.callsOf_eq_nil hidle] at hlast
    cases hlast
  | launch head wanted selected known => exact h.launch _ head wanted
  | finish active queue =>
    have hfinished : Threads (c.setWorkerPhase worker .finished) := h.setPhase worker (by simp)
    exact { hfinished with }
  | @collectCancelled groupFolder runId request task execution outcome resumes handled cancelled =>
    have hresumed := h.resume worker (h.done_of_resumes resumes).2 .active hactive
    exact { hresumed with }
  | @collectResult groupFolder runId request task execution result resumes kept =>
    obtain ⟨hrun, hdone⟩ := h.done_of_resumes resumes
    obtain ⟨hresult, hlast⟩ := (resumes.done ▸ h.traced task execution resumes.awaited).returned
    obtain ⟨k, hk⟩ := storeTerminalResult_eq cfg result (c.resumed worker runId)
    rw [hk]
    refine (h.resume worker hdone .active hactive).store k ?_ ?_ ?_
    · rw [hresult]
      exact h.task_submitted _ (mem_taskIds resumes.awaited)
    · intro other e' he' hr hundone
      exact absurd (hdone other e' he' (hr.trans (hresult.trans hrun))) hundone
    · rw [hresult]
      exact hlast
  | @collectRaised groupFolder runId request task execution message resumes =>
    obtain ⟨hrun, hdone⟩ := h.done_of_resumes resumes
    refine (h.resume worker hdone .active hactive).fail cfg ?_ hdone ?_
    · exact h.task_submitted _ (hrun ▸ mem_taskIds resumes.awaited)
    · -- The preview is the one that was asked for before the worker resumed.
      have hpeek : (peekSessionId cfg request (safeSelectBackendName cfg request)
          ((c.setWorkerPhase worker .active).forgetRunning runId)).1 =
          (c.peekSessionId cfg request (safeSelectBackendName cfg request)).1 :=
        peekSessionId_congr rfl rfl
      rw [hpeek]
      exact hraised groupFolder runId request task execution message resumes
  | @crash groupFolder runId request task execution resumes kept =>
    exact h.resume worker (h.done_of_resumes resumes).2 .crashed (by simp)

/-- After a stride the worker awaits no task that has ended. -/
theorem Stride.raisesInSession (s : Stride cfg worker c c') : c'.RaisesInSession cfg worker := by
  intro g r q task e message hresumes
  have hawaits := hresumes.awaits
  unfold Awaits at hawaits
  have hphase {w : Worker} {phase : WorkerPhase} (hw : c.workers.get? worker = some w)
      (hset : c'.workers = c.workers.modify worker fun w => { w with phase }) :
      phase = .awaiting r q task := by
    rw [hset, Heap.get?_modify, if_pos rfl, hw, Option.map_some] at hawaits
    exact congrArg Worker.phase (Option.some.inj hawaits)
  have hsame (hset : c'.workers = c.workers) {folder : String}
      (hw : c.workers.get? worker = some { groupFolder := folder, phase := .active }) : False := by
    rw [hset, hw] at hawaits
    cases congrArg Worker.phase (Option.some.inj hawaits)
  cases s with
  | wake scheduled => cases hphase scheduled rfl
  | skip head unwanted => exact (hsame rfl head.active).elim
  | reject head wanted rejected =>
    exact (hsame (frame_failBeforeStart _ _ _ _ _ _ _).1 head.active).elim
  | @launch groupFolder runId request rest backendName head wanted selected known =>
    -- The task that the worker awaits is a new one.
    obtain ⟨store, snapshots, sessionId, hlaunch⟩ := launch_eq cfg runId request backendName
      (c.popped groupFolder rest)
    obtain ⟨-, -, rfl⟩ := WorkerPhase.awaiting.inj (hphase head.active (by rw [hlaunch]; rfl))
    have hnew := hresumes.awaited
    rw [hlaunch] at hnew
    simp only [setWorkerPhase, popped, Heap.get?_alloc, if_pos] at hnew
    obtain rfl := Option.some.inj hnew
    cases hresumes.done
  | finish active queue => cases hphase active rfl
  | collectCancelled resumes handled cancelled => cases hphase resumes.awaits rfl
  | @collectResult groupFolder runId request task execution result resumes kept =>
    obtain ⟨k, hk⟩ := storeTerminalResult_eq cfg result (c.resumed worker runId)
    cases hphase resumes.awaits (by rw [hk]; rfl)
  | collectRaised resumes =>
    cases hphase resumes.awaits (frame_failBeforeStart _ _ _ _ _ _ _).1
  | crash resumes kept => cases hphase resumes.awaits rfl

theorem Threads.strides (h : Threads c) (hraised : c.RaisesInSession cfg worker)
    (s : Strides cfg worker c c') : Threads c' := by
  have hboth : Threads c' ∧ c'.RaisesInSession cfg worker := by
    induction s with
    | refl => exact ⟨h, hraised⟩
    | tail _ s ih => exact ⟨ih.1.stride ih.2 s, s.raisesInSession⟩
  exact hboth.1

/-! ## The execution tasks -/

/-- A task ends, without another call. -/
theorem Threads.endTask (h : Threads c) {outcome : Outcome}
    (he : c.executions.get? task = some e) (hin : e.InFlight)
    (hreturns : ∀ result, outcome = .returned result →
      result.runId = e.runId ∧ LastSession (c.callsOf e.runId) result.sessionId) :
    Threads (c.setExecutionPhase task (.done outcome)) :=
  h.turn
    { executions := rfl
      found := he
      undone := hin.undone
      traced := (h.traced task e he).ends hin hreturns
      others := fun _ _ => rfl
      called := fun _ hcall => .inl hcall
      kept := .inl rfl
      sessionIds := fun _ _ => rfl
      sessions := id
      current := fun s hs => h.current task e s he hs
      listing := ⟨rfl, rfl, rfl, rfl, rfl, rfl, rfl, rfl, rfl, rfl⟩ }

/-- A task calls the backend. -/
theorem Threads.call (h : Threads c) (call : BackendCall) {calls : List BackendCall}
    {phase : ExecutionPhase} (he : c.executions.get? task = some e) (hundone : ¬ e.IsDone)
    (hflag : e.cancelRequested = false) (hrun : call.runId = e.runId)
    (hcalls : c.callsOf e.runId = calls) (htraced : Traced e phase (calls ++ [call]))
    (hexec : c'.executions = c.executions.modify task fun e => { e with phase })
    (happend : c'.history.calls = c.history.calls ++ [call])
    (hsessions : ∀ r, r ≠ e.runId → c'.runSessionIds.get? r = c.runSessionIds.get? r)
    (hkept : (c.runSessionIds.get? e.runId).isSome = true →
      (c'.runSessionIds.get? e.runId).isSome = true)
    (hcurrent : ∀ s, c'.runSessionIds.get? e.runId = some s → call.sessionId = s)
    (hlisting : c'.history.submitted = c.history.submitted ∧
      c'.history.stored = c.history.stored ∧ c'.completedOrder = c.completedOrder ∧
      c'.runFutures = c.runFutures ∧ c'.runRequests = c.runRequests ∧
      c'.groupQueues = c.groupQueues ∧ c'.workers = c.workers ∧
      c'.runningTasks = c.runningTasks ∧ c'.runningBackends = c.runningBackends ∧
      c'.statuses = c.statuses) : Threads c' := by
  have hown : c'.callsOf e.runId = calls ++ [call] := by
    rw [callsOf_append happend, if_pos hrun, hcalls]
  exact h.turn
    { executions := hexec
      found := he
      undone := hundone
      traced := hown ▸ htraced
      others := fun r hr => by
        rw [callsOf_append happend, if_neg]
        rw [hrun]
        exact hr.symm
      called := fun other hother => by
        rw [happend] at hother
        rcases List.mem_append.mp hother with hother | hother
        · exact .inl hother
        · exact .inr (List.mem_singleton.mp hother ▸ hrun)
      kept := .inr (h.unflagged task e he hundone hflag)
      sessionIds := hsessions
      sessions := hkept
      current := fun s hs => by
        rw [hown]
        refine ⟨fun hnil => absurd hnil (by simp), fun last hlast => ?_⟩
        rw [List.getLast?_concat] at hlast
        obtain rfl := Option.some.inj hlast
        exact hcurrent s hs
      listing := hlisting }

theorem Threads.start (h : Threads c) (he : c.executions.get? task = some e)
    (hstarts : Starts c task e c') : Threads c' := by
  have hcreated : e.phase = .created := by
    cases hstarts with
    | drop created | call created => exact created
  have hnone : c.callsOf e.runId = [] := by
    have htraced := h.traced task e he
    rw [hcreated] at htraced
    generalize c.callsOf e.runId = calls at htraced
    cases htraced
    rfl
  have hundone : ¬ e.IsDone := by
    rintro ⟨outcome, hdone⟩
    rw [hcreated] at hdone
    cases hdone
  cases hstarts with
  | drop =>
    exact h.turn
      { executions := rfl
        found := he
        undone := hundone
        traced := hnone.symm ▸ .dropped
        others := fun _ _ => rfl
        called := fun _ hcall => .inl hcall
        kept := .inl rfl
        sessionIds := fun _ _ => rfl
        sessions := id
        current := fun s hs => h.current task e s he hs
        listing := ⟨rfl, rfl, rfl, rfl, rfl, rfl, rfl, rfl, rfl, rfl⟩ }
  | call created kept =>
    refine h.call (firstCall e) he hundone kept rfl hnone .executing rfl rfl (fun _ _ => rfl) id
      (fun s hs => ?_) ⟨rfl, rfl, rfl, rfl, rfl, rfl, rfl, rfl, rfl, rfl⟩
    exact ((h.current task e s he hs).1 hnone).symm

/-- The run is retried after a failed session resume, without a result of its own yet. -/
theorem Threads.retry (h : Threads c) (he : c.executions.get? task = some e)
    (hphase : e.phase = .executing) (hflag : e.cancelRequested = false) (reason : String) :
    Threads (c.retryExecution cfg task e reason) := by
  obtain ⟨sessionId, store, snapshots, heq⟩ := retryExecution_eq cfg task e reason c
  rw [heq]
  have hcalls : c.callsOf e.runId = [firstCall e] := by
    have htraced := h.traced task e he
    rw [hphase] at htraced
    generalize c.callsOf e.runId = calls at htraced
    cases htraced
    rfl
  have hundone : ¬ e.IsDone := Execution.InFlight.undone (.inl hphase)
  refine h.call (retryCall e sessionId) he hundone hflag rfl hcalls (.retrying sessionId) rfl rfl
    (fun r hr => ?_) (fun _ => ?_) (fun s hs => ?_)
    ⟨rfl, rfl, rfl, rfl, rfl, rfl, rfl, rfl, rfl, rfl⟩
  · simp [setExecutionPhase, recordCall, hr]
  · simp [setExecutionPhase, recordCall]
  · simpa [setExecutionPhase, recordCall, retryCall] using hs

/-! ## Every action -/

/-- Every submission has a run id of its own. -/
def Distinct (c : Coordinator) : Action → Prop
  | .submit request uuid => runIdOf request uuid ∉ c.submittedIds
  | _ => True

instance (c : Coordinator) : DecidablePred c.Distinct
  | .submit request uuid => inferInstanceAs (Decidable (runIdOf request uuid ∉ c.submittedIds))
  | .cancel _ | .worker _ | .execution _ | .backendEnds _ _ | .wait _ | .waiter _
  | .cancelWaiter _ | .tick => inferInstanceAs (Decidable True)

/-- The answer settles the run of its task: a run that was cancelled is not retried, and an
`ExecutionResult` of the backend's own is one of the run, under the session id of its call. -/
def SettlesTask (c : Coordinator) (e : Execution) : Ending → Prop
  | .runtimeError sessionResumeFailed _ => e.phase = .executing →
    shouldRetrySessionResume e sessionResumeFailed = true → e.cancelRequested = false
  | .executionResult result =>
    result.runId = e.runId ∧ LastSession (c.callsOf e.runId) result.sessionId
  | _ => True

/-- No cancelled run is retried, no backend answers with a result of another run or session, and
no run whose backend answered with a value that is no result is filed under another session id
than the one it was called with. -/
def Settles (cfg : Config) (c : Coordinator) : Action → Prop
  | .backendEnds task ending => ∀ e ∈ c.executions.get? task, c.SettlesTask e ending
  | .worker worker => c.RaisesInSession cfg worker
  | _ => True

/-- A result of the coordinator's own making names the run and the session id of the call. -/
theorem runBackendWithTimeout_own {ending : Ending} {result : ExecutionResult}
    (hrun : runBackendWithTimeout e s ending = .ok result) :
    ending = .executionResult result ∨ (result.runId = e.runId ∧ result.sessionId = s) := by
  cases ending with
  | executionResult result' =>
    obtain rfl := Except.ok.inj hrun
    exact .inl rfl
  | dict _ | timeoutError | exception _ =>
    obtain rfl := Except.ok.inj hrun
    exact .inr ⟨rfl, rfl⟩
  | runtimeError _ _ | cancelledError | malformed _ => cases hrun

theorem Threads.finish (h : Threads c) (he : c.executions.get? task = some e) (hin : e.InFlight)
    {result : ExecutionResult} (hrun : result.runId = e.runId)
    (hlast : LastSession (c.callsOf e.runId) result.sessionId) :
    Threads (c.finishExecution task e result) := by
  have hreturns : ∀ other, Outcome.returned result = .returned other →
      other.runId = e.runId ∧ LastSession (c.callsOf e.runId) other.sessionId := by
    rintro other ⟨⟩
    exact ⟨hrun, hlast⟩
  unfold finishExecution
  split
  · have hcommitted : Threads
        { c with
          workspaceSessionStore := c.workspaceSessionStore.commitSuccess e.workspaceKey
            e.backendName result.sessionId
          history := { c.history with committed := c.history.committed ++ [e.runId] } } :=
      { h with }
    exact hcommitted.endTask he hin hreturns
  · exact h.endTask he hin hreturns

/-- The session id of the call that a task awaits. -/
theorem Threads.last_of_inFlight (h : Threads c) (he : c.executions.get? task = some e)
    (hs : e.CalledWith s) : LastSession (c.callsOf e.runId) s := by
  have htraced := h.traced task e he
  generalize c.callsOf e.runId = calls at htraced
  rcases hs with ⟨hphase, rfl⟩ | hphase
  · rw [hphase] at htraced
    cases htraced
    rintro call ⟨⟩
    rfl
  · rw [hphase] at htraced
    cases htraced
    rintro call ⟨⟩
    rfl

instance (c : Coordinator) (e : Execution) : DecidablePred (c.SettlesTask e)
  | .runtimeError sessionResumeFailed _ =>
    inferInstanceAs (Decidable (e.phase = .executing →
      shouldRetrySessionResume e sessionResumeFailed = true → e.cancelRequested = false))
  | .executionResult result =>
    inferInstanceAs (Decidable (result.runId = e.runId ∧
      LastSession (c.callsOf e.runId) result.sessionId))
  | .dict _ | .timeoutError | .exception _ | .cancelledError | .malformed _ =>
    inferInstanceAs (Decidable True)

instance (cfg : Config) (c : Coordinator) : DecidablePred (Settles cfg c)
  | .backendEnds task ending =>
    inferInstanceAs (Decidable (∀ e ∈ c.executions.get? task, c.SettlesTask e ending))
  | .worker worker => inferInstanceAs (Decidable (c.RaisesInSession cfg worker))
  | .submit _ _ | .cancel _ | .execution _ | .wait _ | .waiter _ | .cancelWaiter _ | .tick =>
    inferInstanceAs (Decidable True)

theorem Threads.backendEnds (h : Threads c) {ending : Ending}
    (hsettles : Settles cfg c (.backendEnds task ending))
    (hstep : c.backendEndsStep cfg task ending = some c') : Threads c' := by
  obtain ⟨e, he, hends⟩ := callEnds_of_step hstep
  have hnoted (succeeded : Bool) : ∃ snapshots, c.noted e succeeded =
      { c with runSnapshots := snapshots } ∧ Threads { c with runSnapshots := snapshots } := by
    obtain ⟨snapshots, hsnapshots⟩ := noted_eq e succeeded c
    exact ⟨snapshots, hsnapshots, { h with }⟩
  cases hends with
  | @finish sessionId result called run =>
    -- The result of a call is one of the run, under the session id of the call.
    have hresult : result.runId = e.runId ∧
        LastSession (c.callsOf e.runId) result.sessionId := by
      rcases runBackendWithTimeout_own run with rfl | ⟨hown, rfl⟩
      · exact hsettles e he
      · exact ⟨hown, h.last_of_inFlight he called⟩
    obtain ⟨snapshots, hsnapshots, hsame⟩ := hnoted true
    rw [hsnapshots]
    exact hsame.finish he called.inFlight hresult.1 hresult.2
  | retry executing run retried =>
    obtain rfl := runBackendWithTimeout_runtimeError run
    exact h.retry he executing (hsettles e he executing retried) _
  | fail called =>
    obtain ⟨snapshots, hsnapshots, hsame⟩ := hnoted false
    rw [hsnapshots]
    refine hsame.endTask he called.inFlight ?_
    rintro result ⟨⟩
    exact ⟨rfl, h.last_of_inFlight he called⟩
  | cancelled called | raised called => exact h.endTask he called.inFlight (by simp)

/-- **Every action that settles its run keeps the tasks and their calls.** -/
theorem Threads.step (h : Threads c) {a : Action} (ha : c.Distinct a) (hsettles : Settles cfg c a)
    (hstep : step cfg c a = some c') : Threads c' := by
  cases a with
  | submit request uuid =>
    obtain rfl := Option.some.inj hstep
    unfold submitExecution
    refine Threads.spawn ?_ request.groupFolder
    exact { h.submit request ha with }
  | cancel runId =>
    obtain rfl := Option.some.inj hstep
    exact h.cancel cfg runId
  | worker worker => exact h.strides hsettles (workerStep_strides hstep)
  | execution task =>
    obtain ⟨e, he, hstarts⟩ := starts_of_step hstep
    exact h.start he hstarts
  | backendEnds task ending => exact h.backendEnds hsettles hstep
  | tick =>
    obtain rfl := Option.some.inj hstep
    exact { h with }
  | wait _ | waiter _ | cancelWaiter _ =>
    rcases step_waiter rfl hstep with ⟨waiters, rfl, -⟩ | ⟨waiter, future, -, -, rfl⟩
    · exact { h with }
    · exact { h with }

end Coordinator

end Portex
