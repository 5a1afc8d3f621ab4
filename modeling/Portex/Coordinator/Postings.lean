import Portex.Coordinator.Strides
import Mathlib.Data.List.DropRight

/-!
# The books of the coordinator

The results, the order they were stored in, the statuses and the snapshots of runs are changed in
three ways only: a submission opens a run, `_store_terminal_result` closes it and drops the oldest
results, and everything else leaves the keys and what a snapshot says of the origin of its run as
they are. Each of these is a *posting*, and every action is a sequence of postings.

## Main definitions

* `Origin`: where a run comes from, as its request and its snapshot say
* `Books`: the maps that postings change
* `Quiet`, `Filing`: what is left alone, and what `_store_terminal_result` does
* `Posting`: the three changes
* `FilesResults`: the results of execution tasks are filed under their requests

## Main results

* `storeTerminalResult_filing`: the end of a run, exactly
* `step_postings`: every action is a sequence of postings
-/

namespace Portex

open Foundation

/-- Where a run comes from. -/
structure Origin where
  groupFolder : String
  slotId : String
  userId : String
  chatJid : String
  source : ExecutionSource
  deriving DecidableEq

def ExecutionRequest.origin (request : ExecutionRequest) : Origin :=
  { groupFolder := request.groupFolder
    slotId := request.slotId
    userId := request.userId
    chatJid := request.chatJid
    source := request.source }

def ExecutionRunSnapshot.origin (snapshot : ExecutionRunSnapshot) : Origin :=
  { groupFolder := snapshot.groupFolder
    slotId := snapshot.slotId
    userId := snapshot.userId
    chatJid := snapshot.chatJid
    source := snapshot.source }

/-- The result is filed under the group and the slot of the request. -/
def ExecutionResult.FiledUnder (result : ExecutionResult) (request : ExecutionRequest) : Prop :=
  result.groupFolder = request.groupFolder ∧ result.slotId = request.slotId

instance (result : ExecutionResult) (request : ExecutionRequest) :
    Decidable (result.FiledUnder request) :=
  inferInstanceAs (Decidable (_ ∧ _))

/-- The results, statuses and snapshots of a coordinator, with what was submitted and stored. -/
structure Books where
  statuses : Dict String ExecutionStatus
  results : Dict String ExecutionResult
  order : List String
  snapshots : Dict String ExecutionRunSnapshot
  submitted : List (String × ExecutionRequest)
  stored : List ExecutionResult

namespace Books

variable {b b' b'' : Books}

/-- The origin that the snapshot of a run reports. -/
def originOf (b : Books) (runId : String) : Option Origin :=
  (b.snapshots.get? runId).map ExecutionRunSnapshot.origin

theorem isSome_originOf (runId : String) :
    (b.originOf runId).isSome = true ↔ runId ∈ b.snapshots.keys := by
  rw [originOf, Option.isSome_map, b.snapshots.isSome_get?]

/-- Nothing is submitted or stored. -/
structure Quiet (b b' : Books) : Prop where
  order : b'.order = b.order
  results : b'.results = b.results
  statuses : ∀ r, r ∈ b'.statuses.keys ↔ r ∈ b.statuses.keys
  origins : ∀ r, b'.originOf r = b.originOf r
  submitted : b'.submitted = b.submitted
  stored : b'.stored = b.stored

theorem Quiet.refl (b : Books) : Quiet b b :=
  ⟨rfl, rfl, fun _ => Iff.rfl, fun _ => rfl, rfl, rfl⟩

theorem Quiet.trans (h : Quiet b b') (k : Quiet b' b'') : Quiet b b'' where
  order := k.order.trans h.order
  results := k.results.trans h.results
  statuses r := (k.statuses r).trans (h.statuses r)
  origins r := (k.origins r).trans (h.origins r)
  submitted := k.submitted.trans h.submitted
  stored := k.stored.trans h.stored

/-- The runs whose results are dropped when the result of a run is stored. -/
def stale (maxCompletedRuns : ℕ) (runId : String) (b : Books) : List String :=
  (b.order ++ [runId]).take (b.order.length + 1 - maxCompletedRuns)

/-- What `_store_terminal_result` does. -/
structure Filing (maxCompletedRuns : ℕ) (result : ExecutionResult) (b b' : Books) : Prop where
  order : b'.order = (b.order ++ [result.runId]).rtake maxCompletedRuns
  results : ∀ r, b'.results.get? r =
    if r ∈ b.stale maxCompletedRuns result.runId then none else
      if r = result.runId then some result else b.results.get? r
  statuses : ∀ r, b'.statuses.get? r =
    if r ∈ b.stale maxCompletedRuns result.runId then none else
      if r = result.runId then some result.status else b.statuses.get? r
  origins : ∀ r, b'.originOf r =
    if r ∈ b.stale maxCompletedRuns result.runId then none else
      (b.originOf r).map fun origin =>
        if r = result.runId then { origin with slotId := result.slotId } else origin
  submitted : b'.submitted = b.submitted
  stored : b'.stored = b.stored ++ [result]

/-- The changes of the books. Where `proper` holds, results are filed under their requests. -/
inductive Posting (proper : Prop) (maxCompletedRuns : ℕ) : Books → Books → Prop
  | quiet {b b' : Books} (quiet : Quiet b b') : Posting proper maxCompletedRuns b b'
  | submit {b : Books} {runId : String} {request : ExecutionRequest}
      {snapshot : ExecutionRunSnapshot} (fresh : runId ∉ b.submitted.map Prod.fst)
      (origin : snapshot.origin = request.origin) :
      Posting proper maxCompletedRuns b
        { b with
          statuses := b.statuses.insert runId .queued
          snapshots := b.snapshots.insert runId snapshot
          submitted := b.submitted ++ [(runId, request)] }
  | store {b b' : Books} {result : ExecutionResult} (request : ExecutionRequest)
      (listed : (result.runId, request) ∈ b.submitted)
      (unstored : result.runId ∉ b.stored.map ExecutionResult.runId)
      (filed : proper → result.FiledUnder request) (filing : Filing maxCompletedRuns result b b') :
      Posting proper maxCompletedRuns b b'

/-- Any number of postings. -/
abbrev Postings (proper : Prop) (maxCompletedRuns : ℕ) : Books → Books → Prop :=
  Relation.ReflTransGen (Posting proper maxCompletedRuns)

/-- What every posting keeps, any number of postings keep. -/
theorem Postings.keep {proper : Prop} {maxCompletedRuns : ℕ} {P : Books → Prop}
    (h : Postings proper maxCompletedRuns b b') (hb : P b)
    (keep : ∀ {b b'}, P b → Posting proper maxCompletedRuns b b' → P b') : P b' := by
  induction h with
  | refl => exact hb
  | tail _ k ih => exact keep ih k

end Books

namespace Coordinator

open Books

variable {cfg : Config} {worker : ℕ} {c c' d : Coordinator} {proper : Prop}

def books (c : Coordinator) : Books :=
  { statuses := c.statuses
    results := c.completedResults
    order := c.completedOrder
    snapshots := c.runSnapshots
    submitted := c.history.submitted
    stored := c.history.stored }

@[simp] theorem statuses_books : c.books.statuses = c.statuses := rfl

@[simp] theorem results_books : c.books.results = c.completedResults := rfl

@[simp] theorem order_books : c.books.order = c.completedOrder := rfl

@[simp] theorem snapshots_books : c.books.snapshots = c.runSnapshots := rfl

@[simp] theorem submitted_books : c.books.submitted = c.history.submitted := rfl

@[simp] theorem stored_books : c.books.stored = c.history.stored := rfl

/-! ## What is left alone -/

theorem quiet_resolveSessionId (cfg : Config) (request : ExecutionRequest) (backendName : String)
    (freshSession : Option Bool) (c : Coordinator) :
    Quiet c.books (c.resolveSessionId cfg request backendName freshSession).2.books := by
  obtain ⟨sessionId, store, h⟩ := resolveSessionId_eq cfg request backendName freshSession c
  rw [h]
  exact .refl c.books

/-- A snapshot is changed: what becomes of the origins. -/
theorem originOf_modifySnapshot (runId : String)
    {f : ExecutionRunSnapshot → ExecutionRunSnapshot} {g : Origin → Origin}
    (hf : ∀ snapshot, (f snapshot).origin = g snapshot.origin) (c : Coordinator) (r : String) :
    (c.modifySnapshot runId f).books.originOf r =
      (c.books.originOf r).map fun origin => if r = runId then g origin else origin := by
  unfold modifySnapshot originOf
  by_cases hr : r = runId
  · subst hr
    cases h : c.runSnapshots.get? r with
    | none => simp [h]
    | some snapshot => simp [h, hf]
  · cases h : c.runSnapshots.get? runId with
    | none => simp [hr, Function.comp_def]
    | some snapshot => simp [hr, Function.comp_def]

/-- A change of a snapshot that keeps the origin of the run. -/
theorem quiet_modifySnapshot (runId : String) {f : ExecutionRunSnapshot → ExecutionRunSnapshot}
    (hf : ∀ snapshot, (f snapshot).origin = snapshot.origin) (c : Coordinator) :
    Quiet c.books (c.modifySnapshot runId f).books := by
  have horigins (r : String) : (c.modifySnapshot runId f).books.originOf r =
      c.books.originOf r := by
    rw [originOf_modifySnapshot runId (g := id) hf c r]
    simp
  obtain ⟨snapshots, h⟩ := modifySnapshot_eq runId f c
  rw [h] at horigins ⊢
  exact ⟨rfl, rfl, fun _ => Iff.rfl, horigins, rfl, rfl⟩

theorem quiet_markRecoveryAttempt (runId reason : String) (c : Coordinator) :
    Quiet c.books (c.markRecoveryAttempt runId reason).books := by
  refine quiet_modifySnapshot runId ?_ c
  exact fun _ => rfl

theorem quiet_markRecoveryResult (runId : String) (succeeded : Bool) (c : Coordinator) :
    Quiet c.books (c.markRecoveryResult runId succeeded).books := by
  refine quiet_modifySnapshot runId ?_ c
  exact fun _ => rfl

/-- A status is set on a run that has one. -/
theorem quiet_setStatus {runId : String} (h : (c.statuses.get? runId).isSome = true)
    (status : ExecutionStatus) :
    Quiet c.books { c with statuses := c.statuses.insert runId status }.books := by
  refine ⟨rfl, rfl, fun r => ?_, fun _ => rfl, rfl, rfl⟩
  obtain ⟨old, hold⟩ := Option.isSome_iff_exists.mp h
  rw [statuses_books, statuses_books, Dict.keys_insert_of_mem hold]

theorem quiet_launch (cfg : Config) {runId : String} (request : ExecutionRequest)
    (backendName : String) (h : (c.statuses.get? runId).isSome = true) :
    Quiet c.books (c.launch cfg runId request backendName).books := by
  unfold launch
  obtain ⟨sessionId, store, hresolve⟩ := resolveSessionId_eq cfg request backendName none c
  rw [hresolve]
  exact (quiet_setStatus h .running).trans (quiet_modifySnapshot runId
    (f := fun snapshot =>
      { snapshot with
        status := .running, backend := some backendName, sessionId := some sessionId,
        startedAt := some c.now })
    (fun _ => rfl)
    { c with
      draws := c.draws + 1
      workspaceSessionStore := store
      runSessionIds := c.runSessionIds.insert runId sessionId
      statuses := c.statuses.insert runId .running
      history := { c.history with started := c.history.started ++ [(runId, request)] } })

theorem quiet_finishExecution (task : ℕ) (execution : Execution) (result : ExecutionResult)
    (c : Coordinator) : Quiet c.books (c.finishExecution task execution result).books := by
  unfold finishExecution
  split <;> exact .refl c.books

theorem quiet_retryExecution (cfg : Config) (task : ℕ) (execution : Execution) (reason : String)
    (c : Coordinator) : Quiet c.books (c.retryExecution cfg task execution reason).books := by
  refine (quiet_markRecoveryAttempt execution.runId reason c).trans ?_
  exact quiet_resolveSessionId cfg execution.request execution.backendName (some true)
    { c.markRecoveryAttempt execution.runId reason with
      workspaceSessionStore := (c.markRecoveryAttempt execution.runId
        reason).workspaceSessionStore.invalidate execution.workspaceKey }

theorem quiet_noted (e : Execution) (succeeded : Bool) (c : Coordinator) :
    Quiet c.books (c.noted e succeeded).books := by
  unfold noted
  split
  · exact .refl c.books
  · exact quiet_markRecoveryResult ..

/-- An execution task stores nothing of its own. -/
theorem quiet_backendEndsStep {task : ℕ} {ending : Ending}
    (h : c.backendEndsStep cfg task ending = some c') : Quiet c.books c'.books := by
  obtain ⟨e, -, hends⟩ := callEnds_of_step h
  cases hends with
  | finish => exact (quiet_noted e true c).trans (quiet_finishExecution ..)
  | retry => exact quiet_retryExecution ..
  | fail => exact quiet_noted e false c
  | cancelled | raised => exact .refl c.books

theorem quiet_executionStep {task : ℕ} (h : c.executionStep task = some c') :
    Quiet c.books c'.books := by
  obtain ⟨e, -, hstarts⟩ := starts_of_step h
  cases hstarts with
  | drop | call => exact .refl c.books

/-! ## The end of a run -/

/-- The eviction loop drops the oldest runs, as many as are too many. -/
theorem dropStale_spec (maxCompletedRuns : ℕ) (order : List String) (c : Coordinator) :
    ∃ statuses results snapshots,
      dropStale maxCompletedRuns order c =
        { c with
          completedOrder := order.rtake maxCompletedRuns, statuses, completedResults := results,
          runSnapshots := snapshots } ∧
      ∀ r, Dict.get? statuses r =
          (if r ∈ order.take (order.length - maxCompletedRuns) then none
            else c.statuses.get? r) ∧
        Dict.get? results r =
          (if r ∈ order.take (order.length - maxCompletedRuns) then none
            else c.completedResults.get? r) ∧
        Dict.get? snapshots r =
          (if r ∈ order.take (order.length - maxCompletedRuns) then none
            else c.runSnapshots.get? r) := by
  induction order generalizing c with
  | nil =>
    refine ⟨c.statuses, c.completedResults, c.runSnapshots, ?_, fun r => by simp⟩
    rw [List.rtake_nil]
    rfl
  | cons oldest order ih =>
    unfold dropStale
    split
    · rename_i hlong
      obtain ⟨statuses, results, snapshots, heq, hget⟩ := ih
        { c with
          completedResults := c.completedResults.erase oldest
          statuses := c.statuses.erase oldest
          runSnapshots := c.runSnapshots.erase oldest }
      -- One run more is dropped than from the rest of the order.
      have hdropped : (oldest :: order).length - maxCompletedRuns =
          (order.length - maxCompletedRuns) + 1 := by
        rw [List.length_cons]
        omega
      have hkept : (oldest :: order).rtake maxCompletedRuns = order.rtake maxCompletedRuns := by
        rw [List.rtake, List.rtake, hdropped, List.drop_succ_cons]
      rw [hkept, hdropped, List.take_succ_cons]
      refine ⟨statuses, results, snapshots, heq, fun r => ?_⟩
      obtain ⟨hs, hr, hn⟩ := hget r
      by_cases hold : r = oldest
      · subst hold
        simp [hs, hr, hn]
      · simp [hs, hr, hn, hold]
    · rename_i hshort
      have hnone : (oldest :: order).length - maxCompletedRuns = 0 := by
        rw [List.length_cons]
        omega
      rw [List.rtake, hnone, List.drop_zero, List.take_zero]
      exact ⟨c.statuses, c.completedResults, c.runSnapshots, rfl, fun r => by simp⟩

theorem storeTerminalResult_filing (cfg : Config) (result : ExecutionResult) (c : Coordinator) :
    Filing cfg.maxCompletedRuns result c.books (c.storeTerminalResult cfg result).books := by
  unfold storeTerminalResult markTerminal
  simp only
  obtain ⟨marked, hmarked⟩ := modifySnapshot_eq result.runId
    (fun snapshot =>
      { snapshot with
        status := result.status, backend := some result.backend,
        sessionId := some result.sessionId, slotId := result.slotId,
        finalOutput := result.finalOutput, error := result.error,
        timeoutMs := result.timeoutMs, finishedAt := some c.now })
    { c with
      statuses := c.statuses.insert result.runId result.status
      completedResults := c.completedResults.insert result.runId result
      completedOrder := c.completedOrder ++ [result.runId] }
  -- The snapshot of the run alone is marked, and of its origin the slot alone.
  have horigin : ∀ r, (marked.get? r).map ExecutionRunSnapshot.origin =
      (c.books.originOf r).map fun origin =>
        if r = result.runId then { origin with slotId := result.slotId } else origin := by
    intro r
    have hmodified := congrArg (fun d => d.books.originOf r) hmarked
    refine hmodified.symm.trans (originOf_modifySnapshot result.runId ?_ _ r)
    exact fun _ => rfl
  rw [hmarked]
  simp only
  obtain ⟨statuses, results, snapshots, heq, hget⟩ := dropStale_spec cfg.maxCompletedRuns
    (c.completedOrder ++ [result.runId])
    { c with
      statuses := c.statuses.insert result.runId result.status
      completedResults := c.completedResults.insert result.runId result
      completedOrder := c.completedOrder ++ [result.runId]
      runSnapshots := marked }
  rw [List.length_append, List.length_singleton] at hget
  rw [heq]
  unfold resolveFuture
  simp only
  have hstatuses : ∀ r, Dict.get? statuses r =
      if r ∈ c.books.stale cfg.maxCompletedRuns result.runId then none else
        if r = result.runId then some result.status else c.statuses.get? r := fun r => by
    rw [(hget r).1, Dict.get?_insert]
    rfl
  have hresults : ∀ r, Dict.get? results r =
      if r ∈ c.books.stale cfg.maxCompletedRuns result.runId then none else
        if r = result.runId then some result else c.completedResults.get? r := fun r => by
    rw [(hget r).2.1, Dict.get?_insert]
    rfl
  have horigins : ∀ r, (Dict.get? snapshots r).map ExecutionRunSnapshot.origin =
      if r ∈ c.books.stale cfg.maxCompletedRuns result.runId then none else
        (c.books.originOf r).map fun origin =>
          if r = result.runId then { origin with slotId := result.slotId } else origin := fun r => by
    rw [(hget r).2.2, apply_ite (Option.map ExecutionRunSnapshot.origin), horigin r]
    rfl
  split
  · exact ⟨rfl, hresults, hstatuses, horigins, rfl, rfl⟩
  · exact ⟨rfl, hresults, hstatuses, horigins, rfl, rfl⟩

/-! ## The results of execution tasks -/

/-- A result that a task returned is filed under its request. -/
def FilesResults (c : Coordinator) : Prop :=
  ∀ task e result, c.executions.get? task = some e → e.phase = .done (.returned result) →
    result.FiledUnder e.request

theorem runBackendWithTimeout_filed {execution : Execution} {sessionId : String} {ending : Ending}
    {result : ExecutionResult} (hconf : ending.Conforming)
    (h : runBackendWithTimeout execution sessionId ending = .ok result) :
    result.FiledUnder execution.request := by
  cases ending with
  | executionResult result => exact hconf.elim
  | dict raw | timeoutError | exception message =>
    obtain rfl := Except.ok.inj h
    exact ⟨rfl, rfl⟩
  | runtimeError sessionResumeFailed message | cancelledError | malformed message => cases h

theorem FilesResults.congr (h : c.FilesResults) (heq : c'.executions = c.executions) :
    c'.FilesResults := by
  intro task e result he
  rw [heq] at he
  exact h task e result he

theorem FilesResults.setPhase (h : c.FilesResults) (phase : ExecutionPhase) {task : ℕ}
    {execution : Execution} (he : c.executions.get? task = some execution)
    (hphase : ∀ result, phase = .done (.returned result) → result.FiledUnder execution.request)
    (heq : c'.executions = c.executions.modify task fun e => { e with phase }) :
    c'.FilesResults := by
  intro other e result hother hdone
  rw [heq] at hother
  rcases Heap.get?_modify_cases hother with ⟨before, hbefore, hsame, rfl⟩ | ⟨-, hother⟩
  · obtain rfl := Option.some.inj (he.symm.trans (hsame ▸ hbefore))
    exact hphase result hdone
  · exact h other e result hother hdone

theorem FilesResults.cancelExecution (h : c.FilesResults) (runId : String)
    (heq : c'.executions = c.cancelExecution runId) : c'.FilesResults := by
  unfold Coordinator.cancelExecution at heq
  split at heq
  · exact h.congr heq
  · intro other e result hother hdone
    rw [heq] at hother
    rcases Heap.get?_modify_cases hother with ⟨before, hbefore, -, rfl⟩ | ⟨-, hother⟩
    · rw [Execution.request_cancel]
      exact h other before result hbefore ((Execution.phase_cancel before).symm.trans hdone)
    · exact h other e result hother hdone

@[simp] theorem executions_resolveSessionId (request : ExecutionRequest) (backendName : String)
    (freshSession : Option Bool) :
    (c.resolveSessionId cfg request backendName freshSession).2.executions = c.executions := by
  obtain ⟨sessionId, store, h⟩ := resolveSessionId_eq cfg request backendName freshSession c
  rw [h]

@[simp] theorem executions_storeTerminalResult (result : ExecutionResult) :
    (c.storeTerminalResult cfg result).executions = c.executions := by
  obtain ⟨k, hk⟩ := storeTerminalResult_eq cfg result c
  rw [hk]
  rfl

@[simp] theorem draws_storeTerminalResult (result : ExecutionResult) :
    (c.storeTerminalResult cfg result).draws = c.draws := by
  obtain ⟨k, hk⟩ := storeTerminalResult_eq cfg result c
  rw [hk]
  rfl

@[simp] theorem workspaceSessionStore_storeTerminalResult (result : ExecutionResult) :
    (c.storeTerminalResult cfg result).workspaceSessionStore = c.workspaceSessionStore := by
  obtain ⟨k, hk⟩ := storeTerminalResult_eq cfg result c
  rw [hk]
  rfl

@[simp] theorem calls_storeTerminalResult (result : ExecutionResult) :
    (c.storeTerminalResult cfg result).history.calls = c.history.calls := by
  obtain ⟨k, hk⟩ := storeTerminalResult_eq cfg result c
  rw [hk]
  rfl

theorem ensureWorker_frame (groupFolder : String) (c : Coordinator) :
    (c.ensureWorker groupFolder).executions = c.executions ∧
      (c.ensureWorker groupFolder).books = c.books := by
  rcases ensureWorker_cases groupFolder c with ⟨h, -⟩ | ⟨h, -⟩
  · rw [h]
    exact ⟨rfl, rfl⟩
  · rw [h]
    exact ⟨rfl, rfl⟩

/-- The execution tasks after a cancel. -/
theorem executions_cancel (cfg : Config) (runId : String) (c : Coordinator) :
    (c.cancel cfg runId).2.executions = c.executions ∨
      (c.cancel cfg runId).2.executions = c.cancelExecution runId := by
  unfold cancel
  split
  · split
    · exact .inl rfl
    · simp [cancelQueued, peekSessionId, recordCancel]
  · split
    · exact .inl rfl
    · unfold cancelRunning
      simp only
      split
      · simp [peekSessionId]
      · rename_i request _ _ _ _
        obtain ⟨sessionId, store, h⟩ := resolveSessionId_eq cfg request
          (safeSelectBackendName cfg request) none c
        refine .inr ?_
        simp [recordCancel, peekSessionId, h, Coordinator.cancelExecution]
  · exact .inl rfl

/-- The execution tasks after a stride: a launch creates one. -/
theorem Stride.executions (s : Stride cfg worker c c') :
    c'.executions = c.executions ∨
      ∃ e : Execution, e.phase = .created ∧ c'.executions = c.executions.alloc e := by
  cases s with
  | wake | skip | finish | collectCancelled | crash => exact .inl rfl
  | reject | collectRaised =>
    refine .inl ?_
    simp [failBeforeStart, peekSessionId, popped, resumed, forgetRunning, setWorkerPhase]
  | collectResult =>
    refine .inl ?_
    simp [resumed, forgetRunning, setWorkerPhase]
  | @launch groupFolder runId request rest backendName =>
    obtain ⟨store, snapshots, sessionId, hlaunch⟩ :=
      launch_eq cfg runId request backendName (c.popped groupFolder rest)
    rw [hlaunch]
    exact .inr ⟨_, rfl, rfl⟩

theorem FilesResults.strides (h : c.FilesResults) (s : Strides cfg worker c c') :
    c'.FilesResults := by
  induction s with
  | refl => exact h
  | tail _ s ih =>
    rcases s.executions with heq | ⟨e, hcreated, heq⟩
    · exact ih.congr heq
    · intro task other result hother hdone
      rw [heq] at hother
      rcases Heap.get?_alloc_cases hother with ⟨-, rfl⟩ | hother
      · rw [hcreated] at hdone
        cases hdone
      · exact ih task other result hother hdone

theorem FilesResults.finishExecution (h : c.FilesResults) {task : ℕ} {execution : Execution}
    {result : ExecutionResult} (he : c.executions.get? task = some execution)
    (hfiled : result.FiledUnder execution.request) :
    (c.finishExecution task execution result).FilesResults := by
  refine h.setPhase (.done (.returned result)) he ?_ ?_
  · rintro result ⟨⟩
    exact hfiled
  · unfold Coordinator.finishExecution
    split <;> rfl

theorem FilesResults.backendEnds (h : c.FilesResults) {task : ℕ} {ending : Ending}
    (hconf : ending.Conforming) (hstep : c.backendEndsStep cfg task ending = some c') :
    c'.FilesResults := by
  obtain ⟨e, he, hends⟩ := callEnds_of_step hstep
  have hnoted (succeeded : Bool) : (c.noted e succeeded).executions = c.executions := by
    obtain ⟨snapshots, hsnapshots⟩ := noted_eq e succeeded c
    rw [hsnapshots]
  cases hends with
  | finish called run =>
    exact (h.congr (hnoted true)).finishExecution ((hnoted true).symm ▸ he)
      (runBackendWithTimeout_filed hconf run)
  | @retry _ message =>
    -- A retry returns nothing yet.
    obtain ⟨sessionId, store, snapshots, heq⟩ := retryExecution_eq cfg task e message c
    exact h.setPhase (.retrying sessionId) he (fun _ hphase => by cases hphase) (by rw [heq]; rfl)
  | @fail sessionId message =>
    refine h.setPhase (.done (.returned (failedResult e sessionId message))) he ?_
      (by simp only [setExecutionPhase, hnoted])
    rintro result ⟨⟩
    exact ⟨rfl, rfl⟩
  | cancelled | raised => exact h.setPhase _ he (by rintro result ⟨⟩) rfl

/-- **Every action keeps the results of execution tasks under their requests.** -/
theorem FilesResults.step (h : c.FilesResults) {a : Action} (ha : c.Ordinary a)
    (hstep : step cfg c a = some c') : c'.FilesResults := by
  cases a with
  | submit request uuid =>
    obtain rfl := Option.some.inj hstep
    exact h.congr (ensureWorker_frame _ _).1
  | cancel runId =>
    obtain rfl := Option.some.inj hstep
    rcases executions_cancel cfg runId c with heq | heq
    · exact h.congr heq
    · exact h.cancelExecution runId heq
  | worker worker => exact h.strides (workerStep_strides hstep)
  | execution task =>
    obtain ⟨e, he, hstarts⟩ := starts_of_step hstep
    cases hstarts with
    | drop => exact h.setPhase (.done .cancelledError) he (fun _ hphase => by cases hphase) rfl
    | call => exact h.setPhase .executing he (fun _ hphase => by cases hphase) rfl
  | backendEnds task ending => exact h.backendEnds ha hstep
  | tick =>
    obtain rfl := Option.some.inj hstep
    exact h.congr rfl
  | wait _ | waiter _ | cancelWaiter _ =>
    rcases step_waiter rfl hstep with ⟨waiters, rfl, -⟩ | ⟨waiter, future, -, -, rfl⟩
    · exact h.congr rfl
    · exact h.congr rfl

/-! ## Every action is a sequence of postings -/

/-- A run fails before it reaches a backend. -/
theorem failBeforeStart_postings {runId backend slotId error : String}
    {request : ExecutionRequest} (hlisted : (runId, request) ∈ c.history.submitted)
    (hopen : c.Open runId) (hfiled : proper → slotId = request.slotId) :
    Postings proper cfg.maxCompletedRuns c.books
      (c.failBeforeStart cfg runId request backend slotId error).books := by
  unfold failBeforeStart peekSessionId
  obtain ⟨sessionId, store, hpeek⟩ := resolveSessionId_eq cfg request backend none c
  rw [hpeek]
  refine .single (.store request ?_ ?_ ?_ (storeTerminalResult_filing cfg
    { runId
      groupFolder := request.groupFolder
      backend
      sessionId
      slotId
      status := .failed
      error := some error } { c with draws := c.draws + 1, workspaceSessionStore := store }))
  · exact hlisted
  · exact hopen.2
  · exact fun hproper => ⟨rfl, hfiled hproper⟩

theorem cancelQueued_postings (h : Inv c) {runId : String} {request : ExecutionRequest}
    (hrequest : c.runRequests.get? runId = some request) :
    Postings proper cfg.maxCompletedRuns c.books (c.cancelQueued cfg runId request).books := by
  obtain ⟨hlisted, hstored⟩ := (h.request_iff runId request).mp hrequest
  unfold cancelQueued peekSessionId
  obtain ⟨sessionId, store, hpeek⟩ := resolveSessionId_eq cfg request
    (safeSelectBackendName cfg request) none c
  simp only [hpeek]
  refine .single (.store request ?_ ?_ ?_ (storeTerminalResult_filing cfg
    { runId
      groupFolder := request.groupFolder
      backend := safeSelectBackendName cfg request
      sessionId
      slotId := request.slotId
      status := .cancelled } { c with draws := c.draws + 1, workspaceSessionStore := store }))
  · exact hlisted
  · exact hstored
  · exact fun _ => ⟨rfl, rfl⟩

theorem cancelRunning_postings (h : Inv c) {runId : String} {request : ExecutionRequest}
    (hstatus : c.statuses.get? runId = some .running)
    (hrequest : c.runRequests.get? runId = some request) :
    Postings proper cfg.maxCompletedRuns c.books (c.cancelRunning cfg runId request).2.books := by
  obtain ⟨hlisted, hstored⟩ := (h.request_iff runId request).mp hrequest
  unfold cancelRunning peekSessionId
  obtain ⟨sessionId, store, hpeek⟩ := resolveSessionId_eq cfg request
    (safeSelectBackendName cfg request) none c
  simp only [hpeek]
  split
  · exact .refl
  · -- The status is set before the result is stored.
    refine .head (.quiet (quiet_setStatus (Option.isSome_iff_exists.mpr ⟨_, hstatus⟩) .cancelled))
      (.single (.store request ?_ ?_ ?_ (storeTerminalResult_filing cfg
        { runId
          groupFolder := request.groupFolder
          backend := safeSelectBackendName cfg request
          sessionId := c.runSessionIds.getD runId sessionId
          slotId := request.slotId
          status := .cancelled }
        { c with
          draws := c.draws + 1
          workspaceSessionStore := store
          cancelledRunIds := c.cancelledRunIds.insert runId
          statuses := c.statuses.insert runId .cancelled
          executions := c.cancelExecution runId })))
    · exact hlisted
    · exact hstored
    · exact fun _ => ⟨rfl, rfl⟩

theorem cancel_postings (h : Inv c) (runId : String) :
    Postings proper cfg.maxCompletedRuns c.books (c.cancel cfg runId).2.books := by
  unfold cancel
  split
  · split
    · exact .refl
    · exact cancelQueued_postings h ‹_›
  · split
    · exact .refl
    · exact cancelRunning_postings h ‹_› ‹_›
  · exact .refl

/-- A stride is a sequence of postings, proper unless it files a rejected run under a slot that
is not its own. -/
theorem Stride.postings (h : Inv c) (hfiles : c.FilesResults) (s : Stride cfg worker c c')
    (hproper : proper → ∀ {groupFolder runId request rest backend slotId error},
      c.AtHead worker groupFolder runId request rest → c.wanted runId = true →
      Rejection cfg request backend slotId error → slotId = request.slotId) :
    Postings proper cfg.maxCompletedRuns c.books c'.books := by
  cases s with
  | wake | skip | finish | collectCancelled | crash => exact .refl
  | @reject groupFolder runId request rest backend slotId error head wanted rejected =>
    have hlisted := (h.entry_submitted (head.queue ▸ List.mem_cons_self)).1
    exact failBeforeStart_postings (c := c.popped groupFolder rest) hlisted
      (h.open_of_wanted wanted) fun hp => hproper hp head wanted rejected
  | @launch groupFolder runId request rest backendName head wanted selected known =>
    have hqueued : c.statuses.get? runId = some .queued := by
      refine (h.queued_iff runId).mpr ⟨h.open_of_wanted wanted, ?_⟩
      exact h.entry_unstarted (head.queue ▸ List.mem_cons_self)
    exact .single (.quiet (quiet_launch (c := c.popped groupFolder rest) cfg request backendName
      (Option.isSome_iff_exists.mpr ⟨_, hqueued⟩)))
  | @collectResult groupFolder runId request task execution result resumes kept =>
    obtain ⟨hown, -⟩ := h.own_result resumes.awaits resumes.awaited resumes.done
    obtain ⟨-, -, e, he, -, hrequest⟩ := h.awaits _ _ _ _ _ resumes.awaits
    obtain rfl := Option.some.inj (resumes.awaited.symm.trans he)
    have hopen := h.open_of_awaits resumes.awaits kept
    have hlisted := h.started_submitted (h.started_of_awaits resumes.awaits)
    refine .single (.store request ?_ ?_ (fun _ => ?_)
      (storeTerminalResult_filing cfg result (c.resumed worker runId)))
    · exact hown ▸ hlisted
    · exact hown ▸ hopen.2
    · exact hrequest ▸ hfiles _ _ _ resumes.awaited resumes.done
  | collectRaised resumes =>
    rcases h.conforming _ _ resumes.awaited _ resumes.done with hcancelled | ⟨result, hresult, -⟩
    · cases hcancelled
    · cases hresult

theorem FilesResults.stride (h : c.FilesResults) (s : Stride cfg worker c c') :
    c'.FilesResults :=
  h.strides (.single s)

/-- A turn of a worker is a sequence of postings, not all of them proper. -/
theorem Strides.postings (h : Inv c) (hfiles : c.FilesResults) (s : Strides cfg worker c c')
    (hproper : ¬ proper) : Postings proper cfg.maxCompletedRuns c.books c'.books := by
  refine (h.strides_keep (P := fun d => d.FilesResults ∧
    Postings proper cfg.maxCompletedRuns c.books d.books) s ⟨hfiles, .refl⟩ ?_).2
  rintro d d' hd ⟨hfiled, hpostings⟩ s
  exact ⟨hfiled.stride s, hpostings.trans
    (s.postings hd hfiled fun hp => absurd hp hproper)⟩

/-- **Every action is a sequence of postings**, and all but the turns of workers are proper. -/
theorem step_postings (h : Inv c) (hfiles : c.FilesResults) {a : Action} (ha : c.Ordinary a)
    (hproper : proper → ∀ worker, a ≠ .worker worker) (hstep : step cfg c a = some c') :
    Postings proper cfg.maxCompletedRuns c.books c'.books := by
  cases a with
  | submit request uuid =>
    obtain rfl := Option.some.inj hstep
    have hsubmit : Posting proper cfg.maxCompletedRuns c.books
        (c.submitExecution request uuid).2.books := by
      rw [submitExecution, (ensureWorker_frame _ _).2]
      exact .submit ha rfl
    exact .single hsubmit
  | cancel runId =>
    obtain rfl := Option.some.inj hstep
    exact cancel_postings h runId
  | worker worker =>
    exact Strides.postings h hfiles (workerStep_strides hstep)
      fun hp => hproper hp worker rfl
  | execution task => exact .single (.quiet (quiet_executionStep hstep))
  | backendEnds task ending => exact .single (.quiet (quiet_backendEndsStep hstep))
  | tick =>
    obtain rfl := Option.some.inj hstep
    exact .refl
  | wait _ | waiter _ | cancelWaiter _ =>
    rcases step_waiter rfl hstep with ⟨waiters, rfl, -⟩ | ⟨waiter, future, -, -, rfl⟩
    · exact .refl
    · exact .refl

end Coordinator

end Portex
