import Portex.Scheduler.TaskLogs

/-!
# Every execution is logged once

Whatever the order in which the executions and the coordinator go on, the logs of a task are those
of its executions that have ended, one of each, and a log tells what the coordinator stored for the
run that the execution asked for.

## Main definitions

* `TaskCall.Truthful`: a log tells what came of its run
* `TaskRuns.Accounted`: what the logs show

## Main results

* `TaskRuns.sound_step`: every action keeps what is known of the executions
* `accounted_of_run`: what the logs show in every run
-/

namespace Portex

open Foundation

namespace TaskRuns

variable {cfg : Config} {s t : TaskRuns} {call : TaskCall}

/-! ## One execution -/

/-- The run was asked for, for the task of the call. -/
def Asked (s : TaskRuns) (call : TaskCall) (runId : String) : Prop :=
  ∃ uuid, (runId, taskRequest call.task uuid) ∈ s.coordinator.history.submitted

/-- The log tells what came of the run that the call asked for. A call that did not get that far, or
whose run the coordinator no longer knew, is logged as an error. -/
def Truthful (s : TaskRuns) (call : TaskCall) (log : TaskRunLog) (runId? : Option String) : Prop :=
  (∃ runId, runId? = some runId ∧ s.Asked call runId ∧
      ∃ result ∈ s.coordinator.history.stored, result.runId = runId ∧
        coerceExecutionResult result = { status := log.status, result := log.result
                                         error := log.error }) ∨
    log.status = .error ∧ log.result = none ∧ ∀ runId ∈ runId?, s.Asked call runId

/-- What is known where a call stands. -/
def Tracked (s : TaskRuns) (call : TaskCall) : Prop :=
  match call.phase with
  | .started => True
  | .submitted runId | .cancelled runId => s.Asked call runId
  | .waiting runId waiter => s.Asked call runId ∧
      ∃ w, s.coordinator.waiters.get? waiter = some w ∧ w.runId = runId
  | .logged log runId? =>
      log.taskId = call.task.id ∧ log.runAt = call.runAt ∧ s.Truthful call log runId?

theorem Asked.later {runId : String} (h : s.Asked call runId)
    (hlater : Coordinator.Later s.coordinator t.coordinator) : t.Asked call runId := by
  obtain ⟨uuid, hmem⟩ := h
  exact ⟨uuid, hlater.submitted.subset hmem⟩

theorem Tracked.later (h : s.Tracked call)
    (hlater : Coordinator.Later s.coordinator t.coordinator) : t.Tracked call := by
  unfold Tracked at h ⊢
  cases hphase : call.phase with
  | started => trivial
  | submitted runId | cancelled runId =>
    rw [hphase] at h
    exact h.later hlater
  | waiting runId waiter =>
    rw [hphase] at h
    obtain ⟨hasked, w, hw, hown⟩ := h
    obtain ⟨w', hw', hsame⟩ := hlater.waiters waiter w hw
    exact ⟨hasked.later hlater, w', hw', hsame.trans hown⟩
  | logged log runId? =>
    rw [hphase] at h
    obtain ⟨htask, hrunAt, htruth⟩ := h
    refine ⟨htask, hrunAt, ?_⟩
    rcases htruth with ⟨runId, hrun, hasked, result, hstored, hown, heq⟩ | ⟨hstatus, hnone, hasked⟩
    · exact .inl ⟨runId, hrun, hasked.later hlater, result, hlater.stored.subset hstored, hown, heq⟩
    · exact .inr ⟨hstatus, hnone, fun runId hrun => (hasked runId hrun).later hlater⟩

/-- Whatever run a call has, it asked for it. -/
theorem Tracked.asked (h : s.Tracked call) {runId : String} (hrun : call.runId? = some runId) :
    s.Asked call runId := by
  unfold Tracked at h
  unfold TaskCall.runId? at hrun
  cases hphase : call.phase with
  | started =>
    rw [hphase] at hrun
    cases hrun
  | submitted | cancelled =>
    rw [hphase] at h hrun
    obtain rfl := Option.some.inj hrun
    exact h
  | waiting =>
    rw [hphase] at h hrun
    obtain rfl := Option.some.inj hrun
    exact h.1
  | logged log runId? =>
    rw [hphase] at h hrun
    dsimp only at h hrun
    rcases h.2.2 with ⟨own, hown, hasked, -⟩ | ⟨-, -, hasked⟩
    · obtain rfl := Option.some.inj (hrun.symm.trans hown)
      exact hasked
    · exact hasked runId hrun

/-! ## All executions -/

/-- The logs of a task, by the calls. -/
def entriesOf (s : TaskRuns) (taskId : String) : List TaskRunLog :=
  s.calls.entries (TaskCall.logFor taskId)

/-- What is known of the calls, the logs and the coordinator. -/
structure Sound (cfg : Config) (s : TaskRuns) : Prop where
  trusted : Coordinator.Trusted cfg s.coordinator
  tracked : ∀ i call, s.calls.get? i = some call → s.Tracked call
  /-- No run is asked for twice. -/
  unique : ∀ i j call call' runId, s.calls.get? i = some call → s.calls.get? j = some call' →
    call.runId? = some runId → call'.runId? = some runId → i = j
  logs : ∀ taskId, (s.logs.logsOf taskId).Perm (s.entriesOf taskId)
  ids_sorted : ∀ taskId, (s.logs.logsOf taskId).Pairwise fun log log' => log.id < log'.id
  ids_lt : ∀ taskId, ∀ log ∈ s.logs.logsOf taskId, log.id < s.logs.nextId

theorem sound_empty (cfg : Config) : Sound cfg {} where
  trusted := Coordinator.trusted_empty cfg
  tracked i call hcall := by cases hcall
  unique i j call call' runId hcall := by cases hcall
  logs _ := List.Perm.refl _
  ids_sorted _ := List.Pairwise.nil
  ids_lt taskId log hlog := by cases hlog

/-- A call goes on, with a run that is its own or that no other call has. -/
theorem Sound.setCall (h : Sound cfg s) {i : ℕ} {call call' : TaskCall}
    (hcall : s.calls.get? i = some call) (hcalls : t.calls = s.calls) (hlogs : t.logs = s.logs)
    (htrusted : Coordinator.Trusted cfg t.coordinator)
    (hlater : Coordinator.Later s.coordinator t.coordinator)
    (hrun : ∀ runId, call'.runId? = some runId → call.runId? = some runId ∨
      runId ∉ s.coordinator.submittedIds)
    (hentry : ∀ taskId, call'.logFor taskId = call.logFor taskId) (htracked : t.Tracked call') :
    Sound cfg (t.setCall i call') := by
  have hcallt : t.calls.get? i = some call := hcalls ▸ hcall
  have hcases {j : ℕ} {other : TaskCall} (hother : (t.setCall i call').calls.get? j = some other) :
      (i = j ∧ other = call') ∨ (j ≠ i ∧ s.calls.get? j = some other) := by
    rcases Heap.get?_modify_cases hother with ⟨old, -, rfl, rfl⟩ | ⟨hne, hold⟩
    · exact .inl ⟨rfl, rfl⟩
    · exact .inr ⟨hne, hcalls ▸ hold⟩
  -- Another call has not the run of this one.
  have hapart {j : ℕ} {other : TaskCall} {runId : String} (hne : j ≠ i)
      (hother : s.calls.get? j = some other) (hsome : other.runId? = some runId) :
      call'.runId? ≠ some runId := by
    intro hsome'
    rcases hrun runId hsome' with hown | hnew
    · exact hne (h.unique j i other call runId hother hcall hsome hown)
    · obtain ⟨uuid, hmem⟩ := (h.tracked j other hother).asked hsome
      exact hnew (List.mem_map_of_mem hmem)
  have hentries (taskId : String) : (t.setCall i call').entriesOf taskId = s.entriesOf taskId := by
    unfold entriesOf TaskRuns.setCall
    rw [Heap.entries_modify_of_eq hcallt (hentry taskId), hcalls]
  refine ⟨htrusted, fun j other hother => ?_, fun j k other other' runId hother hother' hsome
    hsome' => ?_, fun taskId => ?_, hlogs ▸ h.ids_sorted, hlogs ▸ h.ids_lt⟩
  · rcases hcases hother with ⟨rfl, rfl⟩ | ⟨-, hold⟩
    · exact htracked
    · exact (h.tracked j other hold).later hlater
  · rcases hcases hother with ⟨rfl, rfl⟩ | ⟨hne, hold⟩
    · rcases hcases hother' with ⟨rfl, rfl⟩ | ⟨hne', hold'⟩
      · rfl
      · exact absurd hsome (hapart hne' hold' hsome')
    · rcases hcases hother' with ⟨rfl, rfl⟩ | ⟨-, hold'⟩
      · exact absurd hsome' (hapart hne hold hsome)
      · exact h.unique j k other other' runId hold hold' hsome hsome'
  · rw [hentries]
    exact hlogs ▸ h.logs taskId

theorem logsOf_recordLog (service : TaskLogService) (log : TaskRunLog) (taskId : String) :
    (service.recordLog log).logsOf taskId =
      if taskId = log.taskId then service.logsOf log.taskId ++ [log]
      else service.logsOf taskId := by
  unfold TaskLogService.recordLog TaskLogService.logsOf Dict.getD
  rw [Dict.get?_insert]
  split <;> rfl

/-- A log that was recorded is the last of its task. -/
theorem Sound.record (h : Sound cfg s) {i : ℕ} {call : TaskCall}
    (hcall : s.calls.get? i = some call) (hphase : ∀ log runId?, call.phase ≠ .logged log runId?)
    {runId? : Option String} (hrun : ∀ runId, runId? = some runId → call.runId? = some runId)
    {coordinator : Coordinator} (htrusted : Coordinator.Trusted cfg coordinator)
    (hlater : Coordinator.Later s.coordinator coordinator) {durationMs : ℕ} {outcome : TaskOutcome}
    (htruth : ∀ log, log.status = outcome.status → log.result = outcome.result →
      log.error = outcome.error → { s with coordinator }.Truthful call log runId?) :
    Sound cfg ({ s with coordinator }.record i call runId? durationMs outcome) := by
  set log := s.logs.newLog call.task.id call.runAt durationMs outcome with hlog
  have hnone (taskId : String) : call.logFor taskId = none := by
    unfold TaskCall.logFor
    cases hcases : call.phase with
    | logged log runId? => exact absurd hcases (hphase log runId?)
    | _ => rfl
  have hcases {j : ℕ} {other : TaskCall}
      (hother : ({ s with coordinator }.record i call runId? durationMs outcome).calls.get? j =
        some other) :
      (i = j ∧ other = { call with phase := .logged log runId? }) ∨
        (j ≠ i ∧ s.calls.get? j = some other) := by
    rcases Heap.get?_modify_cases hother with ⟨old, -, rfl, rfl⟩ | ⟨hne, hold⟩
    · exact .inl ⟨rfl, rfl⟩
    · exact .inr ⟨hne, hold⟩
  refine ⟨htrusted, fun j other hother => ?_, fun j k other other' runId hother hother' hsome
    hsome' => ?_, fun taskId => ?_, fun taskId => ?_, fun taskId entry hentry => ?_⟩
  · rcases hcases hother with ⟨rfl, rfl⟩ | ⟨-, hold⟩
    · exact ⟨rfl, rfl, htruth log rfl rfl rfl⟩
    · exact (h.tracked j other hold).later hlater
  · rcases hcases hother with ⟨rfl, rfl⟩ | ⟨-, hold⟩
    · rcases hcases hother' with ⟨rfl, rfl⟩ | ⟨-, hold'⟩
      · rfl
      · exact h.unique i k call other' runId hcall hold' (hrun runId hsome) hsome'
    · rcases hcases hother' with ⟨rfl, rfl⟩ | ⟨-, hold'⟩
      · exact h.unique j i other call runId hold hcall hsome (hrun runId hsome')
      · exact h.unique j k other other' runId hold hold' hsome hsome'
  · -- The call leaves its log with those of its task, and none with those of another one.
    show ((s.logs.recordLog log).logsOf taskId).Perm
      ((s.calls.modify i fun _ => { call with phase := .logged log runId? }).entries
        (TaskCall.logFor taskId))
    have hown : log.taskId = call.task.id := rfl
    rw [logsOf_recordLog, hown]
    by_cases htask : taskId = call.task.id
    · subst htask
      have hleaves : TaskCall.logFor call.task.id { call with phase := .logged log runId? } =
          some log := if_pos rfl
      rw [if_pos rfl]
      exact ((h.logs _).append_right [log]).trans
        (Heap.entries_modify_perm hcall (hnone _) hleaves).symm
    · have hleaves : TaskCall.logFor taskId { call with phase := .logged log runId? } =
          call.logFor taskId := (if_neg (Ne.symm htask)).trans (hnone taskId).symm
      rw [if_neg htask, Heap.entries_modify_of_eq hcall hleaves]
      exact h.logs taskId
  · show ((s.logs.recordLog log).logsOf taskId).Pairwise fun log log' => log.id < log'.id
    rw [logsOf_recordLog]
    split
    · refine List.pairwise_append.mpr ⟨h.ids_sorted _, List.pairwise_singleton _ _, ?_⟩
      intro before hbefore last hlast
      obtain rfl := List.mem_singleton.mp hlast
      exact h.ids_lt _ before hbefore
    · exact h.ids_sorted taskId
  · change entry ∈ (s.logs.recordLog log).logsOf taskId at hentry
    show entry.id < s.logs.nextId + 1
    rw [logsOf_recordLog] at hentry
    split at hentry
    · rcases List.mem_append.mp hentry with hbefore | hlast
      · exact Nat.lt_succ_of_lt (h.ids_lt _ entry hbefore)
      · obtain rfl := List.mem_singleton.mp hlast
        exact Nat.lt_succ_self _
    · exact Nat.lt_succ_of_lt (h.ids_lt taskId entry hentry)

/-! ## Every action -/

theorem sound_start (h : Sound cfg s) (task : TaskOrder) (runAt : ℤ) :
    Sound cfg { s with calls := s.calls.alloc { task, runAt } } := by
  have hlater := Coordinator.later_refl s.coordinator
  have hcases {j : ℕ} {other : TaskCall} (hother : (s.calls.alloc { task, runAt }).get? j =
      some other) : other = { task, runAt } ∨ s.calls.get? j = some other := by
    rcases Heap.get?_alloc_cases hother with ⟨-, rfl⟩ | hold
    · exact .inl rfl
    · exact .inr hold
  refine ⟨h.trusted, fun j other hother => ?_, fun j k other other' runId hother hother' hsome
    hsome' => ?_, fun taskId => ?_, h.ids_sorted, h.ids_lt⟩
  · rcases hcases hother with rfl | hold
    · trivial
    · exact (h.tracked j other hold).later hlater
  · rcases hcases hother with rfl | hold
    · cases hsome
    · rcases hcases hother' with rfl | hold'
      · cases hsome'
      · exact h.unique j k other other' runId hold hold' hsome hsome'
  · show (s.logs.logsOf taskId).Perm
      ((s.calls.alloc { task, runAt }).entries (TaskCall.logFor taskId))
    rw [Heap.entries_alloc rfl]
    exact h.logs taskId

theorem sound_coordinate (h : Sound cfg s) {action : Coordinator.Action} {coordinator : Coordinator}
    (hordinary : s.coordinator.Ordinary action)
    (hstep : s.coordinator.step cfg action = some coordinator) :
    Sound cfg { s with coordinator } where
  trusted := h.trusted.step hordinary hstep
  tracked i call hcall :=
    (h.tracked i call hcall).later (Coordinator.later_step h.trusted.inv hordinary hstep)
  unique := h.unique
  logs := h.logs
  ids_sorted := h.ids_sorted
  ids_lt := h.ids_lt

/-- The coordinator runs under the id that the task and a uuid make. -/
theorem sound_submit (h : Sound cfg s) {i : ℕ} (hcall : s.calls.get? i = some call)
    (hphase : call.phase = .started) {uuid : String}
    (hfresh : call.task.id ++ "-" ++ uuid ∉ s.coordinator.submittedIds) :
    Sound cfg (s.submit i call uuid) := by
  set request := taskRequest call.task uuid with hrequest
  have hrun : Coordinator.runIdOf request uuid = call.task.id ++ "-" ++ uuid := by
    have hne : call.task.id ++ "-" ++ uuid ≠ "" := by
      intro hempty
      have htext := congrArg String.toList hempty
      simp at htext
    simp [Coordinator.runIdOf, hrequest, taskRequest, hne]
  have hordinary : s.coordinator.Ordinary (.submit request uuid) := by
    show Coordinator.runIdOf request uuid ∉ s.coordinator.submittedIds
    rwa [hrun]
  have hstep : s.coordinator.step cfg (.submit request uuid) =
      some (s.coordinator.submitExecution request uuid).2 := rfl
  have hlater := Coordinator.later_step h.trusted.inv hordinary hstep
  have hnone : call.runId? = none := by
    unfold TaskCall.runId?
    rw [hphase]
  refine h.setCall hcall rfl rfl (h.trusted.step hordinary hstep) hlater (fun runId hsome => ?_)
    (fun taskId => ?_) ⟨uuid, ?_⟩
  · obtain rfl := Option.some.inj hsome
    exact .inr hordinary
  · unfold TaskCall.logFor
    rw [hphase]
  · show (Coordinator.runIdOf request uuid, request) ∈
      (s.coordinator.submitExecution request uuid).2.history.submitted
    rw [Coordinator.submitted_submitExecution]
    exact List.mem_append_right _ List.mem_cons_self

theorem sound_wait (h : Sound cfg s) {i : ℕ} (hcall : s.calls.get? i = some call) {runId : String}
    (hphase : call.phase = .submitted runId) (durationMs : ℕ) :
    Sound cfg (s.wait i call runId durationMs) := by
  have hasked : s.Asked call runId := by
    have htracked := h.tracked i call hcall
    unfold Tracked at htracked
    rwa [hphase] at htracked
  have hown : call.runId? = some runId := by
    unfold TaskCall.runId?
    rw [hphase]
  have hstep : s.coordinator.step cfg (.wait runId) = some (s.coordinator.waitForRun runId) := rfl
  have hordinary : s.coordinator.Ordinary (.wait runId) := trivial
  have hlater := Coordinator.later_step h.trusted.inv hordinary hstep
  have htrusted := h.trusted.step hordinary hstep
  unfold wait
  dsimp only
  split
  · -- The coordinator does not know the run, which is logged as an error.
    refine h.record hcall (fun log runId? hlogged => ?_) (fun other hother => ?_) htrusted hlater
      fun log hstatus hresult _ => .inr ⟨hstatus, hresult, fun other hother => ?_⟩
    · rw [hphase] at hlogged
      cases hlogged
    · exact hown.trans hother
    · obtain rfl := Option.some.inj hother
      exact hasked.later (t := { s with coordinator := _ }) hlater
  · rename_i hsize
    refine h.setCall hcall rfl rfl htrusted hlater (fun other hother => ?_) (fun taskId => ?_)
      ⟨hasked.later hlater, Coordinator.exists_waiter hsize⟩
    · exact .inl (hown.trans hother)
    · unfold TaskCall.logFor
      rw [hphase]

/-- A result that a waiting task goes on with is the one that was stored for its run. -/
theorem sound_resume (h : Sound cfg s) {i : ℕ} (hcall : s.calls.get? i = some call)
    {runId : String} {waiter : ℕ} (hphase : call.phase = .waiting runId waiter) {durationMs : ℕ}
    (hstep : s.resume i call runId waiter durationMs = some t) : Sound cfg t := by
  obtain ⟨hasked, w, hw, hwaits⟩ : s.Asked call runId ∧
      ∃ w, s.coordinator.waiters.get? waiter = some w ∧ w.runId = runId := by
    have htracked := h.tracked i call hcall
    unfold Tracked at htracked
    rwa [hphase] at htracked
  have hown : call.runId? = some runId := by
    unfold TaskCall.runId?
    rw [hphase]
  have hlater := Coordinator.later_refl s.coordinator
  unfold resume at hstep
  rw [hw, Option.map_some] at hstep
  cases hstate : w.state with
  | waiting =>
    rw [hstate] at hstep
    cases hstep
  | cancelledError =>
    rw [hstate] at hstep
    obtain rfl := Option.some.inj hstep
    refine h.setCall hcall rfl rfl h.trusted hlater (fun other hother => ?_) (fun taskId => ?_)
      hasked
    · exact .inl (hown.trans hother)
    · unfold TaskCall.logFor
      rw [hphase]
  | returned result =>
    rw [hstate] at hstep
    obtain rfl := Option.some.inj hstep
    obtain ⟨hstored, hrun⟩ := (h.trusted.heard waiter w hw).2 result hstate
    refine h.record hcall (fun log runId? hlogged => ?_) (fun other hother => ?_) h.trusted hlater
      fun log hstatus hresult herror => .inl ⟨runId, rfl, hasked, result, hstored,
        hrun.trans hwaits, ?_⟩
    · rw [hphase] at hlogged
      cases hlogged
    · exact hown.trans hother
    · rw [hstatus, hresult, herror]

theorem sound_fail (h : Sound cfg s) {i : ℕ} (hcall : s.calls.get? i = some call)
    (hphase : call.phase = .started) (durationMs : ℕ) (error : String) :
    Sound cfg (s.record i call none durationMs { status := .error, error := some error }) := by
  refine h.record hcall (fun log runId? hlogged => ?_) (fun runId hnone => ?_) h.trusted
    (Coordinator.later_refl s.coordinator) fun log hstatus hresult _ =>
      .inr ⟨hstatus, hresult, fun runId hnone => ?_⟩
  · rw [hphase] at hlogged
    cases hlogged
  · cases hnone
  · cases hnone

/-- **Every action keeps what is known of the executions.** -/
theorem sound_step {a : Action} (h : Sound cfg s) (hfresh : s.Fresh a)
    (hstep : step cfg s a = some t) : Sound cfg t := by
  cases a with
  | start task runAt =>
    obtain rfl := Option.some.inj hstep
    exact sound_start h task runAt
  | coordinate action =>
    obtain ⟨coordinator, hcoordinator, rfl⟩ := Option.map_eq_some_iff.mp hstep
    exact sound_coordinate h hfresh hcoordinator
  | submit j uuid =>
    simp only [step, Option.bind_eq_bind, Option.bind_eq_some_iff] at hstep
    obtain ⟨i, hof, call, hcall, hgoes⟩ := hstep
    obtain rfl := Option.some.inj hof
    simp only [advance] at hgoes
    split at hgoes
    · rename_i hphase
      obtain rfl := Option.some.inj hgoes
      exact sound_submit h hcall hphase (hfresh call hcall)
    · cases hgoes
  | wait j durationMs =>
    simp only [step, Option.bind_eq_bind, Option.bind_eq_some_iff] at hstep
    obtain ⟨i, -, call, hcall, hgoes⟩ := hstep
    simp only [advance] at hgoes
    split at hgoes
    · rename_i runId hphase
      obtain rfl := Option.some.inj hgoes
      exact sound_wait h hcall hphase durationMs
    · cases hgoes
  | resume j durationMs =>
    simp only [step, Option.bind_eq_bind, Option.bind_eq_some_iff] at hstep
    obtain ⟨i, -, call, hcall, hgoes⟩ := hstep
    simp only [advance] at hgoes
    split at hgoes
    · rename_i runId waiter hphase
      exact sound_resume h hcall hphase hgoes
    · cases hgoes
  | fail j durationMs error =>
    simp only [step, Option.bind_eq_bind, Option.bind_eq_some_iff] at hstep
    obtain ⟨i, -, call, hcall, hgoes⟩ := hstep
    simp only [advance] at hgoes
    split at hgoes
    · rename_i hphase
      obtain rfl := Option.some.inj hgoes
      exact sound_fail h hcall hphase durationMs error
    · cases hgoes

/-! ## What the logs show -/

/-- The logs of a task are those of its calls that have ended, and each tells what came of its run.
Of them, the newest are listed. -/
structure Accounted (s : TaskRuns) : Prop where
  logs : ∀ taskId, (s.logs.logsOf taskId).Perm (s.entriesOf taskId)
  ids : ∀ taskId, ((s.logs.logsOf taskId).map TaskRunLog.id).Nodup
  truthful : ∀ i call log runId?, s.calls.get? i = some call → call.phase = .logged log runId? →
    log.taskId = call.task.id ∧ log.runAt = call.runAt ∧ s.Truthful call log runId?
  /-- No two calls tell of one run. -/
  unique : ∀ i j call call' runId, s.calls.get? i = some call → s.calls.get? j = some call' →
    call.runId? = some runId → call'.runId? = some runId → i = j
  /-- Those that are left out of a list are older than all of it, and the list is full. -/
  newest : ∀ taskId limit,
    (s.logs.listLogs taskId limit).Pairwise (fun log log' =>
        toLex (log'.runAt, log'.id) < toLex (log.runAt, log.id)) ∧
      (∀ log ∈ s.logs.listLogs taskId limit, log ∈ s.entriesOf taskId) ∧
      ∀ log ∈ s.entriesOf taskId, log ∉ s.logs.listLogs taskId limit →
        (s.logs.listLogs taskId limit).length = limit ∧
          ∀ other ∈ s.logs.listLogs taskId limit,
            toLex (log.runAt, log.id) < toLex (other.runAt, other.id)

theorem Sound.accounted (h : Sound cfg s) : s.Accounted := by
  have hids (taskId : String) : ((s.logs.logsOf taskId).map TaskRunLog.id).Nodup :=
    (List.pairwise_map.mpr ((h.ids_sorted taskId).imp fun hlt => Nat.ne_of_lt hlt))
  refine ⟨h.logs, hids, fun i call log runId? hcall hphase => ?_, h.unique, fun taskId limit => ?_⟩
  · have htracked := h.tracked i call hcall
    unfold Tracked at htracked
    rwa [hphase] at htracked
  · have hkeys : ((s.logs.logsOf taskId).map fun log =>
        OrderDual.toDual (toLex (log.runAt, log.id))).Nodup := by
      refine List.Nodup.of_map (fun key => (ofLex (OrderDual.ofDual key)).2) ?_
      rw [List.map_map]
      exact hids taskId
    have hmem {log : TaskRunLog} : log ∈ s.logs.logsOf taskId ↔ log ∈ s.entriesOf taskId :=
      (h.logs taskId).mem_iff
    obtain ⟨hsorted, hlisted, hrest, -⟩ := first_sortedBy hkeys (fun _ => true) limit
    rw [List.filter_eq_self.mpr fun _ _ => rfl] at hsorted hlisted hrest
    refine ⟨hsorted.imp OrderDual.toDual_lt_toDual.mp, fun log hlog => ?_, fun log hlog hnot => ?_⟩
    · exact hmem.mp (hlisted log hlog).1
    · obtain ⟨hlength, hnewer⟩ := hrest log (hmem.mpr hlog) rfl hnot
      exact ⟨hlength, fun other hother => OrderDual.toDual_lt_toDual.mp (hnewer other hother)⟩

end TaskRuns

/-- **Every execution of a task is logged once**, when it ends and is not cancelled, with what the
coordinator stored for the run that it asked for; and the newest logs are listed. -/
theorem accounted_of_run {cfg : Config} {actions : List TaskRuns.Action} {s : TaskRuns}
    (h : Run (TaskRuns.step cfg) TaskRuns.Fresh {} actions s) : s.Accounted :=
  (h.invariant (I := TaskRuns.Sound cfg) (TaskRuns.sound_empty cfg)
    fun hsound hfresh hstep => TaskRuns.sound_step hsound hfresh hstep).accounted

/-- A task that runs twice at a time, and of whose runs one is cancelled. -/
def twoExecutions : List TaskRuns.Action :=
  let task : TaskOrder :=
    { id := "task-1", groupFolder := "home", chatJid := "web:home", prompt := "report" }
  [.start task 10, .submit 0 "a", .wait 0 0, .start task 20, .submit 1 "b", .wait 1 0,
    .coordinate (.worker 0), .coordinate (.execution 0), .coordinate (.cancel "task-1-b"),
    .coordinate (.waiter 1), .resume 1 3,
    .coordinate (.backendEnds 0 (.dict { finalOutput := some "done" })), .coordinate (.worker 0),
    .coordinate (.waiter 0), .resume 0 7]

theorem accounted_of_twoExecutions :
    ∃ s, Run (TaskRuns.step .sample) TaskRuns.Fresh {} twoExecutions s ∧
      (s.logs.listLogs "task-1" 20).map TaskRunLog.status = [.error, .success] ∧ s.Accounted := by
  have h : Run (TaskRuns.step .sample) TaskRuns.Fresh {} twoExecutions _ := .of_execute (by decide)
  exact ⟨_, h, by decide, accounted_of_run h⟩

end Portex
