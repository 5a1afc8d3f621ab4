import Portex.Coordinator.ExactlyOnce

/-!
# Committed sessions

Only completed runs should commit a session. The execution task commits, and the worker, at a
later turn of the loop, stores the result; a cancel between the two stores `cancelled` for a run
that has committed. And a cancelled backend that ignores its cancellation and completes commits
too, after its run was stored as cancelled. There is no third way.

## Main definitions

* `CommitsCompleted`: the stored results of the runs that committed are completed
* `Commits`: what ties commits to execution tasks and cancelled runs
* `Completed`: what holds while cancels and completions do not cross

## Main results

* `commitsCompleted_iff_timely`: exactly the timely runs commit completed results only
* `exists_cancelled_commit`: a cancelled run that committed
-/

namespace Portex

open Foundation

namespace Coordinator

variable {cfg : Config} {c c' : Coordinator} {guards : Guards}

/-- A run that committed a session is stored as completed, if it is stored. -/
def CommitsCompleted (c : Coordinator) : Prop :=
  ∀ r ∈ c.history.committed, ∀ result ∈ c.history.stored, result.runId = r →
    result.status = .completed

instance (c : Coordinator) : Decidable c.CommitsCompleted :=
  inferInstanceAs (Decidable (∀ r ∈ c.history.committed, ∀ result ∈ c.history.stored,
    result.runId = r → result.status = .completed))

/-- What ties commits to execution tasks and cancelled runs. -/
structure Commits (c : Coordinator) : Prop where
  done_committed : ∀ task e, c.executions.get? task = some e → Execution.hasCommitted e = true →
    e.runId ∈ c.history.committed
  cancelled_status : ∀ r ∈ c.cancelledRunIds, ∀ result ∈ c.history.stored, result.runId = r →
    result.status = .cancelled

/-- What holds while cancels and completions do not cross. -/
structure Completed (c : Coordinator) : Prop where
  committed_started : ∀ r ∈ c.history.committed, r ∈ c.startedIds
  committed_uncollected : ∀ r ∈ c.history.committed, r ∉ c.storedIds → c.HasCommitted r
  completed : c.CommitsCompleted

theorem execution_hasCommitted_iff {e : Execution} : Execution.hasCommitted e = true ↔
    usesWorkspaceSession e.backendName = true ∧
      ∃ result, e.phase = .done (.returned result) ∧ result.status = .completed := by
  unfold Execution.hasCommitted
  rw [Bool.and_eq_true]
  refine and_congr_right fun _ => ?_
  split
  · rename_i result hphase
    simp [hphase]
  · rename_i hphase
    simpa using fun result h => absurd h (hphase result)

theorem hasCommitted_iff {r : String} : c.HasCommitted r ↔ ∃ task e,
    c.runningTasks.get? r = some task ∧ c.executions.get? task = some e ∧
      Execution.hasCommitted e = true := by
  simp only [HasCommitted, Option.any_eq_true, Option.bind_eq_some_iff]
  grind

theorem hasCommitted_cancel (e : Execution) :
    Execution.hasCommitted e.cancel = Execution.hasCommitted e := by
  rw [Bool.eq_iff_iff, execution_hasCommitted_iff, execution_hasCommitted_iff]
  simp

/-- Only a task that is done has committed. -/
theorem not_hasCommitted_of_undone {e : Execution} (h : ¬ e.IsDone) :
    Execution.hasCommitted e = false := by
  rw [← Bool.not_eq_true, execution_hasCommitted_iff]
  rintro ⟨-, result, hphase, -⟩
  exact h ⟨_, hphase⟩

/-! ## Commits and execution tasks -/

theorem Closing.commits {result : ExecutionResult} (k : Closing c result) (h : Commits c)
    (hr : result.runId ∈ c.cancelledRunIds → result.status = .cancelled) : Commits k.apply where
  done_committed := h.done_committed
  cancelled_status r hc result' hmem heq := by
    rcases List.mem_append.mp hmem with hmem | hmem
    · exact h.cancelled_status r hc result' hmem heq
    · obtain rfl := List.mem_singleton.mp hmem
      exact hr (heq ▸ hc)

/-- A turn that commits is one of a completed task of a backend with sessions, and the other way
round. -/
theorem Turn.hasCommitted {e : Execution} {phase : ExecutionPhase} {calls : List BackendCall}
    {committed : List String} (t : Turn guards e phase calls committed) :
    committed = if Execution.hasCommitted { e with phase } then [e.runId] else [] := by
  cases t with
  | result _ result _ _ committed commits =>
    rw [commits]
    congr 1
    simp [execution_hasCommitted_iff]
  | _ => simp [Execution.hasCommitted]

theorem Commits.move (k : Commits c) (h : Inv c) (m : Move guards c c') : Commits c' := by
  cases m with
  | noise => exact { k with }
  | submit => exact { k with }
  | spawn => exact { k with }
  | cancelQueued closing hstatus hcancelled =>
    exact { closing.commits k fun _ => hcancelled with }
  | @cancelRunning result hstatus hbackend closing hcancelled =>
    have hopen := ((h.running_iff _).mp hstatus).1
    refine ⟨fun task e he hcommitted => ?_, fun r hr result' hmem heq => ?_⟩
    · obtain ⟨e', he', rfl | ⟨rfl, -⟩⟩ := get?_cancelExecution (c := c) he
      · exact k.done_committed task e he' hcommitted
      · rw [hasCommitted_cancel] at hcommitted
        exact e'.runId_cancel ▸ k.done_committed task e' he' hcommitted
    · rcases List.mem_append.mp hmem with hmem | hmem
      · rcases List.mem_insert_iff.mp hr with rfl | hr
        · exact absurd (List.mem_map.mpr ⟨result', hmem, heq⟩) hopen.2
        · exact k.cancelled_status r hr result' hmem heq
      · obtain rfl := List.mem_singleton.mp hmem
        exact hcancelled
  | wake => exact { k with }
  | skip => exact { k with }
  | reject active hq hwanted hfailed closing =>
    refine closing.commits { k with } fun hc => ?_
    exact absurd ((h.cancelled_iff _).mp hc).1 (h.open_of_wanted hwanted).2
  | launch active hq hwanted =>
    refine ⟨fun task e he hcommitted => ?_, k.cancelled_status⟩
    rcases Heap.get?_alloc_cases he with ⟨-, rfl⟩ | he
    · simp [Execution.hasCommitted] at hcommitted
    · exact k.done_committed task e he hcommitted
  | finish => exact { k with }
  | collectCancelled ha he hdone hcancelled =>
    exact ⟨k.done_committed, fun r hr => k.cancelled_status r (List.mem_of_mem_erase hr)⟩
  | collectResult ha he hdone hkept closing =>
    obtain ⟨rfl, -⟩ := h.own_result ha he hdone
    exact closing.commits { k with } fun hc => absurd hc hkept
  | @turn task e phase calls committed he t =>
    refine ⟨fun task' e' he' hcommitted => ?_, k.cancelled_status⟩
    rcases Heap.get?_modify_cases he' with ⟨_, hbefore, rfl, rfl⟩ | ⟨-, he'⟩
    · obtain rfl := Option.some.inj (he.symm.trans hbefore)
      refine List.mem_append_right _ ?_
      rw [t.hasCommitted, if_pos hcommitted]
      exact List.mem_cons_self
    · exact List.mem_append_left _ (k.done_committed task' e' he' hcommitted)

/-! ## Timely runs -/

/-- A run that committed and is not stored is one whose worker is to collect it. -/
theorem Completed.not_committed (k : Completed c) {r : String} (hr : r ∉ c.storedIds)
    (hn : ¬ c.HasCommitted r) : r ∉ c.history.committed :=
  fun hc => hn (k.committed_uncollected r hc hr)

/-- Storing the result of a run that has not committed, or that completed. -/
theorem Closing.completed {result : ExecutionResult} (k : Closing c result)
    (hstarted : ∀ r ∈ c.history.committed, r ∈ c.startedIds)
    (huncollected : ∀ r ∈ c.history.committed, r ∉ c.storedIds → r ≠ result.runId →
      c.HasCommitted r) (hcompleted : c.CommitsCompleted)
    (hr : result.runId ∈ c.history.committed → result.status = .completed) :
    Completed k.apply where
  committed_started := hstarted
  committed_uncollected r hc hs := by
    rw [storedIds_apply, List.mem_append, List.mem_singleton, not_or] at hs
    exact huncollected r hc hs.1 hs.2
  completed r hc result' hmem heq := by
    rcases List.mem_append.mp hmem with hmem | hmem
    · exact hcompleted r hc result' hmem heq
    · obtain rfl := List.mem_singleton.mp hmem
      exact hr (heq ▸ hc)

theorem HasCommitted.mono {r : String} (hc : c.HasCommitted r)
    (htask : c'.runningTasks.get? r = c.runningTasks.get? r)
    (hexec : ∀ task e, c.executions.get? task = some e → Execution.hasCommitted e = true →
      ∃ e', c'.executions.get? task = some e' ∧ Execution.hasCommitted e' = true) :
    c'.HasCommitted r := by
  obtain ⟨task, e, ht, he, hcommitted⟩ := hasCommitted_iff.mp hc
  obtain ⟨e', he', hcommitted'⟩ := hexec task e he hcommitted
  exact hasCommitted_iff.mpr ⟨task, e', htask.trans ht, he', hcommitted'⟩

theorem HasCommitted.cancelExecution {r : String} (hc : c.HasCommitted r) (r' : String) :
    HasCommitted { c with executions := c.cancelExecution r' } r := by
  refine hc.mono rfl fun task e he hcommitted => ?_
  simp only [Coordinator.cancelExecution]
  split
  · exact ⟨e, he, hcommitted⟩
  · rw [Heap.get?_modify]
    split
    · exact ⟨e.cancel, by rw [he]; rfl, (hasCommitted_cancel e).trans hcommitted⟩
    · exact ⟨e, he, hcommitted⟩

theorem HasCommitted.released {r r' : String} (hc : c.HasCommitted r) (hne : r ≠ r')
    (worker : ℕ) (phase : WorkerPhase) : (c.released worker r' phase).HasCommitted r :=
  hc.mono (by simp [Coordinator.released, hne]) fun _ e he hcommitted => ⟨e, he, hcommitted⟩

/-- A turn commits at most the run of its task, whose worker still awaits it. -/
theorem Completed.turn (k : Completed c) (h : Inv c) {task : ℕ} {e : Execution}
    {phase : ExecutionPhase} {calls : List BackendCall} {committed : List String}
    (he : c.executions.get? task = some e) (t : Turn .onlyTimely e phase calls committed)
    (htimely : committed ≠ [] → e.runId ∉ c.cancelledRunIds) :
    Completed (c.turned task phase calls committed) := by
  obtain ⟨worker, ha⟩ := h.undone task e he t.undone
  obtain ⟨-, htask, -⟩ := h.awaits _ _ _ _ _ ha
  have hstarted := mem_startedIds.mpr ⟨_, h.started_of_awaits ha⟩
  have hold : ∀ r ∈ c.history.committed, r ∉ c.storedIds →
      (c.turned task phase calls committed).HasCommitted r := by
    intro r hc hs
    refine (k.committed_uncollected r hc hs).mono rfl fun task' e' he' hcommitted => ?_
    simp only [turned, Heap.get?_modify]
    split
    · rename_i heq
      subst heq
      obtain rfl := Option.some.inj (he'.symm.trans he)
      rw [not_hasCommitted_of_undone t.undone] at hcommitted
      cases hcommitted
    · exact ⟨e', he', hcommitted⟩
  have hnew : ∀ r ∈ committed, r = e.runId ∧ r ∉ c.storedIds ∧
      (c.turned task phase calls committed).HasCommitted r := by
    intro r hr
    have hfresh := htimely (List.ne_nil_of_mem hr)
    rw [t.hasCommitted] at hr
    split at hr
    · rename_i hcommitted
      obtain rfl := List.mem_singleton.mp hr
      refine ⟨rfl, (h.open_of_awaits ha hfresh).2, hasCommitted_iff.mpr ⟨task, _, htask, ?_,
        hcommitted⟩⟩
      simp [turned, he]
    · cases hr
  refine ⟨fun r hc => ?_, fun r hc hs => ?_, fun r hc result hmem heq => ?_⟩
  · rcases List.mem_append.mp hc with hc | hc
    · exact k.committed_started r hc
    · exact (hnew r hc).1 ▸ hstarted
  · rcases List.mem_append.mp hc with hc | hc
    · exact hold r hc hs
    · exact (hnew r hc).2.2
  · rcases List.mem_append.mp hc with hc | hc
    · exact k.completed r hc result hmem heq
    · exact absurd (List.mem_map.mpr ⟨result, hmem, heq⟩) (hnew r hc).2.1

/-- **Timely moves** commit completed results only. -/
theorem Completed.move (k : Completed c) (h : Inv c) (m : Move .onlyTimely c c') :
    Completed c' := by
  cases m with
  | noise => exact { k with }
  | submit => exact { k with }
  | spawn => exact { k with }
  | cancelQueued closing hstatus hcancelled =>
    have hunstarted := ((h.queued_iff _).mp hstatus).2
    exact { closing.completed k.committed_started
      (fun r hc hs _ => k.committed_uncollected r hc hs) k.completed
      (fun hc => absurd (k.committed_started _ hc) hunstarted) with }
  | @cancelRunning result hstatus hbackend closing hcancelled htimely =>
    have hopen := ((h.running_iff _).mp hstatus).1
    have hnot := k.not_committed hopen.2 (htimely trivial)
    exact { closing.completed k.committed_started
      (fun r hc hs _ => (k.committed_uncollected r hc hs).cancelExecution _) k.completed
      (fun hc => absurd hc hnot) with }
  | wake => exact { k with }
  | skip => exact { k with }
  | reject active hq hwanted hfailed closing =>
    have hunstarted := h.entry_unstarted (hq ▸ List.mem_cons_self)
    exact closing.completed k.committed_started
      (fun r hc hs _ => k.committed_uncollected r hc hs) k.completed
      (fun hc => absurd (k.committed_started _ hc) hunstarted)
  | @launch worker g r q rest active hq hwanted backendName key sessionId =>
    have hunstarted := h.entry_unstarted (hq ▸ List.mem_cons_self : (r, q) ∈ c.queue g)
    refine ⟨fun r' hc => ?_, fun r' hc hs => ?_, k.completed⟩
    · rw [startedIds_launched]
      exact List.mem_append_left _ (k.committed_started r' hc)
    · have hne : r' ≠ r := fun heq => hunstarted (heq ▸ k.committed_started r' hc)
      refine (k.committed_uncollected r' hc hs).mono (by simp [launched, hne]) ?_
      intro task e he hcommitted
      exact ⟨e, by simp [launched, Nat.ne_of_lt (Heap.lt_size_of_get? he), he], hcommitted⟩
  | finish => exact { k with }
  | @collectCancelled worker g r q task e outcome ha he hdone hcancelled =>
    have hstored := ((h.cancelled_iff _).mp hcancelled).1
    refine ⟨k.committed_started, fun r' hc hs => ?_, k.completed⟩
    have hne : r' ≠ r := fun heq => hs (heq ▸ hstored)
    exact (k.committed_uncollected r' hc hs).released hne worker .active
  | @collectResult worker g r q task e result ha he hdone hkept closing =>
    obtain ⟨hown, -⟩ := h.own_result ha he hdone
    have hopen := h.open_of_awaits ha hkept
    refine closing.completed k.committed_started (fun r' hc hs hne => ?_) k.completed fun hc => ?_
    · exact (k.committed_uncollected r' hc hs).released (hown ▸ hne) worker .active
    · rw [hown] at hc
      obtain ⟨task', e', ht', he', hcommitted⟩ :=
        hasCommitted_iff.mp (k.committed_uncollected r hc hopen.2)
      obtain ⟨-, ht, -⟩ := h.awaits _ _ _ _ _ ha
      obtain rfl := Option.some.inj (ht'.symm.trans ht)
      obtain rfl := Option.some.inj (he'.symm.trans he)
      obtain ⟨-, result', hdone', hcompleted⟩ := execution_hasCommitted_iff.mp hcommitted
      rw [hdone] at hdone'
      cases hdone'
      exact hcompleted
  | turn he t htimely => exact k.turn h he t (htimely trivial)

/-- A worker that was not told does not lose a commit. -/
theorem Completed.crash (k : Completed c) (h : Inv c) {worker : ℕ} {g r : String}
    (hcrash : c.Crashes worker g r) :
    Completed ((c.forgetRunning r).setWorkerPhase worker .crashed) := by
  obtain ⟨q, task, e, ha, he, hdone, hkept⟩ := hcrash
  have hopen := h.open_of_awaits ha hkept
  refine ⟨k.committed_started, fun r' hc hs => ?_, k.completed⟩
  have hne : r' ≠ r := by
    rintro rfl
    obtain ⟨task', e', ht', he', hcommitted⟩ :=
      hasCommitted_iff.mp (k.committed_uncollected r' hc hopen.2)
    obtain ⟨-, ht, -⟩ := h.awaits _ _ _ _ _ ha
    obtain rfl := Option.some.inj (ht'.symm.trans ht)
    obtain rfl := Option.some.inj (he'.symm.trans he)
    obtain ⟨-, result, hdone', -⟩ := execution_hasCommitted_iff.mp hcommitted
    rw [hdone] at hdone'
    cases hdone'
  exact (k.committed_uncollected r' hc hs).released hne worker .crashed

theorem Completed.step {a : Action} (k : Completed c) (h : Inv c) (ha : c.Ordinary a)
    (ht : c.Timely a) (hstep : step cfg c a = some c') : Completed c' := by
  cases hof : a.ofWaiter with
  | false =>
    rcases step_moves .onlyTimely h.conforming ha hof nofun (fun _ => ht) hstep with
      hmoves | ⟨worker, g, r, -, hcrash, rfl⟩
    · exact hmoves.keep h k fun h k m => k.move h m
    · exact k.crash h hcrash
  | true =>
    rcases step_waiter hof hstep with ⟨waiters, rfl, -⟩ | ⟨waiter, future, -, -, rfl⟩
    · exact { k with }
    · exact { k with }

theorem Commits.step {a : Action} (k : Commits c) (h : Inv c) (ha : c.Ordinary a)
    (hstep : step cfg c a = some c') : Commits c' := by
  cases hof : a.ofWaiter with
  | false =>
    rcases step_moves .none h.conforming ha hof nofun nofun hstep with
      hmoves | ⟨worker, g, r, -, hcrash, rfl⟩
    · exact hmoves.keep h k fun h k m => k.move h m
    · exact { k with }
  | true =>
    rcases step_waiter hof hstep with ⟨waiters, rfl, -⟩ | ⟨waiter, future, -, -, rfl⟩
    · exact { k with }
    · exact { k with }

/-! ## Crossing cancels and completions -/

theorem Move.committed_prefix (m : Move guards c c') :
    c.history.committed <+: c'.history.committed := by
  cases m with
  | turn => exact List.prefix_append _ _
  | _ => exact List.prefix_rfl

theorem committed_prefix_of_step {a : Action} (h : Inv c) (ha : c.Ordinary a)
    (hstep : Coordinator.step cfg c a = some c') :
    c.history.committed <+: c'.history.committed := by
  cases hof : a.ofWaiter with
  | false =>
    rcases step_moves .none h.conforming ha hof nofun nofun hstep with
      hmoves | ⟨worker, g, r, -, hcrash, rfl⟩
    · exact hmoves.keep (P := fun d => c.history.committed <+: d.history.committed) h
        List.prefix_rfl fun _ k m => k.trans m.committed_prefix
    · exact List.prefix_rfl
  | true =>
    rcases step_waiter hof hstep with ⟨waiters, rfl, -⟩ | ⟨waiter, future, -, -, rfl⟩
    · exact List.prefix_rfl
    · exact List.prefix_rfl

/-- A commit that is stored as cancelled stays one. -/
theorem CommitsCompleted.of_run {l : List Action} (h : Inv c)
    (hrun : Run (step cfg) Ordinary c l c') (hc' : c'.CommitsCompleted) :
    c.CommitsCompleted := by
  obtain ⟨-, hstored, hcommitted⟩ := hrun.invariant
    (I := fun d => Inv d ∧ c.history.stored <+: d.history.stored ∧
      c.history.committed <+: d.history.committed) ⟨h, List.prefix_rfl, List.prefix_rfl⟩
    fun hd ha hstep => ⟨hd.1.step ha hstep, hd.2.1.trans (stored_initial_of_step hd.1 ha hstep),
      hd.2.2.trans (committed_prefix_of_step hd.1 ha hstep)⟩
  exact fun r hr result hmem => hc' r (hcommitted.subset hr) result (hstored.subset hmem)

theorem stored_storeTerminalResult (cfg : Config) (result : ExecutionResult) (c : Coordinator) :
    (c.storeTerminalResult cfg result).history.stored = c.history.stored ++ [result] := by
  obtain ⟨k, hk⟩ := storeTerminalResult_eq cfg result c
  rw [hk]
  rfl

/-- What `cancel` stores for a running run. -/
theorem cancel_stored (cfg : Config) {r : String} (h : Inv c)
    (hstatus : c.statuses.get? r = some .running) (hc : c.HasCommitted r) :
    ∃ result, result.runId = r ∧ result.status = .cancelled ∧
      (c.cancel cfg r).2.history.stored = c.history.stored ++ [result] := by
  obtain ⟨hsub, hstored⟩ := ((h.running_iff r).mp hstatus).1
  obtain ⟨⟨r', q⟩, hmem, rfl⟩ := List.mem_map.mp hsub
  have hrequest := (h.request_iff r' q).mpr ⟨hmem, hstored⟩
  obtain ⟨task, e, htask, -⟩ := hasCommitted_iff.mp hc
  have hsome := h.running_backend r'
  rw [htask, Option.isSome_some] at hsome
  obtain ⟨backend, hbackend⟩ := Option.isSome_iff_exists.mp hsome
  obtain ⟨sessionId, store, hpeek⟩ := resolveSessionId_eq cfg q
    (safeSelectBackendName cfg q) none c
  simp only [cancel, hstatus, hrequest, cancelRunning, peekSessionId, hpeek, hbackend,
    recordCancel, stored_storeTerminalResult]
  exact ⟨_, rfl, rfl, rfl⟩

/-- What a completion commits. -/
theorem backendEnds_committed {task : ℕ} {ending : Ending} {e : Execution}
    (hends : ending.completes = true) (he : c.executions.get? task = some e)
    (hb : usesWorkspaceSession e.backendName = true)
    (hstep : step cfg c (.backendEnds task ending) = some c') :
    e.runId ∈ c'.history.committed := by
  obtain ⟨raw, rfl⟩ : ∃ raw, ending = .dict raw := by
    cases ending with
    | dict raw => exact ⟨raw, rfl⟩
    | _ => cases hends
  have hfinish : ∀ (d : Coordinator) (result : ExecutionResult), result.status = .completed →
      e.runId ∈ (d.finishExecution task e result).history.committed := by
    intro d result hs
    simp [finishExecution, hb, hs, setExecutionPhase]
  have hcompleted : raw.status.getD .completed = .completed := beq_iff_eq.mp hends
  obtain ⟨e', he', hcall⟩ := callEnds_of_step hstep
  obtain rfl := Option.some.inj (he.symm.trans he')
  cases hcall with
  | finish called run =>
    obtain rfl := Except.ok.inj run
    exact hfinish _ _ hcompleted
  | retry _ run | fail _ run | cancelled _ run | raised _ run => cases run

/-- **Commits.** The stored results of the runs that committed are all completed if and only if
every action was timely. -/
theorem commitsCompleted_iff_timely {l : List Action} (h : Run (step cfg) Ordinary {} l c) :
    c.CommitsCompleted ↔
      Run (step cfg) (fun c a => c.Ordinary a ∧ c.Timely a) {} l c := by
  constructor
  · intro hcompleted
    rcases h.exists_violation (C := Timely) with
      hrun | ⟨l₁, a, l₂, v, w, rfl, hrun, ha, hC, hvw, hw⟩
    · exact hrun
    · have hv := hrun.mono fun _ _ h => h.1
      obtain ⟨hinv, hcommits⟩ := hv.invariant (I := fun d => Inv d ∧ Commits d)
        ⟨inv_empty, by constructor <;> simp⟩
        fun hd ha hstep => ⟨hd.1.step ha hstep, hd.2.step hd.1 ha hstep⟩
      have hwc := CommitsCompleted.of_run (hinv.step ha hvw) hw hcompleted
      exfalso
      cases a with
      | cancel r =>
        simp only [Timely, not_forall, not_not] at hC
        obtain ⟨hstatus, hcommitted⟩ := hC
        obtain ⟨result, hown, hcancelled, hstored⟩ :=
          cancel_stored cfg hinv hstatus hcommitted
        obtain ⟨task, e, ht, he, hdone⟩ := hasCommitted_iff.mp hcommitted
        obtain ⟨worker, g, q, hawaits⟩ := hinv.running_task r task ht
        obtain ⟨-, -, e', he', hr, -⟩ := hinv.awaits _ _ _ _ _ hawaits
        obtain rfl := Option.some.inj (he'.symm.trans he)
        have hmem := (committed_prefix_of_step hinv ha hvw).subset
          (hcommits.done_committed task e' he hdone)
        obtain rfl := Option.some.inj hvw
        have := hwc r (hr ▸ hmem) result (by rw [hstored]; simp) hown
        rw [hcancelled] at this
        cases this
      | backendEnds task ending =>
        simp only [Timely, not_forall, not_not] at hC
        obtain ⟨hends, e, he, hb, hcancelled⟩ := hC
        obtain ⟨result, hmem, hown⟩ :=
          List.mem_map.mp ((hinv.cancelled_iff _).mp hcancelled).1
        have hstatus := hcommits.cancelled_status _ hcancelled result hmem hown
        have := hwc _ (backendEnds_committed hends he hb hvw) result
          ((stored_initial_of_step hinv ha hvw).subset hmem) hown
        rw [hstatus] at this
        cases this
      | _ => exact hC trivial
  · intro htimely
    refine (htimely.invariant (I := fun d => Inv d ∧ Completed d)
      ⟨inv_empty, ⟨by simp, by simp, by simp [CommitsCompleted]⟩⟩ fun hd ha hstep =>
      ⟨hd.1.step ha.1 hstep, hd.2.step hd.1 ha.1 ha.2 hstep⟩).2.completed

/-- The backend completes a run, and then `last` happens. -/
def completedRun (last : List Action) : List Action :=
  [.submit (.sample "first") "", .worker 0, .execution 0, .backendEnds 0 (.dict {})] ++ last

theorem commitsCompleted_collected :
    ∃ c, Run (step .sample) Ordinary {} (completedRun [.worker 0, .cancel "first"]) c ∧
      c.history.committed = ["first"] ∧ c.CommitsCompleted := by
  have h : Run (step .sample) (fun c a => c.Ordinary a ∧ c.Timely a) {}
    (completedRun [.worker 0, .cancel "first"]) _ := .of_execute (by decide)
  have hrun := h.mono fun _ _ ha => ha.1
  exact ⟨_, hrun, by decide, (commitsCompleted_iff_timely hrun).mpr h⟩

/-- A cancelled run that committed: the cancel comes between the commit and its collection. -/
theorem exists_cancelled_commit :
    ∃ c, Run (step .sample) Ordinary {} (completedRun [.cancel "first", .worker 0]) c ∧
      ¬ c.CommitsCompleted := by
  have h : Run (step .sample) Ordinary {} (completedRun [.cancel "first", .worker 0]) _ :=
    .of_execute (by decide)
  exact ⟨_, h, by decide⟩

end Coordinator

end Portex
