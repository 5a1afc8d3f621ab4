import Portex.Coordinator.Origins
import Portex.Coordinator.Waiters

/-!
# What a submitter hears of its run

A task that waits for a run, whatever else goes on, gets a result that was stored for this run; and
where the run completed, the result is filed under the group and the slot that were asked for.

## Main definitions

* `Books.Filed`: completed runs are filed under their requests
* `Heard`: a waiting task waits on the future of its run, or has the stored result of the run
* `Trusted`: these, with the invariant of the coordinator
* `Later`: what every action keeps of the past

## Main results

* `Trusted.step`, `later_step`: every action keeps them
-/

namespace Portex

open Foundation

/-! ## Completed runs -/

namespace Books

variable {b b' : Books} {maxCompletedRuns : ℕ}

/-- The result of a completed run is filed under its request. -/
def Filed (b : Books) : Prop :=
  ∀ result ∈ b.stored, result.status = .completed →
    ∀ request, (result.runId, request) ∈ b.submitted → result.FiledUnder request

theorem Filed.congr (h : b.Filed) (hstored : b'.stored = b.stored)
    (hsubmitted : b'.submitted = b.submitted) : b'.Filed := by
  unfold Filed
  rw [hstored, hsubmitted]
  exact h

theorem Filed.store (h : b.Filed) {result : ExecutionResult}
    (hstored : b'.stored = b.stored ++ [result]) (hsubmitted : b'.submitted = b.submitted)
    (hresult : result.status = .completed → ∀ request,
      (result.runId, request) ∈ b.submitted → result.FiledUnder request) : b'.Filed := by
  intro other hother hcompleted
  rw [hstored] at hother
  rw [hsubmitted]
  rcases List.mem_append.mp hother with hbefore | hlast
  · exact h other hbefore hcompleted
  · obtain rfl := List.mem_singleton.mp hlast
    exact hresult hcompleted

theorem Filed.posting (h : b.Filed) (hretention : Retention maxCompletedRuns b)
    (k : Posting True maxCompletedRuns b b') : b'.Filed := by
  cases k with
  | quiet quiet => exact h.congr quiet.stored quiet.submitted
  | @submit runId request snapshot fresh origin =>
    intro result hresult hcompleted other hother
    rcases List.mem_append.mp hother with hbefore | hlast
    · exact h result hresult hcompleted other hbefore
    · -- No result is there before its run was submitted.
      obtain ⟨hid, -⟩ := Prod.mk.inj (List.mem_singleton.mp hlast)
      have hlisted := hretention.stored_submitted _ (List.mem_map_of_mem hresult)
      exact absurd (hid ▸ hlisted) fresh
  | store request listed unstored filed filing =>
    refine h.store filing.stored filing.submitted fun _ other hother => ?_
    rw [← hretention.request_unique listed hother]
    exact filed trivial

end Books

namespace Coordinator

variable {cfg : Config} {c c' : Coordinator}

/-- A run that fails before it starts did not complete. -/
theorem filed_failBeforeStart (h : c.books.Filed) (runId : String) (request : ExecutionRequest)
    (backend slotId error : String) :
    (c.failBeforeStart cfg runId request backend slotId error).books.Filed := by
  obtain ⟨store, result, -, hfailed, k, hk⟩ := failBeforeStart_eq cfg runId request backend slotId
    error c
  rw [hk]
  have hstored : k.apply.books.stored = c.books.stored ++ [result] := rfl
  refine h.store hstored rfl fun hcompleted => ?_
  rw [hfailed] at hcompleted
  cases hcompleted

theorem filed_stride {worker : ℕ} (h : c.books.Filed) (hinv : Inv c) (hfiles : c.FilesResults)
    (s : Stride cfg worker c c') : c'.books.Filed := by
  cases s with
  | wake | skip | finish | collectCancelled | crash => exact h
  | @reject groupFolder runId request rest backend slotId error =>
    exact filed_failBeforeStart (c := c.popped groupFolder rest) h runId request backend slotId
      error
  | @launch groupFolder runId request rest backendName head wanted =>
    have hqueued : c.statuses.get? runId = some .queued := by
      refine (hinv.queued_iff runId).mpr ⟨hinv.open_of_wanted wanted, ?_⟩
      exact hinv.entry_unstarted (head.queue ▸ List.mem_cons_self)
    have hquiet := quiet_launch (c := c.popped groupFolder rest) cfg request backendName
      (Option.isSome_iff_exists.mpr ⟨_, hqueued⟩)
    exact h.congr hquiet.stored hquiet.submitted
  | @collectResult groupFolder runId request task execution result resumes kept =>
    obtain ⟨hown, -⟩ := hinv.own_result resumes.awaits resumes.awaited resumes.done
    obtain ⟨-, -, e, he, -, hrequest⟩ := hinv.awaits _ _ _ _ _ resumes.awaits
    obtain rfl := Option.some.inj (resumes.awaited.symm.trans he)
    have hlisted := hinv.started_submitted (hinv.started_of_awaits resumes.awaits)
    have hfiling := storeTerminalResult_filing cfg result (c.resumed worker runId)
    refine h.store hfiling.stored hfiling.submitted fun _ other hother => ?_
    rw [← hinv.request_unique (hown ▸ hlisted) hother, ← hrequest]
    exact hfiles _ _ _ resumes.awaited resumes.done
  | @collectRaised groupFolder runId request task execution message =>
    exact filed_failBeforeStart (c := c.resumed worker runId) h runId request _ _ message

/-! ## Submissions -/

theorem submitted_storeTerminalResult (cfg : Config) (result : ExecutionResult)
    (c : Coordinator) :
    (c.storeTerminalResult cfg result).history.submitted = c.history.submitted :=
  (storeTerminalResult_filing cfg result c).submitted

theorem submitted_failBeforeStart (runId : String) (request : ExecutionRequest)
    (backend slotId error : String) :
    (c.failBeforeStart cfg runId request backend slotId error).history.submitted =
      c.history.submitted := by
  obtain ⟨store, result, -, -, k, hk⟩ := failBeforeStart_eq cfg runId request backend slotId error c
  rw [hk]
  rfl

theorem submitted_cancel (runId : String) :
    (c.cancel cfg runId).2.history.submitted = c.history.submitted := by
  have hpeek (request : ExecutionRequest) (backend : String) :
      (c.peekSessionId cfg request backend).2.history = c.history := by
    obtain ⟨sessionId, store, hresolve⟩ := resolveSessionId_eq cfg request backend none c
    unfold peekSessionId
    rw [hresolve]
  unfold cancel
  split
  · split
    · rfl
    · exact (submitted_storeTerminalResult cfg _ _).trans (congrArg _ (hpeek _ _))
  · split
    · rfl
    · rename_i request hrequest
      unfold cancelRunning
      dsimp only
      split
      · exact congrArg _ (hpeek _ _)
      · exact (submitted_storeTerminalResult cfg _ _).trans (congrArg _ (hpeek _ _))
  · rfl

theorem submitted_stride {worker : ℕ} (h : Inv c) (s : Stride cfg worker c c') :
    c'.history.submitted = c.history.submitted := by
  cases s with
  | wake | skip | finish | collectCancelled | crash => rfl
  | reject => exact submitted_failBeforeStart _ _ _ _ _
  | @launch groupFolder runId request rest backendName head wanted =>
    have hqueued : c.statuses.get? runId = some .queued := by
      refine (h.queued_iff runId).mpr ⟨h.open_of_wanted wanted, ?_⟩
      exact h.entry_unstarted (head.queue ▸ List.mem_cons_self)
    exact (quiet_launch (c := c.popped groupFolder rest) cfg request backendName
      (Option.isSome_iff_exists.mpr ⟨_, hqueued⟩)).submitted
  | collectResult => exact submitted_storeTerminalResult cfg _ _
  | collectRaised => exact submitted_failBeforeStart _ _ _ _ _

/-- A submission adds its run to those that were submitted. -/
theorem submitted_submitExecution (request : ExecutionRequest) (uuid : String) :
    (c.submitExecution request uuid).2.history.submitted =
      c.history.submitted ++ [(runIdOf request uuid, request)] :=
  congrArg Books.submitted (ensureWorker_frame _ _).2

/-- Nothing but a submission adds a run to those that were submitted. -/
theorem submitted_of_step {a : Action} (h : Inv c) (hstep : step cfg c a = some c')
    (hsubmit : ∀ request uuid, a ≠ .submit request uuid) :
    c'.history.submitted = c.history.submitted := by
  cases a with
  | submit request uuid => exact absurd rfl (hsubmit request uuid)
  | cancel runId =>
    obtain rfl := Option.some.inj hstep
    exact submitted_cancel runId
  | worker worker =>
    exact h.strides_keep (P := fun d => d.history.submitted = c.history.submitted)
      (workerStep_strides hstep) rfl fun hd heq s => (submitted_stride hd s).trans heq
  | execution task => exact (quiet_executionStep hstep).submitted
  | backendEnds task ending => exact (quiet_backendEndsStep hstep).submitted
  | tick =>
    obtain rfl := Option.some.inj hstep
    rfl
  | wait _ | waiter _ | cancelWaiter _ =>
    rcases step_waiter rfl hstep with ⟨waiters, rfl, -⟩ | ⟨waiter, future, -, -, rfl⟩
    · rfl
    · rfl

/-! ## Waiting tasks -/

/-- A waiting task waits on the future of its run, and one that has returned has a result that was
stored for this run. -/
def Heard (c : Coordinator) : Prop :=
  ∀ waiter w, c.waiters.get? waiter = some w →
    (w.state = .waiting → ∃ i, w.future = some i ∧ c.submittedIds[i]? = some w.runId) ∧
      ∀ result, w.state = .returned result → result ∈ c.history.stored ∧ result.runId = w.runId

/-- What every action keeps: the submissions and the results, and whom a task waits for. -/
structure Later (c c' : Coordinator) : Prop where
  submitted : c.history.submitted <+: c'.history.submitted
  stored : c.history.stored <+: c'.history.stored
  waiters : ∀ waiter w, c.waiters.get? waiter = some w →
    ∃ w', c'.waiters.get? waiter = some w' ∧ w'.runId = w.runId

theorem Heard.mono (k : c.Heard) (hwaiters : c'.waiters = c.waiters)
    (hsubmitted : c.history.submitted <+: c'.history.submitted)
    (hstored : c.history.stored <+: c'.history.stored) : c'.Heard := by
  intro waiter w hw
  obtain ⟨hwaiting, hreturned⟩ := k waiter w (hwaiters ▸ hw)
  refine ⟨fun hstate => ?_, fun result hstate => ?_⟩
  · obtain ⟨i, hi, hid⟩ := hwaiting hstate
    obtain ⟨more, hmore⟩ := hsubmitted.map Prod.fst
    refine ⟨i, hi, ?_⟩
    rw [submittedIds, ← hmore]
    exact List.getElem?_append_left (List.getElem?_eq_some_iff.mp hid).1 ▸ hid
  · exact ⟨hstored.subset (hreturned result hstate).1, (hreturned result hstate).2⟩

theorem heard_wait (k : c.Heard) (h : Inv c) (runId : String) : (c.waitForRun runId).Heard := by
  unfold waitForRun
  split
  · rename_i result hresult
    obtain ⟨hmem, hown⟩ := h.results runId result hresult
    intro waiter w hw
    rcases Heap.get?_alloc_cases hw with ⟨-, rfl⟩ | hw
    · refine ⟨nofun, fun other hother => ?_⟩
      obtain rfl := WaiterState.returned.inj hother
      exact ⟨hmem, hown⟩
    · exact k waiter w hw
  · split
    · exact k
    · rename_i i hi
      intro waiter w hw
      rcases Heap.get?_alloc_cases hw with ⟨-, rfl⟩ | hw
      · exact ⟨fun _ => ⟨i, rfl, ((h.future_iff runId i).mp hi).1⟩, nofun⟩
      · exact k waiter w hw

/-- A task resumes with what its future was resolved with. -/
theorem heard_resume (k : c.Heard) (h : Inv c) {waiter : ℕ}
    (hstep : c.waiterStep waiter = some c') : c'.Heard := by
  simp only [waiterStep, Option.bind_eq_bind, Option.bind_eq_some_iff] at hstep
  obtain ⟨i, hi, w, hw, f, hf, hresume⟩ := hstep
  obtain ⟨w', hw', hwaiting, hfuture⟩ := awaitedFuture_eq_some.mp hi
  obtain rfl := Option.some.inj (hw.symm.trans hw')
  obtain ⟨j, hj, hid⟩ := (k waiter w hw).1 hwaiting
  obtain rfl := Option.some.inj (hfuture.symm.trans hj)
  have hown : f.runId = w.runId := Option.some.inj ((h.runId_future hf).symm.trans hid)
  -- The task goes on with a result that is in the books, or it is cancelled.
  have hstate : ∃ state, c' = { c with
      waiters := c.waiters.modify waiter fun w => { w with state } } ∧ state ≠ .waiting ∧
      ∀ result, state = .returned result → result ∈ c.history.stored ∧ result.runId = w.runId := by
    unfold resumeWaiter at hresume
    cases hresolved : f.state with
    | pending =>
      rw [hresolved] at hresume
      cases hresume
    | cancelled =>
      rw [hresolved] at hresume
      exact ⟨_, (Option.some.inj hresume).symm, nofun, nofun⟩
    | resolved result =>
      rw [hresolved] at hresume
      refine ⟨_, (Option.some.inj hresume).symm, ?_, fun other hother => ?_⟩
      · split <;> nofun
      · split at hother
        · cases hother
        · obtain rfl := WaiterState.returned.inj hother
          obtain ⟨hmem, hrun⟩ := h.resolved i f result hf hresolved
          exact ⟨hmem, hrun.trans hown⟩
  obtain ⟨state, rfl, hdone, hreturned⟩ := hstate
  intro other v hv
  rcases Heap.get?_modify_cases hv with ⟨before, hbefore, rfl, rfl⟩ | ⟨-, hv⟩
  · obtain rfl := Option.some.inj (hw.symm.trans hbefore)
    exact ⟨fun hstate => absurd hstate hdone, hreturned⟩
  · exact k other v hv

theorem heard_cancelWaiter (k : c.Heard) (waiter future : ℕ) :
    (c.cancelWaiter waiter future).Heard := by
  intro other w hw
  rcases Heap.get?_modify_cases hw with ⟨before, hbefore, rfl, rfl⟩ | ⟨-, hw⟩
  · exact k _ before hbefore
  · exact k _ w hw

/-- Every action keeps what the waiting tasks hear. -/
theorem heard_step {a : Action} (k : c.Heard) (h : Inv c) (ha : c.Ordinary a)
    (hstep : step cfg c a = some c') : c'.Heard := by
  cases hof : a.ofWaiter with
  | false =>
    obtain ⟨hwaiters, hsubmitted⟩ := waiters_of_step h ha hof hstep
    exact k.mono hwaiters hsubmitted (stored_initial_of_step h ha hstep)
  | true =>
    cases a with
    | wait runId =>
      obtain rfl := Option.some.inj hstep
      exact heard_wait k h runId
    | waiter waiter => exact heard_resume k h hstep
    | cancelWaiter waiter =>
      obtain ⟨future, -, rfl⟩ := Option.map_eq_some_iff.mp hstep
      exact heard_cancelWaiter k waiter future
    | _ => cases hof

theorem later_step {a : Action} (h : Inv c) (ha : c.Ordinary a) (hstep : step cfg c a = some c') :
    Later c c' := by
  have hstored := stored_initial_of_step h ha hstep
  have hmodify (f : Waiter → Waiter) (hf : ∀ w, (f w).runId = w.runId) {waiter other : ℕ}
      {w : Waiter} (hw : c.waiters.get? other = some w) :
      ∃ w', (c.waiters.modify waiter f).get? other = some w' ∧ w'.runId = w.runId := by
    rw [Heap.get?_modify, hw]
    by_cases hother : other = waiter
    · exact ⟨f w, by simp [hother], hf w⟩
    · exact ⟨w, by simp [hother], rfl⟩
  cases hof : a.ofWaiter with
  | false =>
    obtain ⟨hwaiters, hsubmitted⟩ := waiters_of_step h ha hof hstep
    exact ⟨hsubmitted, hstored, fun waiter w hw => ⟨w, hwaiters ▸ hw, rfl⟩⟩
  | true =>
    cases a with
    | wait runId =>
      obtain rfl := Option.some.inj hstep
      have halloc {waiter : ℕ} {w : Waiter} (last : Waiter) (hw : c.waiters.get? waiter = some w) :
          (c.waiters.alloc last).get? waiter = some w := by
        rw [Heap.get?_alloc, if_neg (Heap.lt_size_of_get? hw).ne, hw]
      have hwaits : (c.waitForRun runId).history = c.history ∧
          ∀ waiter w, c.waiters.get? waiter = some w →
            (c.waitForRun runId).waiters.get? waiter = some w := by
        unfold waitForRun
        split
        · exact ⟨rfl, fun waiter w hw => halloc _ hw⟩
        · split
          · exact ⟨rfl, fun _ _ hw => hw⟩
          · exact ⟨rfl, fun waiter w hw => halloc _ hw⟩
      have hsubmitted : (c.waitForRun runId).history.submitted = c.history.submitted :=
        congrArg _ hwaits.1
      exact ⟨hsubmitted ▸ List.prefix_rfl, hstored,
        fun waiter w hw => ⟨w, hwaits.2 waiter w hw, rfl⟩⟩
    | waiter waiter =>
      simp only [step, waiterStep, Option.bind_eq_bind, Option.bind_eq_some_iff] at hstep
      obtain ⟨i, -, w, -, f, -, hresume⟩ := hstep
      obtain ⟨state, rfl⟩ : ∃ state, c' = { c with
          waiters := c.waiters.modify waiter fun w => { w with state } } := by
        unfold resumeWaiter at hresume
        split at hresume
        · cases hresume
        · exact ⟨_, (Option.some.inj hresume).symm⟩
        · exact ⟨_, (Option.some.inj hresume).symm⟩
      exact ⟨List.prefix_rfl, hstored, fun other v hv =>
        hmodify (fun w => { w with state }) (fun _ => rfl) hv⟩
    | cancelWaiter waiter =>
      obtain ⟨future, -, rfl⟩ := Option.map_eq_some_iff.mp hstep
      exact ⟨List.prefix_rfl, hstored, fun other v hv =>
        hmodify (fun w => { w with cancelRequested := true }) (fun _ => rfl) hv⟩
    | _ => cases hof

theorem later_refl (c : Coordinator) : Later c c :=
  ⟨List.prefix_rfl, List.prefix_rfl, fun _ w hw => ⟨w, hw, rfl⟩⟩

/-- Whoever waits for a run that the coordinator knows is the waiter that was made last. -/
theorem exists_waiter {runId : String}
    (hsize : ¬ (c.waitForRun runId).waiters.size = c.waiters.size) :
    ∃ w, (c.waitForRun runId).waiters.get? c.waiters.size = some w ∧ w.runId = runId := by
  unfold waitForRun at hsize ⊢
  split at hsize
  · exact ⟨_, (Heap.get?_alloc _ _ _).trans (if_pos rfl), rfl⟩
  · split at hsize
    · exact absurd rfl hsize
    · exact ⟨_, (Heap.get?_alloc _ _ _).trans (if_pos rfl), rfl⟩

/-! ## Every action -/

/-- What can be relied on of a coordinator, whatever is done with it. -/
structure Trusted (cfg : Config) (c : Coordinator) : Prop where
  inv : Inv c
  files : c.FilesResults
  retention : c.books.Retention cfg.maxCompletedRuns
  filed : c.books.Filed
  heard : c.Heard

theorem trusted_empty (cfg : Config) : Trusted cfg {} where
  inv := inv_empty
  files := by
    intro task e result he
    cases he
  retention := retention_of_run .nil
  filed := by
    intro result hmem
    cases hmem
  heard := by
    intro waiter w hw
    cases hw

theorem Trusted.step {a : Action} (h : Trusted cfg c) (ha : c.Ordinary a)
    (hstep : Coordinator.step cfg c a = some c') : Trusted cfg c' where
  inv := h.inv.step ha hstep
  files := h.files.step ha hstep
  retention := by
    have hpostings : Books.Postings False cfg.maxCompletedRuns c.books c'.books :=
      step_postings h.inv h.files ha nofun hstep
    exact hpostings.keep h.retention fun h k => h.posting k
  filed := by
    by_cases hworker : ∃ worker, a = .worker worker
    · obtain ⟨worker, rfl⟩ := hworker
      have hkept := h.inv.strides_keep (P := fun d => d.FilesResults ∧ d.books.Filed)
        (workerStep_strides hstep) ⟨h.files, h.filed⟩ fun hd hkept s =>
          ⟨hkept.1.stride s, filed_stride hkept.2 hd hkept.1 s⟩
      exact hkept.2
    · have hpostings : Books.Postings True cfg.maxCompletedRuns c.books c'.books :=
        step_postings h.inv h.files ha (fun _ worker heq => hworker ⟨worker, heq⟩) hstep
      have hkept := hpostings.keep (P := fun b => b.Retention cfg.maxCompletedRuns ∧ b.Filed)
        ⟨h.retention, h.filed⟩ fun h k => ⟨h.1.posting k, h.2.posting h.1 k⟩
      exact hkept.2
  heard := heard_step h.heard h.inv ha hstep

end Coordinator

end Portex
