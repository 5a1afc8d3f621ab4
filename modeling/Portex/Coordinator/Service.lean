import Portex.Coordinator.Invariant

/-!
# What holds while nothing interferes

Three facts about the coordinator that its invariant leaves open, each with the interference that
breaks it. A queued run stays in its deque with a pending future, unless a task that waits for it
is cancelled. A running run is awaited and a deque has a live worker, unless a `CancelledError`
ends a worker. The future of a run carries its stored result, unless a waiting task is cancelled.

## Main definitions

* `Kept`: queued runs are in their deques, and wanted
* `Served`: running runs are awaited, and deques have workers
* `Settled`: futures are pending, or carry the stored result
* `Asked`: execution tasks end with a `CancelledError` only where they were cancelled

## Main results

* `Kept.move`, `Served.move`, `Settled.move`, `Asked.move`: moves keep them
* `Asked.not_crashes`: without an unasked `CancelledError` no worker ends early
-/

namespace Portex

open Foundation

namespace Coordinator

/-- Queued runs are in their deques, and wanted. -/
structure Kept (c : Coordinator) : Prop where
  queued_entry : ∀ r q, (r, q) ∈ c.history.submitted → r ∉ c.storedIds → r ∉ c.startedIds →
    (r, q) ∈ c.queue q.groupFolder
  queued_pending : ∀ i f, c.futures.get? i = some f → f.runId ∉ c.storedIds →
    f.runId ∉ c.startedIds → f.state = .pending

/-- Running runs are awaited, and deques have workers. -/
structure Served (c : Coordinator) : Prop where
  running_awaited : ∀ r ∈ c.startedIds, r ∉ c.storedIds → c.Awaited r
  queue_served : ∀ g, c.queue g ≠ [] → c.HasWorker g

/-- Futures are pending, or carry the stored result of their run. -/
def Settled (c : Coordinator) : Prop :=
  ∀ i f, c.futures.get? i = some f → (f.state = .pending ∧ f.runId ∉ c.storedIds) ∨
    ∃ result ∈ c.history.stored, result.runId = f.runId ∧ f.state = .resolved result

/-- Execution tasks end with a `CancelledError` only where they were cancelled. -/
def Asked (c : Coordinator) : Prop :=
  ∀ task e, c.executions.get? task = some e → e.phase = .done .cancelledError →
    e.cancelRequested = true

variable {c c' : Coordinator} {guards : Guards}

/-! ## Queued runs -/

/-- An entry of a deque that is not wanted was stored. -/
theorem Kept.stored_of_unwanted (k : Kept c) (h : Inv c) {g : String}
    {entry : String × ExecutionRequest} (he : entry ∈ c.queue g)
    (hunwanted : c.wanted entry.1 = false) : entry.1 ∈ c.storedIds := by
  by_contra hstored
  have hopen : c.Open entry.1 :=
    ⟨List.mem_map.mpr ⟨entry, (h.entry_submitted he).1, rfl⟩, hstored⟩
  obtain ⟨i, hi⟩ := h.future_of_open hopen
  obtain ⟨hid, -⟩ := (h.future_iff _ _).mp hi
  rw [← h.future_ids, List.getElem?_map, Option.map_eq_some_iff] at hid
  obtain ⟨f, hf, hrun⟩ := hid
  have hf : c.futures.get? i = some f := hf
  have hpending : f.state = .pending :=
    k.queued_pending i f hf (hrun ▸ hstored) (hrun ▸ h.entry_unstarted he)
  simp [wanted, hi, hf, hpending] at hunwanted

/-- Storing the result of a run, whether or not its entry has just left the deque. -/
theorem Closing.kept {result : ExecutionResult} (k : Closing c result) (h : Ledger c)
    (hopen : c.Open result.runId)
    (hentry : ∀ r q, (r, q) ∈ c.history.submitted → r ∉ c.storedIds → r ∉ c.startedIds →
      r ≠ result.runId → (r, q) ∈ c.queue q.groupFolder)
    (hpending : ∀ i f, c.futures.get? i = some f → f.runId ∉ c.storedIds →
      f.runId ∉ c.startedIds → f.state = .pending) : Kept k.apply where
  queued_entry r q hq hs hn := by
    rw [storedIds_apply, List.mem_append, List.mem_singleton, not_or] at hs
    exact hentry r q hq hs.1 hn hs.2
  queued_pending i f hf hs hn := by
    rw [storedIds_apply, List.mem_append, List.mem_singleton, not_or] at hs
    rw [futures_apply, k.get?_futures h hopen] at hf
    obtain ⟨f', hf', rfl⟩ := Option.map_eq_some_iff.mp hf
    by_cases hown : f'.runId = result.runId
    · simp [hown] at hs
    · simp only [if_neg hown] at hs hn ⊢
      exact hpending i f' hf' hs.1 hn

/-- **Moves keep queued runs.** -/
theorem Kept.move (k : Kept c) (h : Inv c) (m : Move guards c c') : Kept c' := by
  have hsubmit : ∀ {runId request}, runId ∉ c.submittedIds → Kept (c.submitted runId request) := by
    intro runId request fresh
    refine ⟨fun r q hq hs hn => ?_, fun i f hf hs hn => ?_⟩
    · rw [queue_of_groupQueues (c := c) rfl]
      rcases List.mem_append.mp hq with hq | hq
      · have hin := k.queued_entry r q hq hs hn
        split
        · rename_i hg
          exact List.mem_append_left _ (hg ▸ hin)
        · exact hin
      · obtain ⟨rfl, rfl⟩ := Prod.mk.inj (List.mem_singleton.mp hq)
        simp
    · rw [futures_submitted] at hf
      rcases Heap.get?_alloc_cases hf with ⟨-, rfl⟩ | hf
      · rfl
      · exact k.queued_pending i f hf hs hn
  have hpop : ∀ {g r q rest}, c.queue g = (r, q) :: rest → ∀ r' q',
      (r', q') ∈ c.history.submitted → r' ∉ c.storedIds → r' ∉ c.startedIds → r' ≠ r →
      (r', q') ∈ queue { c with groupQueues := c.groupQueues.insert g rest } q'.groupFolder := by
    intro g r q rest hq r' q' hsub hs hn hne
    rw [queue_of_groupQueues (c := c) rfl]
    have hin := k.queued_entry r' q' hsub hs hn
    split
    · rename_i hg
      rw [hg, hq] at hin
      rcases List.mem_cons.mp hin with heq | hin
      · exact absurd (Prod.mk.inj heq).1 hne
      · exact hin
    · exact hin
  cases m with
  | noise => exact { k with }
  | submit fresh => exact hsubmit fresh
  | spawn fresh => exact { hsubmit fresh with }
  | cancelQueued closing hstatus =>
    have hopen := ((h.queued_iff _).mp hstatus).1
    exact { closing.kept h.toLedger hopen (fun r q hq hs hn _ => k.queued_entry r q hq hs hn)
      k.queued_pending with }
  | cancelRunning hstatus hbackend closing =>
    have hopen := ((h.running_iff _).mp hstatus).1
    exact { closing.kept { h.toLedger with } hopen
      (fun r q hq hs hn _ => k.queued_entry r q hq hs hn) k.queued_pending with }
  | wake => exact { k with }
  | @skip worker g r q rest active hq hunwanted =>
    have hstored := k.stored_of_unwanted h (hq ▸ List.mem_cons_self) hunwanted
    refine { k with queued_entry := fun r' q' hsub hs hn => ?_ }
    exact hpop hq r' q' hsub hs hn fun heq => hs (heq ▸ hstored)
  | reject active hq hwanted hfailed closing =>
    exact closing.kept { h.toLedger with } (h.open_of_wanted hwanted) (hpop hq) k.queued_pending
  | @launch worker g r q rest active hq hwanted =>
    refine ⟨fun r' q' hsub hs hn => ?_, fun i f hf hs hn => ?_⟩
    · rw [startedIds_launched, List.mem_append, List.mem_singleton, not_or] at hn
      exact hpop hq r' q' hsub hs hn.1 hn.2
    · rw [startedIds_launched, List.mem_append, not_or] at hn
      exact k.queued_pending i f hf hs hn.1
  | finish => exact { k with }
  | collectCancelled => exact { k with }
  | collectResult ha he hdone hkept closing =>
    obtain ⟨rfl, -⟩ := h.own_result ha he hdone
    exact closing.kept { h.toLedger with } (h.open_of_awaits ha hkept)
      (fun r q hq hs hn _ => k.queued_entry r q hq hs hn) k.queued_pending
  | turn => exact { k with }

/-! ## Running runs -/

/-- A worker that changes to a live phase stays the worker of its group. -/
theorem hasWorker_setPhase {g : String} {worker : ℕ} {w : Worker} {phase : WorkerPhase}
    (hw : c.workers.get? worker = some w) (hphase : phase.done = false)
    (hgroups : c'.groupWorkers = c.groupWorkers)
    (hc : c'.workers = c.workers.modify worker fun w => { w with phase })
    (h : c.HasWorker g) : c'.HasWorker g := by
  obtain ⟨worker', w', hg, hw', hdone⟩ := h
  by_cases heq : worker' = worker
  · subst heq
    exact ⟨worker', _, hgroups ▸ hg, by rw [hc, get?_setPhase hw, if_pos rfl], hphase⟩
  · exact ⟨worker', w', hgroups ▸ hg, by rw [hc, get?_setPhase hw, if_neg heq, hw'], hdone⟩

/-- The worker whose code runs is the worker of its group. -/
theorem Tasks.hasWorker (h : Tasks c) {worker : ℕ} {w : Worker}
    (hw : c.workers.get? worker = some w) (hdone : w.phase.done = false) :
    c.HasWorker w.groupFolder :=
  ⟨worker, w, h.live_worker worker w hw hdone, hw, hdone⟩

theorem queue_ne_nil_of_pop {g r : String} {q : ExecutionRequest}
    {rest : List (String × ExecutionRequest)} (hq : c.queue g = (r, q) :: rest)
    (hc : c'.groupQueues = c.groupQueues.insert g rest) {g' : String} (h : c'.queue g' ≠ []) :
    c.queue g' ≠ [] := by
  rw [queue_of_groupQueues hc] at h
  split at h
  · rename_i heq
    rw [heq, hq]
    exact List.cons_ne_nil _ _
  · exact h

/-- Storing a result. -/
theorem Closing.served {result : ExecutionResult} (k : Closing c result)
    (hrunning : ∀ r ∈ c.startedIds, r ∉ c.storedIds → r ≠ result.runId → c.Awaited r)
    (hqueue : ∀ g, c.queue g ≠ [] → c.HasWorker g) : Served k.apply where
  running_awaited r hr hs := by
    rw [storedIds_apply, List.mem_append, List.mem_singleton, not_or] at hs
    exact hrunning r hr hs.1 hs.2
  queue_served := hqueue

/-- A worker that dropped or is to store the run it awaited. -/
theorem Served.release (k : Served c) (h : Inv c) {worker task : ℕ} {g r : String}
    {q : ExecutionRequest} (ha : c.Awaits worker g r q task) :
    (∀ r' ∈ c.startedIds, r' ∉ c.storedIds → r' ≠ r →
        (c.released worker r .active).Awaited r') ∧
      ∀ g', c.queue g' ≠ [] → (c.released worker r .active).HasWorker g' :=
  ⟨fun r' hr hs hne =>
      (h.awaited_release .active ha nofun r').mpr ⟨k.running_awaited r' hr hs, hne⟩,
    fun g' hq => hasWorker_setPhase ha rfl rfl rfl (k.queue_served g' hq)⟩

theorem Served.submit (k : Served c) {runId : String} {request : ExecutionRequest}
    {g : String} (hg : g ≠ request.groupFolder) (hq : (c.submitted runId request).queue g ≠ []) :
    c.HasWorker g := by
  rw [queue_of_groupQueues (c := c) rfl, if_neg hg] at hq
  exact k.queue_served g hq

/-- **Moves keep running runs**, and the workers of the deques. -/
theorem Served.move (k : Served c) (h : Inv c) (m : Move guards c c') : Served c' := by
  cases m with
  | noise => exact { k with }
  | @submit runId request fresh live =>
    refine { k with queue_served := fun g hq => ?_ }
    by_cases hg : g = request.groupFolder
    · exact hg ▸ live
    · exact k.submit hg hq
  | @spawn runId request fresh =>
    refine ⟨fun r hr hs => (awaited_alloc rfl r).mpr (k.running_awaited r hr hs), fun g hq => ?_⟩
    by_cases hg : g = request.groupFolder
    · exact ⟨c.workers.size, { groupFolder := request.groupFolder }, by simp [spawned, submitted, hg],
        by simp [spawned, submitted], rfl⟩
    · obtain ⟨worker, w, hreg, hw, hdone⟩ := k.submit hg hq
      refine ⟨worker, w, by simp [spawned, submitted, hg, hreg], ?_, hdone⟩
      simp [spawned, submitted, Nat.ne_of_lt (Heap.lt_size_of_get? hw), hw]
  | cancelQueued closing hstatus =>
    exact { closing.served (fun r hr hs _ => k.running_awaited r hr hs) k.queue_served with }
  | cancelRunning hstatus hbackend closing =>
    exact { closing.served (fun r hr hs _ => k.running_awaited r hr hs) k.queue_served with }
  | wake hw =>
    exact ⟨fun r hr hs => (awaited_setPhase hw (by simp) (by simp) rfl r).mpr
      (k.running_awaited r hr hs),
      fun g hq => hasWorker_setPhase hw rfl rfl rfl (k.queue_served g hq)⟩
  | skip active hq hunwanted =>
    exact { k with queue_served := fun g hne => k.queue_served g (queue_ne_nil_of_pop hq rfl hne) }
  | reject active hq hwanted hfailed closing =>
    exact closing.served (fun r hr hs _ => k.running_awaited r hr hs)
      fun g hne => k.queue_served g (queue_ne_nil_of_pop hq rfl hne)
  | @launch worker g r q rest active hq hwanted =>
    refine ⟨fun r' hr hs => ?_, fun g' hne => ?_⟩
    · rw [startedIds_launched, List.mem_append, List.mem_singleton] at hr
      rw [awaited_launched active]
      exact hr.imp_left fun hr => k.running_awaited r' hr hs
    · exact hasWorker_setPhase active rfl rfl rfl
        (k.queue_served g' (queue_ne_nil_of_pop hq rfl hne))
  | @finish worker g active hempty =>
    refine ⟨fun r hr hs => (awaited_setPhase active (by simp) (by simp) rfl r).mpr
      (k.running_awaited r hr hs), fun g' hq => ?_⟩
    have hne : g' ≠ g := fun heq => hq (heq ▸ hempty)
    obtain ⟨worker', w, hreg, hw, hdone⟩ := k.queue_served g' hq
    have hother : worker' ≠ worker := by
      rintro rfl
      obtain ⟨phase, hphase⟩ := h.group_worker g' worker' hreg
      exact hne (Worker.mk.inj (Option.some.inj (hphase.symm.trans active))).1
    exact ⟨worker', w, by simp [hne, hreg], by simp [hother, hw], hdone⟩
  | collectCancelled ha he hdone hcancelled =>
    have hstored := ((h.cancelled_iff _).mp hcancelled).1
    obtain ⟨hrunning, hqueue⟩ := k.release h ha
    exact ⟨fun r hr hs => hrunning r hr hs fun heq => hs (heq ▸ hstored), hqueue⟩
  | collectResult ha he hdone hkept closing =>
    obtain ⟨rfl, -⟩ := h.own_result ha he hdone
    obtain ⟨hrunning, hqueue⟩ := k.release h ha
    exact closing.served hrunning hqueue
  | turn => exact { k with }

/-! ## Futures -/

theorem Closing.settled {result : ExecutionResult} (k : Closing c result) (h : Ledger c)
    (hopen : c.Open result.runId) (hsettled : c.Settled) : k.apply.Settled := by
  intro i f hf
  rw [futures_apply, k.get?_futures h hopen] at hf
  obtain ⟨f', hf', rfl⟩ := Option.map_eq_some_iff.mp hf
  rw [stored_apply, storedIds_apply]
  by_cases hown : f'.runId = result.runId
  · rcases hsettled i f' hf' with ⟨hpending, -⟩ | ⟨result', hmem, hrun, -⟩
    · refine .inr ⟨result, by simp, ?_, ?_⟩
      · simp [hown]
      · simp [hown, Future.setResult, hpending]
    · exact absurd (List.mem_map.mpr ⟨result', hmem, hrun.trans hown⟩) hopen.2
  · rw [if_neg hown]
    rcases hsettled i f' hf' with ⟨hpending, hs⟩ | ⟨result', hmem, hrun, hstate⟩
    · exact .inl ⟨hpending, by simp [hs, hown]⟩
    · exact .inr ⟨result', List.mem_append_left _ hmem, hrun, hstate⟩

/-- **Moves keep the futures settled.** -/
theorem Settled.move (k : c.Settled) (h : Inv c) (m : Move guards c c') : c'.Settled := by
  have hsubmit : ∀ {runId request}, runId ∉ c.submittedIds →
      (c.submitted runId request).Settled := by
    intro runId request fresh i f hf
    rw [futures_submitted] at hf
    rcases Heap.get?_alloc_cases hf with ⟨-, rfl⟩ | hf
    · exact .inl ⟨rfl, fun hs => fresh (h.stored_submitted _ hs)⟩
    · exact k i f hf
  cases m with
  | noise => exact k
  | submit fresh => exact hsubmit fresh
  | spawn fresh => exact hsubmit fresh
  | cancelQueued closing hstatus =>
    exact closing.settled h.toLedger ((h.queued_iff _).mp hstatus).1 k
  | cancelRunning hstatus hbackend closing =>
    have hopen := ((h.running_iff _).mp hstatus).1
    exact closing.settled { h.toLedger with } hopen k
  | wake => exact k
  | skip => exact k
  | reject active hq hwanted hfailed closing =>
    exact closing.settled { h.toLedger with } (h.open_of_wanted hwanted) k
  | launch => exact k
  | finish => exact k
  | collectCancelled => exact k
  | collectResult ha he hdone hkept closing =>
    obtain ⟨rfl, -⟩ := h.own_result ha he hdone
    exact closing.settled { h.toLedger with } (h.open_of_awaits ha hkept) k
  | turn => exact k

/-! ## Unasked `CancelledError`s -/

/-- **Moves keep what was asked**, where only cancelled tasks end with a `CancelledError`. -/
theorem Asked.move (k : c.Asked) (m : Move .onlyRequested c c') : c'.Asked := by
  cases m with
  | noise => exact k
  | submit => exact k
  | spawn => exact k
  | cancelQueued => exact k
  | @cancelRunning result =>
    intro task e he hdone
    obtain ⟨e', he', rfl | ⟨rfl, -⟩⟩ := get?_cancelExecution (c := c) he
    · exact k task e he' hdone
    · rw [Execution.phase_cancel] at hdone
      rw [e'.cancel_of_done ⟨_, hdone⟩]
      exact k task e' he' hdone
  | wake => exact k
  | skip => exact k
  | reject => exact k
  | launch =>
    intro task e he hdone
    rcases Heap.get?_alloc_cases he with ⟨-, rfl⟩ | he
    · cases hdone
    · exact k task e he hdone
  | finish => exact k
  | collectCancelled => exact k
  | collectResult => exact k
  | @turn task e phase calls committed he t =>
    intro task' e' he' hdone
    rcases Heap.get?_modify_cases he' with ⟨_, hbefore, rfl, rfl⟩ | ⟨-, he'⟩
    · obtain rfl := Option.some.inj (he.symm.trans hbefore)
      cases t with
      | call => cases hdone
      | drop _ hdropped => exact hdropped
      | retry => cases hdone
      | cancelled _ hasked => exact hasked trivial
      | result => cases hdone
    · exact k task' e' he' hdone

/-- A worker only resumes from the `CancelledError`s that `cancel` asked for. -/
theorem Asked.not_crashes (k : c.Asked) (h : Inv c) (worker : ℕ) (g r : String) :
    ¬ c.Crashes worker g r := by
  rintro ⟨q, task, e, ha, he, hdone, hkept⟩
  obtain ⟨-, -, e', he', hr, -⟩ := h.awaits _ _ _ _ _ ha
  obtain rfl := Option.some.inj (he.symm.trans he')
  have hstored := h.requested task e he (k task e he hdone)
  exact hkept ((h.cancelled_iff r).mpr ⟨hr ▸ hstored, worker, g, q, task, ha⟩)

/-! ## Actions -/

variable {cfg : Config} {a : Action}

theorem Kept.step (k : Kept c) (h : Inv c) (ha : c.Ordinary a)
    (hw : ∀ waiter, a ≠ .cancelWaiter waiter) (hstep : step cfg c a = some c') : Kept c' := by
  cases hof : a.ofWaiter with
  | false =>
    rcases step_moves .none h.conforming ha hof nofun nofun hstep with
      hmoves | ⟨worker, g, r, -, hcrash, rfl⟩
    · exact hmoves.keep h k fun h k m => k.move h m
    · exact { k with }
  | true =>
    rcases step_waiter hof hstep with ⟨waiters, rfl, -⟩ | ⟨waiter, future, rfl, -⟩
    · exact { k with }
    · exact absurd rfl (hw waiter)

theorem Settled.step (k : c.Settled) (h : Inv c) (ha : c.Ordinary a)
    (hw : ∀ waiter, a ≠ .cancelWaiter waiter) (hstep : step cfg c a = some c') : c'.Settled := by
  cases hof : a.ofWaiter with
  | false =>
    rcases step_moves .none h.conforming ha hof nofun nofun hstep with
      hmoves | ⟨worker, g, r, -, hcrash, rfl⟩
    · exact hmoves.keep h k fun h k m => Settled.move k h m
    · exact k
  | true =>
    rcases step_waiter hof hstep with ⟨waiters, rfl, -⟩ | ⟨waiter, future, rfl, -⟩
    · exact k
    · exact absurd rfl (hw waiter)

theorem Served.step (k : Served c) (h : Inv c) (ha : c.Ordinary a)
    (hcrash : ∀ worker g r, a = .worker worker → ¬ c.Crashes worker g r)
    (hstep : step cfg c a = some c') : Served c' := by
  cases hof : a.ofWaiter with
  | false =>
    rcases step_moves .none h.conforming ha hof nofun nofun hstep with
      hmoves | ⟨worker, g, r, hworker, hcrashes, -⟩
    · exact hmoves.keep h k fun h k m => k.move h m
    · exact absurd hcrashes (hcrash worker g r hworker)
  | true =>
    rcases step_waiter hof hstep with ⟨waiters, rfl, -⟩ | ⟨waiter, future, -, -, rfl⟩
    · exact { k with }
    · exact { k with }

theorem Asked.step (k : c.Asked) (h : Inv c) (ha : c.Ordinary a)
    (hasked : ∀ task, a = .backendEnds task .cancelledError → c.CancelRequested task)
    (hstep : step cfg c a = some c') : c'.Asked := by
  cases hof : a.ofWaiter with
  | false =>
    rcases step_moves .onlyRequested h.conforming ha hof (fun _ => hasked) nofun hstep with
      hmoves | ⟨worker, g, r, -, hcrash, rfl⟩
    · exact hmoves.keep h k fun _ k m => Asked.move k m
    · exact k
  | true =>
    rcases step_waiter hof hstep with ⟨waiters, rfl, -⟩ | ⟨waiter, future, -, -, rfl⟩
    · exact k
    · exact k

/-! ## The start -/

theorem kept_empty : Kept {} where
  queued_entry := by simp
  queued_pending := by simp

theorem served_empty : Served {} where
  running_awaited := by simp [startedIds]
  queue_served := by simp [queue, Dict.getD]

theorem settled_empty : Settled {} := by simp [Settled]

theorem asked_empty : Asked {} := by simp [Asked]

end Coordinator

end Portex
