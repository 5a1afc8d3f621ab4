import Portex.Coordinator.Service

/-!
# Stalled queues

A group whose deque holds an uncancelled run, or one of whose runs is running, should have a live
worker. A `CancelledError` that `cancel` did not ask for leaves `_execute_request` and ends the
worker, and nothing looks after the group until its next submission. In every other run the
workers last as long as their deques.

## Main definitions

* `NoStall`: the groups that need a worker have one
* `Told`: no worker resumes from a `CancelledError` it was not told of

## Main results

* `noStall_iff_told`: the runs without a stall are those in which every worker was told
* `exists_stall`: a run with a stall
-/

namespace Portex

open Foundation

namespace Coordinator

variable {cfg : Config} {c c' : Coordinator}

/-- A group with an uncancelled run in its deque, or with a running run, has a live worker. -/
def NoStall (c : Coordinator) : Prop :=
  ∀ g, ((∃ entry ∈ c.queue g, (entry.1, ExecutionStatus.queued) ∉ c.history.cancelled) ∨
      ∃ entry ∈ c.submittedIn g, c.statuses.get? entry.1 = some .running) → c.HasWorker g

/-- The outcome that a worker is to resume from, with its run. -/
def outcomeOf (c : Coordinator) (worker : ℕ) : Option (String × Outcome) :=
  match c.workers.get? worker with
  | some { phase := .awaiting runId _ task, .. } =>
    match (c.executions.get? task).map Execution.phase with
    | some (.done outcome) => some (runId, outcome)
    | _ => none
  | _ => none

/-- No worker resumes from a `CancelledError` of a run that `cancel` did not cancel. -/
def Told (c : Coordinator) : Action → Prop
  | .worker worker => match c.outcomeOf worker with
    | some (runId, .cancelledError) => runId ∈ c.cancelledRunIds
    | _ => True
  | _ => True

instance (c : Coordinator) : DecidablePred c.Told := fun a => by
  unfold Told
  split
  · split <;> infer_instance
  · infer_instance

theorem outcomeOf_eq_some {worker : ℕ} {r : String} {outcome : Outcome} :
    c.outcomeOf worker = some (r, outcome) ↔ ∃ g q task e,
      c.Awaits worker g r q task ∧ c.executions.get? task = some e ∧ e.phase = .done outcome := by
  unfold outcomeOf Awaits
  constructor
  · intro h
    split at h
    · rename_i g r' q task hw
      split at h
      · rename_i outcome' hdone
        obtain ⟨rfl, rfl⟩ := Prod.mk.inj (Option.some.inj h)
        obtain ⟨e, he, hphase⟩ := Option.map_eq_some_iff.mp hdone
        exact ⟨g, q, task, e, hw, he, hphase⟩
      · cases h
    · cases h
  · rintro ⟨g, q, task, e, hw, he, hphase⟩
    simp [hw, he, hphase]

theorem told_iff {a : Action} :
    c.Told a ↔ ∀ worker g r, a = .worker worker → ¬ c.Crashes worker g r := by
  constructor
  · rintro ht worker g r rfl ⟨q, task, e, ha, he, hdone, hkept⟩
    have hout := outcomeOf_eq_some.mpr ⟨g, q, task, e, ha, he, hdone⟩
    simp only [Told, hout] at ht
    exact hkept ht
  · intro hcrash
    unfold Told
    split
    · rename_i worker
      split
      · rename_i r hout
        obtain ⟨g, q, task, e, ha, he, hdone⟩ := outcomeOf_eq_some.mp hout
        by_contra hkept
        exact hcrash worker g r rfl ⟨q, task, e, ha, he, hdone, hkept⟩
      · trivial
    · trivial

theorem Served.noStall (k : Served c) (h : Inv c) : c.NoStall := by
  rintro g (⟨entry, he, -⟩ | ⟨⟨r, q⟩, hsub, hstatus⟩)
  · exact k.queue_served g (List.ne_nil_of_mem he)
  · obtain ⟨hopen, hstarted⟩ := (h.running_iff r).mp hstatus
    obtain ⟨hsub, hg⟩ := List.mem_filter.mp hsub
    obtain ⟨worker, g', q', task, ha⟩ := k.running_awaited r hstarted hopen.2
    obtain rfl : q' = q := h.request_unique (h.started_submitted (h.started_of_awaits ha)) hsub
    obtain rfl : g' = g := (h.awaits _ _ _ _ _ ha).1.symm.trans (of_decide_eq_true hg)
    exact h.hasWorker ha rfl

/-- A worker that was not told leaves its group without one, and its run running. -/
theorem Crashes.not_noStall (h : Inv c) {worker : ℕ} {g r : String} (hc : c.Crashes worker g r) :
    ¬ ((c.forgetRunning r).setWorkerPhase worker .crashed).NoStall := by
  obtain ⟨q, task, e, ha, he, hdone, hkept⟩ := hc
  intro hstall
  have hstarted := h.started_of_awaits ha
  have hopen := h.open_of_awaits ha hkept
  have hstatus : c.statuses.get? r = some .running :=
    (h.running_iff r).mpr ⟨hopen, mem_startedIds.mpr ⟨q, hstarted⟩⟩
  obtain ⟨hg, -⟩ := h.awaits _ _ _ _ _ ha
  obtain ⟨worker', w, hreg, hw, hlive⟩ := hstall g (.inr ⟨(r, q),
    List.mem_filter.mpr ⟨h.started_submitted hstarted, by simpa using hg⟩, hstatus⟩)
  have hreg' := h.live_worker worker _ ha rfl
  obtain rfl : worker' = worker := Option.some.inj (hreg.symm.trans hreg')
  rw [setWorkerPhase, forgetRunning, get?_setPhase ha, if_pos rfl] at hw
  obtain rfl := Option.some.inj hw
  cases hlive

theorem step_of_crashes {worker : ℕ} {g r : String} (hc : c.Crashes worker g r) :
    step cfg c (.worker worker) = some ((c.forgetRunning r).setWorkerPhase worker .crashed) := by
  obtain ⟨q, task, e, ha, he, hdone, hkept⟩ := hc
  have hcollect : (c.setWorkerPhase worker .active).collect cfg r q .cancelledError = none :=
    if_neg hkept
  simp [step, workerStep, ha, he, hdone, hcollect]

/-- **Stalls.** Every state of a run is without a stall if and only if no worker of the run
resumed from a `CancelledError` that it was not told of. -/
theorem noStall_iff_told {l : List Action} (h : Run (step cfg) Ordinary {} l c) :
    (∀ l₁ l₂ d, l = l₁ ++ l₂ → Run (step cfg) Ordinary {} l₁ d → d.NoStall) ↔
      Run (step cfg) (fun c a => c.Ordinary a ∧ c.Told a) {} l c := by
  refine h.always_iff_of_kept (K := fun d => Inv d ∧ Served d) ⟨inv_empty, served_empty⟩
    (fun hd => hd.2.noStall hd.1) (fun hd ha htold hstep => ?_) fun hd ha hC hstep => ?_
  · exact ⟨hd.1.step ha hstep, hd.2.step hd.1 ha (told_iff.mp htold) hstep⟩
  · -- A worker that is not told crashes, and leaves its folder without one.
    simp only [told_iff, not_forall, not_not] at hC
    obtain ⟨worker, g, r, rfl, hcrash⟩ := hC
    obtain rfl := Option.some.inj ((step_of_crashes hcrash).symm.trans hstep)
    exact hcrash.not_noStall hd.1

/-- The backend of the first run ends with a `CancelledError`, while a second run waits in the
queue and the first may have been cancelled. -/
def cancelledErrorRun (cancels : List Action) : List Action :=
  [.submit (.sample "first") "", .submit (.sample "second") "", .worker 0, .execution 0] ++
    cancels ++ [.backendEnds 0 .cancelledError, .worker 0]

theorem noStall_iff_told_cancelled :
    ∃ c, Run (step .sample) Ordinary {} (cancelledErrorRun [.cancel "first"]) c ∧
      ∀ l₁ l₂ d, cancelledErrorRun [.cancel "first"] = l₁ ++ l₂ →
        Run (step .sample) Ordinary {} l₁ d → d.NoStall := by
  have h : Run (step .sample) (fun c a => c.Ordinary a ∧ c.Told a) {}
    (cancelledErrorRun [.cancel "first"]) _ := .of_execute (by decide)
  have hrun := h.mono fun _ _ ha => ha.1
  exact ⟨_, hrun, (noStall_iff_told hrun).mpr h⟩

/-- A run with a stall: nobody cancelled the first run. -/
theorem exists_stall :
    ∃ c, Run (step .sample) Ordinary {} (cancelledErrorRun []) c ∧ ¬ c.NoStall := by
  have h : Run (step .sample) Ordinary {} (cancelledErrorRun []) _ := .of_execute (by decide)
  refine ⟨_, h, fun hstall => ?_⟩
  have hworker := hstall "home" (.inl ⟨("second", .sample "second"), by decide, by decide⟩)
  exact absurd hworker (by decide)

end Coordinator

end Portex
