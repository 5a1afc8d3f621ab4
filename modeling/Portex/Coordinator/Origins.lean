import Portex.Coordinator.Retention
import Portex.Coordinator.Commit

/-!
# Where runs come from

The snapshot of a run reports the group, the slot, the user, the chat and the source of its
request, and its result the group and the slot. The result for an unknown backend alone is built
without a slot id, and puts its run into the default slot.

## Main definitions

* `Books.Identified`: snapshots and results agree with the requests of their runs
* `Coordinator.KeepsSlots`: no run of another slot is rejected for an unknown backend

## Main results

* `Books.Identified.posting`: a proper posting keeps the identity of runs
* `drainQueue_identified`: what the worker loop makes of it
* `identified_iff`: when the identity of runs is kept
-/

namespace Portex

open Foundation

namespace Books

variable {b b' : Books} {maxCompletedRuns : ℕ}

/-- Snapshots and results agree with the requests of their runs. -/
structure Identified (b : Books) : Prop where
  snapshot : ∀ r request snapshot, (r, request) ∈ b.submitted →
    b.snapshots.get? r = some snapshot → snapshot.origin = request.origin
  result : ∀ request result, (result.runId, request) ∈ b.submitted → result ∈ b.stored →
    result.FiledUnder request

theorem identified_iff_originOf : b.Identified ↔
    (∀ r request origin, (r, request) ∈ b.submitted → b.originOf r = some origin →
      origin = request.origin) ∧
    ∀ request result, (result.runId, request) ∈ b.submitted → result ∈ b.stored →
      result.FiledUnder request := by
  constructor
  · rintro ⟨hsnapshot, hresult⟩
    refine ⟨fun r request origin hlisted horigin => ?_, hresult⟩
    obtain ⟨snapshot, hget, rfl⟩ := Option.map_eq_some_iff.mp horigin
    exact hsnapshot r request snapshot hlisted hget
  · rintro ⟨hsnapshot, hresult⟩
    refine ⟨fun r request snapshot hlisted hget => ?_, hresult⟩
    exact hsnapshot r request _ hlisted (Option.map_eq_some_iff.mpr ⟨snapshot, hget, rfl⟩)

theorem Retention.request_unique (h : Retention maxCompletedRuns b) {r : String}
    {request request' : ExecutionRequest} (hr : (r, request) ∈ b.submitted)
    (hr' : (r, request') ∈ b.submitted) : request = request' :=
  (Prod.mk.inj (List.inj_on_of_nodup_map h.submitted_nodup hr hr' rfl)).2

theorem Identified.quiet (h : b.Identified) (k : Quiet b b') : b'.Identified := by
  rw [identified_iff_originOf] at h ⊢
  rw [k.submitted, k.stored]
  refine ⟨fun r request origin hlisted horigin => ?_, h.2⟩
  rw [k.origins] at horigin
  exact h.1 r request origin hlisted horigin

theorem Identified.submit (h : b.Identified) (hretention : Retention maxCompletedRuns b)
    {runId : String} {request : ExecutionRequest} {snapshot : ExecutionRunSnapshot}
    (fresh : runId ∉ b.submitted.map Prod.fst) (origin : snapshot.origin = request.origin) :
    Identified
      { b with
        statuses := b.statuses.insert runId .queued
        snapshots := b.snapshots.insert runId snapshot
        submitted := b.submitted ++ [(runId, request)] } := by
  have hsplit : ∀ {r q}, (r, q) ∈ b.submitted ++ [(runId, request)] →
      ((r, q) ∈ b.submitted ∧ r ≠ runId) ∨ (r = runId ∧ q = request) := by
    intro r q hrq
    rcases List.mem_append.mp hrq with hrq | hrq
    · refine .inl ⟨hrq, fun hr => fresh ?_⟩
      exact hr ▸ List.mem_map_of_mem (f := Prod.fst) hrq
    · exact .inr (Prod.mk.inj (List.mem_singleton.mp hrq))
  constructor
  · intro r q other hrq hget
    simp only [Dict.get?_insert] at hget
    rcases hsplit hrq with ⟨hold, hne⟩ | ⟨rfl, rfl⟩
    · rw [if_neg hne] at hget
      exact h.snapshot r q other hold hget
    · rw [if_pos rfl] at hget
      obtain rfl := Option.some.inj hget
      exact origin
  · intro q result hrq hstored
    rcases hsplit hrq with ⟨hold, -⟩ | ⟨hr, -⟩
    · exact h.result q result hold hstored
    · exact absurd (hr ▸ hretention.stored_submitted _ (List.mem_map.mpr ⟨_, hstored, rfl⟩)) fresh

theorem Identified.store (h : b.Identified) (hretention : Retention maxCompletedRuns b)
    {result : ExecutionResult} {request : ExecutionRequest}
    (listed : (result.runId, request) ∈ b.submitted) (filed : result.FiledUnder request)
    (k : Filing maxCompletedRuns result b b') : b'.Identified := by
  rw [identified_iff_originOf] at h ⊢
  rw [k.submitted, k.stored]
  constructor
  · intro r q origin hrq horigin
    rw [k.origins] at horigin
    split at horigin
    · cases horigin
    · obtain ⟨before, hbefore, rfl⟩ := Option.map_eq_some_iff.mp horigin
      have hq := h.1 r q before hrq hbefore
      split
      · rename_i hr
        -- The slot of the snapshot is set to that of the result.
        obtain rfl := hretention.request_unique (hr ▸ hrq) listed
        rw [hq, filed.2]
        rfl
      · exact hq
  · intro q other hrq hstored
    rcases List.mem_append.mp hstored with hstored | hstored
    · exact h.2 q other hrq hstored
    · obtain rfl := List.mem_singleton.mp hstored
      exact hretention.request_unique listed hrq ▸ filed

/-- **A proper posting keeps the identity of runs.** -/
theorem Identified.posting {proper : Prop} (h : b.Identified)
    (hretention : Retention maxCompletedRuns b) (hproper : proper)
    (k : Posting proper maxCompletedRuns b b') : b'.Identified := by
  cases k with
  | quiet quiet => exact h.quiet quiet
  | submit fresh origin => exact h.submit hretention fresh origin
  | store request listed unstored filed filing =>
    exact h.store hretention listed (filed hproper) filing

theorem Identified.postings {proper : Prop} (h : b.Identified)
    (hretention : Retention maxCompletedRuns b) (hproper : proper)
    (k : Postings proper maxCompletedRuns b b') : b'.Identified :=
  (k.keep (P := fun b => Retention maxCompletedRuns b ∧ b.Identified) ⟨hretention, h⟩
    fun hb k => ⟨hb.1.posting k, hb.2.posting hb.1 hproper k⟩).2

theorem Postings.stored_initial {proper : Prop} (k : Postings proper maxCompletedRuns b b') :
    b.submitted <+: b'.submitted ∧ b.stored <+: b'.stored := by
  refine k.keep (P := fun d => b.submitted <+: d.submitted ∧ b.stored <+: d.stored)
    ⟨List.prefix_rfl, List.prefix_rfl⟩ ?_
  rintro d d' ⟨hsubmitted, hstored⟩ k
  cases k with
  | quiet quiet =>
    rw [quiet.submitted, quiet.stored]
    exact ⟨hsubmitted, hstored⟩
  | submit => exact ⟨hsubmitted.trans (List.prefix_append _ _), hstored⟩
  | store request listed unstored filed filing =>
    rw [filing.submitted, filing.stored]
    exact ⟨hsubmitted, hstored.trans (List.prefix_append _ _)⟩

end Books

/-- A coordinator whose policy names a backend that it does not have. -/
def Config.misnamed : Config := { Config.sample with backends := ["container"] }

namespace Coordinator

open Books

variable {cfg : Config} {worker : ℕ} {c c' : Coordinator}

/-! ## The condition -/

/-- The policy names a backend that the coordinator has. -/
def served (cfg : Config) (request : ExecutionRequest) : Bool :=
  match cfg.selectBackend request with
  | .ok backendName => backendName ∈ cfg.backends
  | .error _ => false

/-- The entries of a deque that the loop of `_run_group_queue` rejects, before it launches one. -/
def rejected (cfg : Config) (c : Coordinator) :
    List (String × ExecutionRequest) → List (String × ExecutionRequest)
  | [] => []
  | (runId, request) :: rest =>
    if c.wanted runId then
      if served cfg request then [] else (runId, request) :: rejected cfg c rest
    else rejected cfg c rest

/-- The group whose deque a turn of the worker goes through: a worker that is ended by a
`CancelledError` does not get there. -/
def drains (worker : ℕ) (c : Coordinator) : Option String :=
  match c.workers.get? worker with
  | some { groupFolder, phase := .scheduled } => some groupFolder
  | some { groupFolder, phase := .awaiting runId _ task } =>
    match (c.executions.get? task).map Execution.phase with
    | some (.done outcome) =>
      if outcome = .cancelledError ∧ runId ∉ c.cancelledRunIds then none else some groupFolder
    | _ => none
  | _ => none

/-- A request for a backend that the coordinator does not have is one for the default slot. -/
def SlotKept (cfg : Config) (request : ExecutionRequest) : Prop :=
  (cfg.selectBackend request).isOk = true → served cfg request = false → request.slotId = "main"

instance (cfg : Config) : DecidablePred (SlotKept cfg) := fun _ =>
  inferInstanceAs (Decidable (_ → _ → _))

/-- No worker rejects a run of another slot than the default one for an unknown backend. -/
def KeepsSlots (cfg : Config) (c : Coordinator) : Action → Prop
  | .worker worker => ∀ groupFolder ∈ c.drains worker,
      ∀ entry ∈ rejected cfg c (c.queue groupFolder), SlotKept cfg entry.2
  | _ => True

instance (cfg : Config) (c : Coordinator) : DecidablePred (KeepsSlots cfg c)
  | .worker worker =>
    inferInstanceAs (Decidable (∀ groupFolder ∈ c.drains worker,
      ∀ entry ∈ rejected cfg c (c.queue groupFolder), SlotKept cfg entry.2))
  | .submit _ _ | .cancel _ | .execution _ | .backendEnds _ _ | .wait _ | .waiter _
  | .cancelWaiter _ | .tick => inferInstanceAs (Decidable True)

/-- A rejection keeps the slot exactly where the request does. -/
theorem Rejection.slot_iff {request : ExecutionRequest} {backend slotId error : String}
    (h : Rejection cfg request backend slotId error) :
    served cfg request = false ∧ (slotId = request.slotId ↔ SlotKept cfg request) := by
  cases h with
  | policy selected => simp [served, SlotKept, selected, Except.isOk, Except.toBool]
  | backend selected unknown =>
    simp [served, SlotKept, selected, Except.isOk, Except.toBool, unknown, eq_comm]

/-! ## The worker loop -/

/-- Which runs are wanted does not change where another one ends. -/
theorem wanted_closing (h : Ledger c) {result : ExecutionResult} (k : Closing c result)
    (hopen : c.Open result.runId) {r : String} (hr : r ≠ result.runId) :
    k.apply.wanted r = c.wanted r := by
  unfold wanted
  simp only [Closing.runFutures_apply, Closing.futures_apply, Dict.get?_erase, if_neg hr]
  cases hi : c.runFutures.get? r with
  | none => rfl
  | some i =>
    simp only
    rw [k.get?_futures h hopen]
    cases hf : c.futures.get? i with
    | none => rfl
    | some f =>
      have hown : f.runId = r := Option.some.inj
        ((h.runId_future hf).symm.trans ((h.future_iff r i).mp hi).1)
      rw [Option.map_some, if_neg (hown ▸ hr)]

theorem rejected_congr {queue : List (String × ExecutionRequest)}
    (h : ∀ entry ∈ queue, c'.wanted entry.1 = c.wanted entry.1) :
    rejected cfg c' queue = rejected cfg c queue := by
  induction queue with
  | nil => rfl
  | cons entry rest ih =>
    have hrest := ih fun e he => h e (List.mem_cons_of_mem _ he)
    unfold rejected
    rw [h entry List.mem_cons_self, hrest]

/-- The runs of a deque are different. -/
theorem Inv.queue_nodup (h : Inv c) (groupFolder : String) :
    ((c.queue groupFolder).map Prod.fst).Nodup := by
  obtain ⟨passed, hpassed, -⟩ := h.fifo groupFolder
  have hin : ((c.submittedIn groupFolder).map Prod.fst).Nodup :=
    h.submitted_nodup.sublist (List.filter_sublist.map _)
  rw [hpassed, List.map_append] at hin
  exact (List.nodup_append'.mp hin).2.1

/-- What a rejection stores. -/
theorem stored_failBeforeStart (cfg : Config) (runId : String) (request : ExecutionRequest)
    (backend slotId error : String) (c : Coordinator) :
    ∃ result ∈ (c.failBeforeStart cfg runId request backend slotId error).history.stored,
      result.runId = runId ∧ result.slotId = slotId := by
  unfold failBeforeStart peekSessionId
  obtain ⟨sessionId, store, hpeek⟩ := resolveSessionId_eq cfg request backend none c
  simp only [hpeek]
  refine ⟨
    { runId
      groupFolder := request.groupFolder
      backend
      sessionId
      slotId
      status := .failed
      error := some error }, ?_, rfl, rfl⟩
  simp [stored_storeTerminalResult]

/-- A result under a slot that is not its own is never put right. -/
theorem not_identified_of_misfiled {result : ExecutionResult} {request : ExecutionRequest}
    (hlisted : (result.runId, request) ∈ c.history.submitted)
    (hstored : result ∈ c.history.stored) (hslot : result.slotId ≠ request.slotId)
    {maxCompletedRuns : ℕ} (k : Postings False maxCompletedRuns c.books c'.books) :
    ¬ c'.books.Identified := by
  intro h
  obtain ⟨hsubmitted, hresults⟩ := k.stored_initial
  exact hslot (h.result request result (hsubmitted.subset hlisted) (hresults.subset hstored)).2

/-- A rejected entry leaves the others of its queue as they are. -/
theorem rejected_failBeforeStart (cfg : Config) (h : Inv c) {groupFolder runId : String}
    {rest : List (String × ExecutionRequest)} {queued : ExecutionRequest} (hopen : c.Open runId)
    (hq : c.queue groupFolder = (runId, queued) :: rest) (request : ExecutionRequest)
    (backend slotId error : String) :
    rejected cfg ((c.popped groupFolder rest).failBeforeStart cfg runId request backend slotId
      error) rest = rejected cfg c rest := by
  have hnodup := h.queue_nodup groupFolder
  rw [hq, List.map_cons, List.nodup_cons] at hnodup
  obtain ⟨store, result, rfl, -, k, hk⟩ := failBeforeStart_eq cfg runId request backend slotId
    error (c.popped groupFolder rest)
  rw [hk]
  refine rejected_congr fun entry hentry => ?_
  refine (wanted_closing ?_ k hopen ?_).trans rfl
  · exact { h.toLedger with }
  · rintro heq
    exact hnodup.1 (heq ▸ List.mem_map.mpr ⟨entry, hentry, rfl⟩)

/-- **The worker loop** keeps the identity of runs exactly where it rejects none of another slot
for an unknown backend. -/
theorem drainQueue_identified {groupFolder : String} (queue : List (String × ExecutionRequest))
    (h : Inv c) (hfiles : c.FilesResults) (hretention : c.books.Retention cfg.maxCompletedRuns)
    (hidentified : c.books.Identified)
    (hw : c.workers.get? worker = some { groupFolder, phase := .active })
    (hq : c.queue groupFolder = queue) :
    (drainQueue cfg worker groupFolder queue c).books.Identified ↔
      ∀ entry ∈ rejected cfg c queue, SlotKept cfg entry.2 := by
  induction queue generalizing c with
  | nil =>
    constructor
    · intro _ entry hentry
      cases hentry
    · intro _
      exact hidentified
  | cons entry rest ih =>
    obtain ⟨runId, request⟩ := entry
    have hhead : c.AtHead worker groupFolder runId request rest := ⟨hw, hq⟩
    have hrest : ∀ d : Coordinator, d.groupQueues = c.groupQueues.insert groupFolder rest →
        d.queue groupFolder = rest := by
      intro d hd
      simp [Coordinator.queue, Dict.getD, hd]
    rw [drainQueue_cons worker groupFolder runId request rest c (c.popped groupFolder rest) rfl]
    have hasked : (c.popped groupFolder rest).wanted runId = c.wanted runId := rfl
    rw [hasked]
    unfold rejected
    by_cases hwanted : c.wanted runId = true
    · rw [if_pos hwanted, if_pos hwanted]
      rcases executeRequest_rejection cfg runId request with
        ⟨backend, slotId, error, hrejected, heq⟩ | ⟨backendName, hselect, hknown, heq⟩
      · -- The entry is rejected, and the loop goes on.
        obtain ⟨hserved, hslot⟩ := hrejected.slot_iff
        simp only [heq, hserved, Bool.false_eq_true, if_false, List.forall_mem_cons]
        have hopen := h.open_of_wanted hwanted
        have hlisted := (h.entry_submitted (hq ▸ List.mem_cons_self)).1
        have hstride : Stride cfg worker c ((c.popped groupFolder rest).failBeforeStart cfg runId
            request backend slotId error) := .reject hhead hwanted hrejected
        obtain ⟨hworkers, hqueues⟩ := frame_failBeforeStart cfg runId request backend slotId error
          (c.popped groupFolder rest)
        have hpostings (proper : Prop) (hproper : proper → slotId = request.slotId) :
            Postings proper cfg.maxCompletedRuns (c.popped groupFolder rest).books
              ((c.popped groupFolder rest).failBeforeStart cfg runId request backend slotId
                error).books :=
          failBeforeStart_postings hlisted hopen hproper
        have hsame := rejected_failBeforeStart cfg h hopen hq request backend slotId error
        by_cases hkept : SlotKept cfg request
        · have hnext := hidentified.postings hretention (hslot.mpr hkept)
            (hpostings (slotId = request.slotId) id)
          rw [ih (h.stride hstride) (hfiles.stride hstride)
            ((hpostings False False.elim).keep hretention fun hb k => hb.posting k)
            hnext (hworkers ▸ hw) (hrest _ hqueues), hsame]
          exact ⟨fun hall => ⟨hkept, hall⟩, fun hall => hall.2⟩
        · obtain ⟨result, hstored, rfl, hmisfiled⟩ := stored_failBeforeStart cfg runId request
            backend slotId error (c.popped groupFolder rest)
          refine ⟨fun hfinal => absurd hfinal ?_, fun hall => absurd hall.1 hkept⟩
          have hsubmitted := (hpostings False False.elim).stored_initial.1
          refine not_identified_of_misfiled (hsubmitted.subset hlisted) hstored
            (fun hsame => hkept (hslot.mp (hmisfiled.symm.trans hsame)))
            (Strides.postings (h.stride hstride) (hfiles.stride hstride)
              (drainQueue_strides cfg rest (hworkers ▸ hw) (hrest _ hqueues)) id)
      · -- The entry is launched, and the loop ends.
        have hserved : served cfg request = true := by simp [served, hselect, hknown]
        simp only [heq, hserved, if_true]
        have hstride : Stride cfg worker c (((c.popped groupFolder rest).launch cfg runId request
            backendName).setWorkerPhase worker (.awaiting runId request c.executions.size)) :=
          .launch hhead hwanted hselect hknown
        have hqueued : c.statuses.get? runId = some .queued := by
          refine (h.queued_iff runId).mpr ⟨h.open_of_wanted hwanted, ?_⟩
          exact h.entry_unstarted (hq ▸ List.mem_cons_self)
        constructor
        · intro _ entry hentry
          cases hentry
        · intro _
          exact hidentified.quiet (quiet_launch (c := c.popped groupFolder rest) cfg request
            backendName (Option.isSome_iff_exists.mpr ⟨_, hqueued⟩))
    · have hunwanted := eq_false_of_ne_true hwanted
      rw [if_neg hwanted, if_neg hwanted]
      have hstride : Stride cfg worker c (c.popped groupFolder rest) := .skip hhead hunwanted
      rw [ih (h.stride hstride) (hfiles.stride hstride) hretention hidentified hw (hrest _ rfl)]
      have hsame : rejected cfg (c.popped groupFolder rest) rest = rejected cfg c rest :=
        rejected_congr fun _ _ => rfl
      rw [hsame]

/-! ## Every action -/

/-- Storing the result that a worker awaited does not change what its loop rejects. -/
theorem rejected_resumed (h : Inv c) {groupFolder runId : String} {request : ExecutionRequest}
    {task : ℕ} {execution : Execution} {result : ExecutionResult}
    (hr : c.Resumes worker groupFolder runId request task execution (.returned result))
    (hkept : runId ∉ c.cancelledRunIds) :
    rejected cfg ((c.resumed worker runId).storeTerminalResult cfg result)
      (c.queue groupFolder) = rejected cfg c (c.queue groupFolder) := by
  obtain ⟨hown, -⟩ := h.own_result hr.awaits hr.awaited hr.done
  obtain ⟨k, hk⟩ := storeTerminalResult_eq cfg result (c.resumed worker runId)
  rw [hk]
  refine rejected_congr fun entry hentry => ?_
  refine (wanted_closing (c := c.resumed worker runId) ?_ k ?_ fun hsame => ?_).trans rfl
  · exact { h.toLedger with }
  · rw [hown]
    exact h.open_of_awaits hr.awaits hkept
  · -- The awaited run was started, and the entries of the deque were not.
    refine h.entry_unstarted hentry ?_
    rw [hsame, hown]
    exact List.mem_map.mpr ⟨_, h.started_of_awaits hr.awaits, rfl⟩

/-- The turn of a worker keeps the identity of runs exactly where it keeps their slots. -/
theorem workerStep_identified (h : Inv c) (hfiles : c.FilesResults)
    (hretention : c.books.Retention cfg.maxCompletedRuns) (hidentified : c.books.Identified)
    (hstep : c.workerStep cfg worker = some c') :
    c'.books.Identified ↔ c.KeepsSlots cfg (.worker worker) := by
  unfold workerStep at hstep
  unfold KeepsSlots drains
  split at hstep
  · rename_i groupFolder hw
    obtain rfl := Option.some.inj hstep
    have hstride : Stride cfg worker c (c.setWorkerPhase worker .active) := .wake hw
    rw [drainQueue_identified _ (h.stride hstride) (hfiles.stride hstride) hretention
      hidentified (by simp [setWorkerPhase, hw]) rfl]
    simp only [hw, Option.mem_some_iff, forall_eq']
    have hsame : rejected cfg (c.setWorkerPhase worker .active)
        ((c.setWorkerPhase worker .active).queue groupFolder) =
          rejected cfg c ((c.setWorkerPhase worker .active).queue groupFolder) :=
      rejected_congr fun _ _ => rfl
    rw [hsame]
    rfl
  · rename_i groupFolder runId request task hw
    split at hstep
    · rename_i outcome hphase
      obtain ⟨execution, he, hdone⟩ := Option.map_eq_some_iff.mp hphase
      have hr : c.Resumes worker groupFolder runId request task execution outcome :=
        ⟨hw, he, hdone⟩
      have hnext {d : Coordinator} (hstride : Stride cfg worker c d)
          (hworkers : d.workers = (c.resumed worker runId).workers)
          (hqueues : d.queue groupFolder = c.queue groupFolder)
          (hsame : rejected cfg d (c.queue groupFolder) =
            rejected cfg c (c.queue groupFolder)) :
          (drainQueue cfg worker groupFolder (d.queue groupFolder) d).books.Identified ↔
            ∀ entry ∈ rejected cfg c (c.queue groupFolder), SlotKept cfg entry.2 := by
        have hactive : d.workers.get? worker = some { groupFolder, phase := .active } := by
          rw [hworkers]
          simp [resumed, forgetRunning, setWorkerPhase, hw]
        -- No entry of the deque is rejected before the awaited run is dealt with.
        have hpostings : Postings True cfg.maxCompletedRuns c.books d.books :=
          hstride.postings h hfiles fun _ {_ _ _ _ _ _ _} hhead =>
            absurd (hhead.active.symm.trans hw) (by simp)
        rw [drainQueue_identified _ (h.stride hstride) (hfiles.stride hstride)
          (hpostings.keep hretention fun hb k => hb.posting k)
          (hidentified.postings hretention trivial hpostings) hactive rfl, hqueues, hsame]
      simp only [hw, hphase]
      rcases h.conforming _ _ he _ hdone with rfl | ⟨result, rfl, -⟩
      · by_cases hcancelled : runId ∈ c.cancelledRunIds
        · have hcollect : (c.setWorkerPhase worker .active).collect cfg runId request
              .cancelledError = some ((c.resumed worker runId).discardCancelled runId) :=
            if_pos hcancelled
          simp only [hcollect] at hstep
          obtain rfl := Option.some.inj hstep
          rw [if_neg fun hcrash => hcrash.2 hcancelled]
          simp only [Option.mem_some_iff, forall_eq']
          exact hnext (.collectCancelled hr (fun _ hraised => by cases hraised) hcancelled) rfl rfl
            (rejected_congr fun _ _ => rfl)
        · have hcollect : (c.setWorkerPhase worker .active).collect cfg runId request
              .cancelledError = none := if_neg hcancelled
          simp only [hcollect] at hstep
          obtain rfl := Option.some.inj hstep
          rw [if_pos ⟨rfl, hcancelled⟩]
          exact ⟨fun _ g hg => (by cases hg), fun _ => hidentified⟩
      · by_cases hcancelled : runId ∈ c.cancelledRunIds
        · have hcollect : (c.setWorkerPhase worker .active).collect cfg runId request
              (.returned result) = some ((c.resumed worker runId).discardCancelled runId) :=
            if_pos hcancelled
          simp only [hcollect] at hstep
          obtain rfl := Option.some.inj hstep
          rw [if_neg fun hcrash => hcrash.2 hcancelled]
          simp only [Option.mem_some_iff, forall_eq']
          exact hnext (.collectCancelled hr (fun _ hraised => by cases hraised) hcancelled) rfl rfl
            (rejected_congr fun _ _ => rfl)
        · have hcollect : (c.setWorkerPhase worker .active).collect cfg runId request
              (.returned result) = some ((c.resumed worker runId).storeTerminalResult cfg result) :=
            if_neg hcancelled
          simp only [hcollect] at hstep
          obtain rfl := Option.some.inj hstep
          rw [if_neg fun hcrash => by cases hcrash.1]
          simp only [Option.mem_some_iff, forall_eq']
          obtain ⟨k, hk⟩ := storeTerminalResult_eq cfg result (c.resumed worker runId)
          refine hnext (.collectResult hr hcancelled) ?_ ?_ (rejected_resumed h hr hcancelled)
          · rw [hk]
            rfl
          · rw [hk]
            rfl
    · cases hstep
  · cases hstep

/-- A step keeps the identity of runs exactly where it keeps their slots. -/
theorem step_identified (h : Inv c) (hfiles : c.FilesResults)
    (hretention : c.books.Retention cfg.maxCompletedRuns) (hidentified : c.books.Identified)
    {a : Action} (ha : c.Ordinary a) (hstep : step cfg c a = some c') :
    c'.books.Identified ↔ c.KeepsSlots cfg a := by
  have hproper (hworker : ∀ worker, a ≠ .worker worker) : c'.books.Identified :=
    hidentified.postings hretention trivial
      (step_postings h hfiles ha (fun _ => hworker) hstep)
  cases a with
  | worker worker => exact workerStep_identified h hfiles hretention hidentified hstep
  | submit | cancel | execution | backendEnds | wait | waiter | cancelWaiter | tick =>
    exact ⟨fun _ => trivial, fun _ => hproper fun _ heq => by cases heq⟩

/-- **Identity.** In every state of a run the snapshots and the results agree with the requests
of their runs if and only if no worker has rejected a run of another slot than the default one
for an unknown backend. -/
theorem identified_iff {l : List Action} (h : Run (step cfg) Ordinary {} l c) :
    (∀ l₁ l₂ u, l = l₁ ++ l₂ → Run (step cfg) Ordinary {} l₁ u → u.books.Identified) ↔
      Run (step cfg) (fun c a => c.Ordinary a ∧ c.KeepsSlots cfg a) {} l c := by
  refine h.always_iff (I := fun d => Inv d ∧ d.FilesResults ∧
    d.books.Retention cfg.maxCompletedRuns) ?_ ?_ ?_ ?_
  · refine ⟨inv_empty, ?_, retention_of_run .nil⟩
    intro task e result he
    cases he
  · constructor <;> simp [books]
  · rintro d d' a ⟨hinv, hfiles, hretention⟩ ha hstep
    refine ⟨hinv.step ha hstep, hfiles.step ha hstep, ?_⟩
    have hpostings : Postings False cfg.maxCompletedRuns d.books d'.books :=
      step_postings hinv hfiles ha False.elim hstep
    exact hpostings.keep hretention fun hb k => hb.posting k
  · rintro d d' a ⟨hinv, hfiles, hretention⟩ hidentified ha hstep
    exact step_identified hinv hfiles hretention hidentified ha hstep

/-- A run of the slot `side`. -/
def sideRun : List Action :=
  [.submit { ExecutionRequest.sample "first" with slotId := "side" } "", .worker 0]

/-- A run of another slot that is cancelled in its queue, and one that is run. -/
def keptRuns : List Action :=
  [.submit { ExecutionRequest.sample "first" with slotId := "side" } "", .cancel "first",
    .submit (.sample "second") "", .worker 0]

theorem identified_iff_keptRuns :
    ∃ c, Run (step Config.misnamed) Ordinary {} keptRuns c ∧ c.books.Identified ∧
      c.storedIds = ["first", "second"] := by
  have h : Run (step Config.misnamed) (fun c a => c.Ordinary a ∧ c.KeepsSlots Config.misnamed a)
    {} keptRuns _ := .of_execute (by decide)
  have hrun := h.mono fun _ _ ha => ha.1
  exact ⟨_, hrun, (identified_iff hrun).mpr h keptRuns [] _ rfl hrun, by decide⟩

/-- A run of the slot `side` that is reported in the default slot. -/
theorem exists_not_identified :
    ∃ c, Run (step Config.misnamed) Ordinary {} sideRun c ∧ ¬ c.books.Identified := by
  have h : Run (step Config.misnamed) Ordinary {} sideRun _ := .of_execute (by decide)
  refine ⟨_, h, fun hidentified => ?_⟩
  have hslot := (hidentified.result { ExecutionRequest.sample "first" with slotId := "side" }
    { runId := "first"
      groupFolder := "home"
      backend := "openai_runtime"
      sessionId := "home#slot:side"
      status := .failed
      error := some "unknown execution backend: openai_runtime" } (by decide) (by decide)).2
  exact absurd hslot (by decide)

end Coordinator

end Portex
