import Portex.Scheduler.Interval
import Mathlib.Data.List.Induction
import Mathlib.Data.List.Sort

/-!
# Passes of the scheduler

`run_pending` captures the tasks that are due and calls their executors one after another. Whatever
an executor raises is caught; what the bookkeeping after it raises ends the pass.

A pass runs here without interleaving: the executor of an object ends as the environment of the pass
says, and the clock is read as it says.

## Main definitions

* `upsertTask`, `upserted`: the table that some calls of `upsert_task` make
* `dueTasks`: what a pass captures
* `startTask`, `finishTask`, `executeAll`, `runPending`: the pass

## Main results

* `held_upserted`: the tasks of the table are valid
* `Held.dueTasks_ok`, `dueTasks_error`: the captured tasks are those that are due, or the
  comparison raises
* `executed_executeAll`: what a pass does to the objects
-/

namespace Portex

open Foundation

/-- How an executor ends. -/
inductive ExecutorOutcome
  | success
  /-- It raises an `Exception`. -/
  | failure
  deriving DecidableEq

/-- The end of an executor, and the readings of the clock in the bookkeeping after it. -/
structure ExecutorCall where
  outcome : ExecutorOutcome
  anchored : Ticks
  reading : Ticks

/-- What came of a pass. -/
structure PassResult where
  result : Except SchedulerError Unit
  state : SchedulerState
  /-- The objects whose executors were called. -/
  calls : List ℕ

/-- `(next_run, id)`, in lexicographic order. -/
def ScheduledTask.precedes (task task' : ScheduledTask) : Bool :=
  let instant := task.nextRun.elim 0 Datetime.instant
  let instant' := task'.nextRun.elim 0 Datetime.instant
  instant < instant' || (instant == instant' && task.id.toList ≤ task'.id.toList)

/-- The schedule is one that `upsert_task` accepts. -/
inductive ScheduledTask.Valid (task : ScheduledTask) : Prop
  | once (htype : task.scheduleType = some "once")
  | interval {seconds : Positive} (htype : task.scheduleType = some "interval")
      (hvalue : parseIntervalSeconds task.scheduleValue = .ok seconds)
  | cron {expression : List Char} (htype : task.scheduleType = some "cron")
      (hvalue : parseCronExpression task.scheduleValue = .ok expression)

theorem ScheduledTask.Valid.congr {task task' : ScheduledTask} (h : task.Valid)
    (htype : task'.scheduleType = task.scheduleType)
    (hvalue : task'.scheduleValue = task.scheduleValue) : task'.Valid := by
  cases h with
  | once h => exact .once (htype.trans h)
  | interval h h' => exact .interval (htype.trans h) (hvalue ▸ h')
  | cron h h' => exact .cron (htype.trans h) (hvalue ▸ h')

namespace TaskScheduler

variable (scheduler : TaskScheduler)

/-! ## The table -/

/-- `upsert_task`, for an object that is new. -/
def upsertTask (task : ScheduledTask) (validated initialized : Ticks) (s : SchedulerState) :
    Except SchedulerError Unit × SchedulerState :=
  match scheduler.acceptTask task validated initialized with
  | .error error => (.error error, s)
  | .ok task =>
    (.ok (), { s with
      objects := s.objects.alloc task
      tasks := s.tasks.insert task.id s.objects.size })

/-- The table after some calls of `upsert_task`. -/
def upserted (calls : List (ScheduledTask × Ticks × Ticks)) : SchedulerState :=
  calls.foldl (fun s call => (scheduler.upsertTask call.1 call.2.1 call.2.2 s).2) {}

/-! ## The pass -/

/-- The due tasks among some objects. -/
def filterDue (s : SchedulerState) (now : Datetime) : List ℕ → Except SchedulerError (List ℕ)
  | [] => .ok []
  | object :: objects =>
    match s.objects.get? object with
    | none => filterDue s now objects
    | some task => do
      let due ← isDue task now
      let rest ← filterDue s now objects
      .ok (if due ∧ task.id ∉ s.running then object :: rest else rest)

/-- The objects of the table, in its order. -/
def tableObjects (s : SchedulerState) : List ℕ := s.tasks.keys.filterMap s.tasks.get?

/-- `key=lambda task: (task.next_run or datetime.max, task.id)`. -/
def sortsBefore (s : SchedulerState) (object object' : ℕ) : Prop :=
  ∀ task ∈ s.objects.get? object, ∀ task' ∈ s.objects.get? object', task.precedes task' = true

instance (s : SchedulerState) (object object' : ℕ) : Decidable (sortsBefore s object object') :=
  inferInstanceAs (Decidable (∀ task ∈ s.objects.get? object, ∀ task' ∈ _, _))

/-- The tasks that a pass captures. -/
def dueTasks (s : SchedulerState) (now : Datetime) : Except SchedulerError (List ℕ) := do
  let due ← filterDue s now (tableObjects s)
  .ok (due.insertionSort (sortsBefore s))

/-- The end of `_execute_task`, once the executor has ended. -/
def finishTask (object : ℕ) (task : ScheduledTask) (call : ExecutorCall) (s : SchedulerState) :
    Except SchedulerError Unit × SchedulerState :=
  let discarded := { s with running := s.running.filter (· ≠ task.id) }
  match call.outcome with
  | .failure => (.ok (), discarded)
  | .success =>
    match scheduler.markTaskAfterSuccess task call.anchored call.reading with
    | .error error => (.error error, discarded)
    | .ok task => (.ok (), { discarded with objects := s.objects.modify object fun _ => task })

/-- The executor of a task is called. -/
def startTask (task : ScheduledTask) (s : SchedulerState) : SchedulerState :=
  { s with running := task.id :: s.running }

/-- The executions of some captured tasks. -/
def executeAll (env : ℕ → ExecutorCall) : List ℕ → SchedulerState → PassResult
  | [], s => ⟨.ok (), s, []⟩
  | object :: rest, s =>
    match s.objects.get? object with
    | none => executeAll env rest s
    | some task =>
      if task.id ∈ s.running then executeAll env rest s
      else
        match scheduler.finishTask object task (env object) (startTask task s) with
        | (.error error, s) => ⟨.error error, s, [object]⟩
        | (.ok (), s) =>
          let after := executeAll env rest s
          { after with calls := object :: after.calls }

/-- `run_pending`. -/
def runPending (env : ℕ → ExecutorCall) (reading : Ticks) (s : SchedulerState) : PassResult :=
  match dueTasks s (scheduler.now reading) with
  | .error error => ⟨.error error, s, []⟩
  | .ok due => scheduler.executeAll env due s

/-! ## Accepted tasks -/

variable {scheduler} {s : SchedulerState} {task task' : ScheduledTask} {object : ℕ}

theorem validTask_of_validate {reading : Ticks} (h : scheduler.validateTask task reading = .ok ()) :
    task.Valid := by
  unfold validateTask at h
  split at h
  · cases h
  · rename_i hsupported
    simp only [List.mem_cons, List.not_mem_nil, or_false, not_not] at hsupported
    split at h
    · rename_i htype
      cases hvalue : parseIntervalSeconds task.scheduleValue with
      | error error =>
        rw [hvalue] at h
        cases h
      | ok seconds => exact .interval htype hvalue
    · rename_i hinterval
      split at h
      · rename_i htype
        cases hvalue : parseCronExpression task.scheduleValue with
        | error error =>
          rw [hvalue] at h
          cases h
        | ok expression => exact .cron htype hvalue
      · rename_i hcron
        exact .once ((hsupported.resolve_left hcron).resolve_left hinterval)

/-- Only the next run is initialised. -/
theorem initializeNextRun_eq {reading : Ticks}
    (h : scheduler.initializeNextRun task reading = .ok task') :
    ∃ nextRun, task' = { task with nextRun } := by
  unfold initializeNextRun at h
  split at h
  · exact ⟨task.nextRun, (Except.ok.inj h).symm⟩
  · simp only [bind, Except.bind] at h
    split at h
    · split at h
      · cases h
      · split at h
        · cases h
        · split at h
          · cases h
          · exact ⟨_, (Except.ok.inj h).symm⟩
    · split at h
      · split at h
        · cases h
        · split at h
          · cases h
          · exact ⟨_, (Except.ok.inj h).symm⟩
      · exact ⟨task.nextRun, (Except.ok.inj h).symm⟩

/-- **What is accepted is valid**, and has the id it was given. -/
theorem acceptTask_valid {validated initialized : Ticks}
    (h : scheduler.acceptTask task validated initialized = .ok task') :
    task'.Valid ∧ task'.id = task.id := by
  unfold acceptTask at h
  cases hvalid : scheduler.validateTask task validated with
  | error error =>
    rw [hvalid] at h
    cases h
  | ok _ =>
    rw [hvalid] at h
    obtain ⟨nextRun, rfl⟩ := initializeNextRun_eq h
    exact ⟨(validTask_of_validate hvalid).congr rfl rfl, rfl⟩

/-- A table as calls of `upsert_task` make it. -/
structure Held (s : SchedulerState) : Prop where
  found : ∀ id object, s.tasks.get? id = some object →
    ∃ task, s.objects.get? object = some task ∧ task.id = id ∧ task.Valid
  idle : s.running = []

theorem held_empty : Held {} where
  found id object h := by cases h
  idle := rfl

theorem Held.upsertTask (h : Held s) (task : ScheduledTask) (validated initialized : Ticks) :
    Held (scheduler.upsertTask task validated initialized s).2 := by
  unfold TaskScheduler.upsertTask
  split
  · exact h
  · rename_i task' haccept
    obtain ⟨hvalid, -⟩ := acceptTask_valid haccept
    refine ⟨fun id object hget => ?_, h.idle⟩
    rw [Dict.get?_insert] at hget
    simp only [Heap.get?_alloc]
    split at hget
    · rename_i hid
      obtain rfl := Option.some.inj hget
      exact ⟨task', if_pos rfl, hid.symm, hvalid⟩
    · obtain ⟨old, hold, hid, hvalid⟩ := h.found id object hget
      have hne : object ≠ s.objects.size := (Heap.lt_size_of_get? hold).ne
      exact ⟨old, (if_neg hne).trans hold, hid, hvalid⟩

/-- **Every accepted set of tasks** is held. -/
theorem held_upserted (scheduler : TaskScheduler) (calls : List (ScheduledTask × Ticks × Ticks)) :
    Held (scheduler.upserted calls) := by
  unfold upserted
  induction calls using List.reverseRecOn with
  | nil => exact held_empty
  | append_singleton calls call ih =>
    rw [List.foldl_append]
    exact ih.upsertTask ..

/-! ## What is captured -/

variable {now : Datetime} {objects due : List ℕ}

/-- A task of the table is due. -/
def Due (s : SchedulerState) (now : Datetime) (object : ℕ) : Prop :=
  ∃ id task time, s.tasks.get? id = some object ∧ s.objects.get? object = some task ∧
    task.status = "active" ∧ task.nextRun = some time ∧ time.instant ≤ now.instant

/-- The next runs of the active tasks can be compared with the clock. -/
def AllComparable (s : SchedulerState) (now : Datetime) : Prop :=
  ∀ id object task time, s.tasks.get? id = some object → s.objects.get? object = some task →
    task.status = "active" → task.nextRun = some time → time.Comparable now

/-- The next run of the task can be compared with the clock, where it is. -/
def ComparableTask (task : ScheduledTask) (now : Datetime) : Prop :=
  task.status = "active" → ∀ time, task.nextRun = some time → time.Comparable now

theorem isDue_of_comparable (h : ComparableTask task now) : ∃ due, isDue task now = .ok due ∧
    (due = true ↔ task.status = "active" ∧ ∃ time, task.nextRun = some time ∧
      time.instant ≤ now.instant) := by
  unfold isDue
  by_cases hactive : task.status = "active"
  · rw [if_neg (not_not.mpr hactive)]
    cases hnext : task.nextRun with
    | none => exact ⟨false, rfl, by simp⟩
    | some time =>
      exact ⟨_, le_eq_ok (h hactive time hnext), by simp [hactive]⟩
  · rw [if_pos hactive]
    exact ⟨false, rfl, by simp [hactive]⟩

theorem isDue_of_not_comparable (h : ¬ ComparableTask task now) :
    isDue task now = .error .type := by
  simp only [ComparableTask, not_forall] at h
  obtain ⟨hactive, time, hnext, hcomparable⟩ := h
  unfold isDue
  rw [if_neg (not_not.mpr hactive), hnext]
  exact if_neg hcomparable

/-- A task is due, and not executed already. -/
def Captures (s : SchedulerState) (now : Datetime) (object : ℕ) : Prop :=
  ∃ task time, s.objects.get? object = some task ∧ task.id ∉ s.running ∧ task.status = "active" ∧
    task.nextRun = some time ∧ time.instant ≤ now.instant

/-- **The captured tasks** are those that are due and not executed already. -/
theorem filterDue_ok (h : ∀ object ∈ objects, ∀ task, s.objects.get? object = some task →
    ComparableTask task now) :
    ∃ due, filterDue s now objects = .ok due ∧ due.Sublist objects ∧
      ∀ object, object ∈ due ↔ object ∈ objects ∧ Captures s now object := by
  induction objects with
  | nil => exact ⟨[], rfl, .refl _, by simp⟩
  | cons object objects ih =>
    obtain ⟨rest, hrest, hsublist, hmem⟩ := ih fun o ho => h o (List.mem_cons_of_mem _ ho)
    -- The head is captured or dropped, whatever becomes of the rest.
    have hkeep (hcaptures : Captures s now object) (o : ℕ) :
        o ∈ object :: rest ↔ o ∈ object :: objects ∧ Captures s now o := by
      rw [List.mem_cons, List.mem_cons, hmem, or_and_right]
      exact or_congr_left ⟨fun heq => ⟨heq, heq ▸ hcaptures⟩, And.left⟩
    have hdrop (hcaptures : ¬ Captures s now object) (o : ℕ) :
        o ∈ rest ↔ o ∈ object :: objects ∧ Captures s now o := by
      rw [List.mem_cons, hmem, or_and_right]
      exact ⟨.inr, Or.rec (fun ho => absurd (ho.1 ▸ ho.2) hcaptures) id⟩
    unfold filterDue
    cases hget : s.objects.get? object with
    | none =>
      refine ⟨rest, hrest, hsublist.cons _, hdrop ?_⟩
      rintro ⟨task, time, htask, -⟩
      rw [hget] at htask
      cases htask
    | some task =>
      obtain ⟨isdue, hisdue, htrue⟩ :=
        isDue_of_comparable (h object (List.mem_cons_self ..) task hget)
      have hhead : (isdue = true ∧ task.id ∉ s.running) ↔ Captures s now object := by
        rw [htrue]
        constructor
        · rintro ⟨⟨hactive, time, hnext, hle⟩, hidle⟩
          exact ⟨task, time, hget, hidle, hactive, hnext, hle⟩
        · rintro ⟨task', time, hget', hidle, hactive, hnext, hle⟩
          obtain rfl := Option.some.inj (hget.symm.trans hget')
          exact ⟨⟨hactive, time, hnext, hle⟩, hidle⟩
      refine ⟨if isdue ∧ task.id ∉ s.running then object :: rest else rest, ?_, ?_, ?_⟩
      · simp only [hisdue, hrest]
        rfl
      · split
        · exact hsublist.cons_cons _
        · exact hsublist.cons _
      · split
        · rename_i hcaptured
          exact hkeep (hhead.mp hcaptured)
        · rename_i hcaptured
          exact hdrop fun hcaptures => hcaptured (hhead.mpr hcaptures)

/-- One next run that cannot be compared is enough to raise. -/
theorem filterDue_error {task : ScheduledTask} (hmem : object ∈ objects)
    (hget : s.objects.get? object = some task) (h : ¬ ComparableTask task now) :
    filterDue s now objects = .error .type := by
  induction objects with
  | nil => cases hmem
  | cons head objects ih =>
    unfold filterDue
    by_cases hhead : head = object
    · subst hhead
      rw [hget]
      simp only [isDue_of_not_comparable h]
      rfl
    · have hrest := ih ((List.mem_cons.mp hmem).resolve_left (Ne.symm hhead))
      cases hget' : s.objects.get? head with
      | none => exact hrest
      | some task' =>
        by_cases hcomparable : ComparableTask task' now
        · obtain ⟨isdue, hisdue, -⟩ := isDue_of_comparable hcomparable
          simp only [hisdue, hrest]
          rfl
        · simp only [isDue_of_not_comparable hcomparable]
          rfl

/-- What was captured is due, and not executed already. -/
theorem filterDue_captures (h : filterDue s now objects = .ok due) :
    due.Sublist objects ∧ ∀ object ∈ due, Captures s now object := by
  have hcomparable : ∀ object ∈ objects, ∀ task, s.objects.get? object = some task →
      ComparableTask task now := by
    intro object hobject task hget
    by_contra hnot
    rw [filterDue_error hobject hget hnot] at h
    cases h
  obtain ⟨due', hdue', hsublist, hmem⟩ := filterDue_ok hcomparable
  obtain rfl := Except.ok.inj (hdue'.symm.trans h)
  exact ⟨hsublist, fun object hobject => ((hmem object).mp hobject).2⟩

/-- A pass captures objects of the table. -/
theorem dueTasks_captures (h : dueTasks s now = .ok due) : ∃ objects, due.Perm objects ∧
    objects.Sublist (tableObjects s) ∧ ∀ object ∈ due, Captures s now object := by
  unfold dueTasks at h
  cases hdue : filterDue s now (tableObjects s) with
  | error error =>
    rw [hdue] at h
    cases h
  | ok objects =>
    rw [hdue] at h
    obtain rfl := Except.ok.inj h
    obtain ⟨hsublist, hcaptures⟩ := filterDue_captures hdue
    have hperm : (objects.insertionSort (sortsBefore s)).Perm objects :=
      List.perm_insertionSort _ _
    exact ⟨objects, hperm, hsublist, fun object hobject =>
      hcaptures object (hperm.subset hobject)⟩

theorem mem_tableObjects : object ∈ tableObjects s ↔ ∃ id, s.tasks.get? id = some object := by
  unfold tableObjects
  rw [List.mem_filterMap]
  constructor
  · rintro ⟨id, -, hget⟩
    exact ⟨id, hget⟩
  · rintro ⟨id, hget⟩
    exact ⟨id, Dict.mem_keys_of_get? hget, hget⟩

/-- Different ids name different objects. -/
theorem Held.nodup_tableObjects (h : Held s) : (tableObjects s).Nodup := by
  refine s.tasks.nodup.filterMap fun id id' object hid hid' => ?_
  obtain ⟨task, htask, hname, -⟩ := h.found id object hid
  obtain ⟨task', htask', hname', -⟩ := h.found id' object hid'
  obtain rfl := Option.some.inj (htask.symm.trans htask')
  exact hname.symm.trans hname'

theorem Held.dueTasks_ok (h : Held s) (hcomparable : AllComparable s now) :
    ∃ due, dueTasks s now = .ok due ∧ due.Nodup ∧ ∀ object, object ∈ due ↔ Due s now object := by
  have htable : ∀ object ∈ tableObjects s, ∀ task, s.objects.get? object = some task →
      ComparableTask task now := by
    intro object hobject task hget hactive time hnext
    obtain ⟨id, hid⟩ := mem_tableObjects.mp hobject
    exact hcomparable id object task time hid hget hactive hnext
  obtain ⟨due, hdue, hsublist, hmem⟩ := filterDue_ok htable
  have hperm : (due.insertionSort (sortsBefore s)).Perm due := List.perm_insertionSort _ _
  refine ⟨due.insertionSort (sortsBefore s), ?_, ?_, fun object => ?_⟩
  · unfold dueTasks
    rw [hdue]
    rfl
  · exact hperm.nodup_iff.mpr (h.nodup_tableObjects.sublist hsublist)
  · rw [hperm.mem_iff, hmem, mem_tableObjects]
    constructor
    · rintro ⟨⟨id, hid⟩, task, time, hget, -, hactive, hnext, hle⟩
      exact ⟨id, task, time, hid, hget, hactive, hnext, hle⟩
    · rintro ⟨id, task, time, hid, hget, hactive, hnext, hle⟩
      exact ⟨⟨id, hid⟩, task, time, hget, by simp [h.idle], hactive, hnext, hle⟩

theorem dueTasks_error (h : ¬ AllComparable s now) : dueTasks s now = .error .type := by
  simp only [AllComparable, not_forall] at h
  obtain ⟨id, object, task, time, hid, hget, hactive, hnext, hcomparable⟩ := h
  have htask : ¬ ComparableTask task now := fun h => hcomparable (h hactive time hnext)
  unfold dueTasks
  rw [filterDue_error (mem_tableObjects.mpr ⟨id, hid⟩) hget htask]
  rfl

/-! ## What a pass does -/

variable {env : ℕ → ExecutorCall}

/-- The task after its execution, or what the bookkeeping raises. -/
def settle (scheduler : TaskScheduler) (task : ScheduledTask) (call : ExecutorCall) :
    Except SchedulerError ScheduledTask :=
  match call.outcome with
  | .failure => .ok task
  | .success => scheduler.markTaskAfterSuccess task call.anchored call.reading

/-- The task object after its execution: a bookkeeping that raises leaves it as it is. -/
def settled (scheduler : TaskScheduler) (task : ScheduledTask) (call : ExecutorCall) :
    ScheduledTask :=
  (scheduler.settle task call).toOption.getD task

/-- **An execution** leaves the table and the other objects as they are. -/
theorem finishTask_spec (scheduler : TaskScheduler) (call : ExecutorCall) (hidle : s.running = [])
    (hget : s.objects.get? object = some task) :
    let after := scheduler.finishTask object task call (startTask task s)
    after.1 = (scheduler.settle task call).map (fun _ => ()) ∧ after.2.tasks = s.tasks ∧
      after.2.running = [] ∧
      ∀ o, after.2.objects.get? o =
        if o = object then some (scheduler.settled task call) else s.objects.get? o := by
  have hrunning : (task.id :: s.running).filter (· ≠ task.id) = [] := by simp [hidle]
  have hsame (o : ℕ) : s.objects.get? o = if o = object then some task else s.objects.get? o := by
    split
    · rename_i ho
      rw [ho, hget]
    · rfl
  unfold finishTask settled settle startTask
  cases call.outcome with
  | failure => exact ⟨rfl, rfl, hrunning, hsame⟩
  | success =>
    simp only
    cases scheduler.markTaskAfterSuccess task call.anchored call.reading with
    | error error => exact ⟨rfl, rfl, hrunning, hsame⟩
    | ok task' =>
      refine ⟨rfl, rfl, hrunning, fun o => ?_⟩
      simp only [Heap.get?_modify]
      split
      · rename_i ho
        rw [ho, hget]
        rfl
      · rfl

/-- What came of the executions of some captured objects. -/
structure Executed (scheduler : TaskScheduler) (env : ℕ → ExecutorCall) (s : SchedulerState)
    (due : List ℕ) (after : PassResult) : Prop where
  tasks : after.state.tasks = s.tasks
  idle : after.state.running = []
  /-- All of them are executed, up to the first whose bookkeeping raises. -/
  calls : ∃ rest, due = after.calls ++ rest ∧ (after.result = .ok () → rest = [])
  raises : ∀ error, after.result = .error error → ∃ object ∈ after.calls, ∃ task,
    s.objects.get? object = some task ∧ scheduler.settle task (env object) = .error error
  returns : after.result = .ok () → ∀ object ∈ due, ∀ task, s.objects.get? object = some task →
    ∃ task', scheduler.settle task (env object) = .ok task'
  executed : ∀ object ∈ after.calls, ∀ task, s.objects.get? object = some task →
    after.state.objects.get? object = some (scheduler.settled task (env object))
  untouched : ∀ object, object ∉ after.calls →
    after.state.objects.get? object = s.objects.get? object

theorem Executed.mem_due {after : PassResult} (h : Executed scheduler env s due after)
    (hobject : object ∈ after.calls) : object ∈ due := by
  obtain ⟨rest, hdue, -⟩ := h.calls
  rw [hdue]
  exact List.mem_append_left rest hobject

/-- A bookkeeping that raises ends the pass. -/
theorem executed_error {error : SchedulerError} {rest : List ℕ} {after : SchedulerState}
    (hget : s.objects.get? object = some task)
    (hsettle : scheduler.settle task (env object) = .error error) (htasks : after.tasks = s.tasks)
    (hidle : after.running = [])
    (hobjects : ∀ o, after.objects.get? o =
      if o = object then some (scheduler.settled task (env object)) else s.objects.get? o) :
    Executed scheduler env s (object :: rest) ⟨.error error, after, [object]⟩ where
  tasks := htasks
  idle := hidle
  calls := ⟨rest, rfl, fun h => by cases h⟩
  raises error' h := by
    obtain rfl := Except.error.inj h
    exact ⟨object, List.mem_singleton_self object, task, hget, hsettle⟩
  returns h := by cases h
  executed o ho task' hget' := by
    obtain rfl := List.mem_singleton.mp ho
    obtain rfl := Option.some.inj (hget.symm.trans hget')
    rw [hobjects, if_pos rfl]
  untouched o ho := by rw [hobjects, if_neg fun heq => ho (List.mem_singleton.mpr heq)]

/-- An execution, and then the others. -/
theorem Executed.cons {rest : List ℕ} {next : SchedulerState} {after : PassResult}
    (h : Executed scheduler env next rest after) (hnew : object ∉ rest)
    (hget : s.objects.get? object = some task)
    (hsettle : scheduler.settle task (env object) = .ok task') (htasks : next.tasks = s.tasks)
    (hobjects : ∀ o, next.objects.get? o =
      if o = object then some (scheduler.settled task (env object)) else s.objects.get? o) :
    Executed scheduler env s (object :: rest) { after with calls := object :: after.calls } where
  tasks := h.tasks.trans htasks
  idle := h.idle
  calls := by
    obtain ⟨rest', hrest, hreturns⟩ := h.calls
    exact ⟨rest', by rw [List.cons_append, ← hrest], hreturns⟩
  raises error herror := by
    obtain ⟨o, ho, task', hget', hsettle'⟩ := h.raises error herror
    have hne : o ≠ object := fun heq => hnew (heq ▸ h.mem_due ho)
    rw [hobjects, if_neg hne] at hget'
    exact ⟨o, List.mem_cons_of_mem _ ho, task', hget', hsettle'⟩
  returns hreturns o ho task' hget' := by
    rcases List.mem_cons.mp ho with rfl | ho
    · obtain rfl := Option.some.inj (hget.symm.trans hget')
      exact ⟨_, hsettle⟩
    · have hne : o ≠ object := fun heq => hnew (heq ▸ ho)
      exact h.returns hreturns o ho task' (by rw [hobjects, if_neg hne, hget'])
  executed o ho task' hget' := by
    rcases List.mem_cons.mp ho with rfl | ho
    · obtain rfl := Option.some.inj (hget.symm.trans hget')
      rw [h.untouched o fun ho => hnew (h.mem_due ho), hobjects, if_pos rfl]
    · have hne : o ≠ object := fun heq => hnew (heq ▸ h.mem_due ho)
      exact h.executed o ho task' (by rw [hobjects, if_neg hne, hget'])
  untouched o ho := by
    have hne : o ≠ object := fun heq => ho (heq ▸ List.mem_cons_self ..)
    rw [h.untouched o fun hmem => ho (List.mem_cons_of_mem _ hmem), hobjects, if_neg hne]

/-- **A pass** executes what it has captured, in order. -/
theorem executed_executeAll (hnodup : due.Nodup) (hidle : s.running = [])
    (hobjects : ∀ object ∈ due, ∃ task, s.objects.get? object = some task) :
    Executed scheduler env s due (scheduler.executeAll env due s) := by
  induction due generalizing s with
  | nil =>
    exact {
      tasks := rfl
      idle := hidle
      calls := ⟨[], rfl, fun _ => rfl⟩
      raises := fun error h => by cases h
      returns := fun _ object h => by cases h
      executed := fun object h => by cases h
      untouched := fun _ _ => rfl }
  | cons object rest ih =>
    obtain ⟨task, hget⟩ := hobjects object (List.mem_cons_self ..)
    obtain ⟨hnew, hnodup⟩ := List.nodup_cons.mp hnodup
    obtain ⟨hresult, htasks, hidle', hget'⟩ := finishTask_spec scheduler (env object) hidle
      hget
    have hstarts : task.id ∉ s.running := by simp [hidle]
    unfold executeAll
    simp only [hget, hstarts, if_false]
    revert hresult htasks hidle' hget'
    generalize scheduler.finishTask object task (env object) (startTask task s) = after
    obtain ⟨result, next⟩ := after
    intro hresult htasks hidle' hget'
    cases hsettle : scheduler.settle task (env object) with
    | error error =>
      rw [hsettle] at hresult
      obtain rfl : result = .error error := hresult
      exact executed_error hget hsettle htasks hidle' hget'
    | ok task' =>
      rw [hsettle] at hresult
      obtain rfl : result = .ok () := hresult
      refine (ih hnodup hidle' fun o ho => ?_).cons hnew hget hsettle htasks hget'
      have hne : o ≠ object := fun heq => hnew (heq ▸ ho)
      rw [hget', if_neg hne]
      exact hobjects o (List.mem_cons_of_mem _ ho)

/-- **What comes of a pass**: it raises before it executes anything, or executes what is due. -/
theorem Held.runPending (h : Held s) (scheduler : TaskScheduler) (env : ℕ → ExecutorCall)
    (reading : Ticks) :
    (¬ AllComparable s (scheduler.now reading) ∧
      scheduler.runPending env reading s = ⟨.error .type, s, []⟩) ∨
    (AllComparable s (scheduler.now reading) ∧ ∃ due : List ℕ, due.Nodup ∧
      (∀ object, object ∈ due ↔ Due s (scheduler.now reading) object) ∧
        Executed scheduler env s due (scheduler.runPending env reading s)) := by
  unfold TaskScheduler.runPending
  by_cases hcomparable : AllComparable s (scheduler.now reading)
  · obtain ⟨due, hdue, hnodup, hmem⟩ := h.dueTasks_ok hcomparable
    refine .inr ⟨hcomparable, due, hnodup, hmem, ?_⟩
    rw [hdue]
    refine executed_executeAll hnodup h.idle fun object hobject => ?_
    obtain ⟨id, task, time, -, hget, -⟩ := (hmem object).mp hobject
    exact ⟨task, hget⟩
  · rw [dueTasks_error hcomparable]
    exact .inl ⟨hcomparable, rfl⟩

/-- The bookkeeping changes neither the id of a task nor its schedule. -/
theorem settled_valid (call : ExecutorCall) (h : task.Valid) :
    (scheduler.settled task call).Valid ∧ (scheduler.settled task call).id = task.id := by
  unfold settled settle
  cases call.outcome with
  | failure => exact ⟨h, rfl⟩
  | success =>
    cases hmark : scheduler.markTaskAfterSuccess task call.anchored call.reading with
    | error error => exact ⟨h, rfl⟩
    | ok task' =>
      obtain ⟨hid, htype, hvalue⟩ := markTaskAfterSuccess_keeps hmark
      exact ⟨h.congr htype hvalue, hid⟩

/-- The table is held after a pass. -/
theorem Held.executed {after : PassResult} (h : Held s)
    (hexecuted : Executed scheduler env s due after) : Held after.state where
  idle := hexecuted.idle
  found id object hget := by
    rw [hexecuted.tasks] at hget
    obtain ⟨task, htask, hid, hvalid⟩ := h.found id object hget
    by_cases hcalled : object ∈ after.calls
    · obtain ⟨hvalid', hid'⟩ := settled_valid (env object) hvalid
      exact ⟨_, hexecuted.executed object hcalled task htask, hid'.trans hid, hvalid'⟩
    · exact ⟨task, (hexecuted.untouched object hcalled).trans htask, hid, hvalid⟩

end TaskScheduler

end Portex
