import Portex.Foundation.Transition
import Portex.Scheduler.Robustness

/-!
# Passes among other calls

A pass waits for one executor at a time. While it waits, tasks are stored and removed, and other
passes go on. It does not look at the table again: what it has captured it executes, although a task
was removed or replaced since. Its bookkeeping writes to the captured object and never to the table.

## Main definitions

* `Pass`: a call of `run_pending` that waits for an executor
* `Scheduling`: the scheduler with its passes
* `Scheduling.step`: a call, or the end of an executor
* `Respects`: no pass executes what was withdrawn before its turn, or changes what replaced it
* `Undisturbed`: no task is taken out of the table that a pass has captured and not executed yet

## Main results

* `run_runPending`: a pass among no other calls
* `exists_turn`: what is captured can be executed
* `safe_iff_undisturbed`: the runs that respect removals, however the executors end
* `exists_executed`: a removed task is executed
-/

namespace Portex

open Foundation

/-- A call of `run_pending` that waits for an executor. -/
structure Pass where
  /-- `due_tasks`. -/
  due : List ℕ
  /-- The task whose executor was called. -/
  executing : ℕ
  /-- The tasks that the loop has not come to. -/
  remaining : List ℕ
  /-- The objects that were not in the table, at some time since the tasks were captured, and whose
  executor the pass had not called until then. -/
  withdrawn : List ℕ
  deriving DecidableEq

/-- The scheduler and its passes. -/
structure Scheduling extends SchedulerState where
  passes : ℕ → Option Pass := fun _ => none

inductive SchedulerAction
  /-- `upsert_task`, of an object that is new. -/
  | upsertTask (task : ScheduledTask) (validated initialized : Ticks)
  /-- `upsert_task`, of an object that was stored before. -/
  | upsertAgain (object : ℕ) (validated initialized : Ticks)
  | removeTask (id : String)
  /-- `run_pending`, up to its first executor. -/
  | runPending (pass : ℕ) (reading : Ticks)
  /-- The executor of a pass ends. -/
  | finish (pass : ℕ) (call : ExecutorCall)

/-- The action is the end of an executor. -/
def SchedulerAction.IsFinish : SchedulerAction → Prop
  | .finish .. => True
  | _ => False

/-- An object is taken out of the table. -/
def Pass.withdraw (taken : Option ℕ) (pass : Pass) : Pass :=
  { pass with withdrawn := taken.toList.filter (· ∈ pass.remaining) ++ pass.withdrawn }

/-- The first of some captured tasks that is not executed already. -/
def nextTask (s : SchedulerState) : List ℕ → Option (ℕ × ScheduledTask × List ℕ)
  | [] => none
  | object :: rest =>
    match s.objects.get? object with
    | none => nextTask s rest
    | some task => if task.id ∈ s.running then nextTask s rest else some (object, task, rest)

namespace Scheduling

/-- A pass goes on, or ends. -/
def setPass (s : Scheduling) (p : ℕ) (pass : Option Pass) : Scheduling :=
  { s with passes := Function.update s.passes p pass }

/-- What is stored under the id, and is not the entry. -/
def displaced (s : Scheduling) (id : String) (entry : Option ℕ) : Option ℕ :=
  (s.tasks.get? id).filter fun object => entry ≠ some object

/-- The entry of an id is set or removed. -/
def assign (s : Scheduling) (id : String) (entry : Option ℕ) : Scheduling :=
  { s with
    tasks := entry.elim (s.tasks.erase id) (s.tasks.insert id)
    passes := fun p => (s.passes p).map (Pass.withdraw (s.displaced id entry)) }

/-- A pass comes to its next executor, or to its end. -/
def goOn (s : Scheduling) (p : ℕ) (due remaining withdrawn : List ℕ) : Scheduling :=
  match nextTask s.toSchedulerState remaining with
  | none => s.setPass p none
  | some (object, task, rest) =>
    { s.setPass p (some ⟨due, object, rest, withdrawn⟩) with
      toSchedulerState := TaskScheduler.startTask task s.toSchedulerState }

/-- The objects that are not in the table. -/
def outside (s : Scheduling) : List ℕ :=
  (List.range s.objects.size).filter (· ∉ TaskScheduler.tableObjects s.toSchedulerState)

/-- The id of an object. -/
def idOf (s : Scheduling) (object : ℕ) : Option String :=
  (s.objects.get? object).map ScheduledTask.id

end Scheduling

namespace TaskScheduler

variable (scheduler : TaskScheduler)

/-- The entry that an action sets or removes. -/
def assigned (s : Scheduling) : SchedulerAction → Option (String × Option ℕ)
  | .upsertTask task validated initialized =>
    (scheduler.acceptTask task validated initialized).toOption.map fun task =>
      (task.id, some s.objects.size)
  | .upsertAgain object validated initialized =>
    (s.objects.get? object).bind fun task =>
      (scheduler.acceptTask task validated initialized).toOption.map fun task =>
        (task.id, some object)
  | .removeTask id => some (id, none)
  | _ => none

/-- The executor of a pass has ended. -/
def finish (s : Scheduling) (p : ℕ) (pass : Pass) (task : ScheduledTask) (call : ExecutorCall) :
    Scheduling :=
  match scheduler.finishTask pass.executing task call s.toSchedulerState with
  | (.error _, after) => { s with toSchedulerState := after }.setPass p none
  | (.ok (), after) =>
    { s with toSchedulerState := after }.goOn p pass.due pass.remaining pass.withdrawn

def step (s : Scheduling) : SchedulerAction → Option Scheduling
  | .upsertTask task validated initialized =>
    match scheduler.acceptTask task validated initialized with
    | .error _ => some s
    | .ok task =>
      some ({ s with objects := s.objects.alloc task }.assign task.id (some s.objects.size))
  | .upsertAgain object validated initialized =>
    match s.objects.get? object with
    | none => none
    | some task =>
      match scheduler.acceptTask task validated initialized with
      | .error _ => some s
      | .ok task =>
        some ({ s with objects := s.objects.modify object fun _ => task }.assign task.id
          (some object))
  | .removeTask id => some (s.assign id none)
  | .runPending p reading =>
    match s.passes p with
    | some _ => none
    | none =>
      match dueTasks s.toSchedulerState (scheduler.now reading) with
      | .error _ => some s
      | .ok due => some (s.goOn p due due s.outside)
  | .finish p call =>
    match s.passes p with
    | none => none
    | some pass =>
      (s.objects.get? pass.executing).map fun task => scheduler.finish s p pass task call

/-- No pass executes what was withdrawn before its turn. Its bookkeeping leaves the table as it is,
and the entries that are now stored under the ids of such tasks. -/
def Respects (s : Scheduling) : Prop :=
  ∀ p pass, s.passes p = some pass → pass.executing ∉ pass.withdrawn ∧
    ∀ call after, scheduler.step s (.finish p call) = some after →
      after.tasks = s.tasks ∧ ∀ object ∈ pass.due, object ∈ pass.withdrawn →
        ∀ id entry, s.idOf object = some id → s.tasks.get? id = some entry →
          after.objects.get? entry = s.objects.get? entry

/-- Removals are respected, however the executors end. -/
def Safe (s : Scheduling) : Prop :=
  ∀ l t, Run scheduler.step (fun _ a => a.IsFinish) s l t → scheduler.Respects t

/-- No action takes a task out of the table that a pass has captured and not come to. -/
def Undisturbed (s : Scheduling) (a : SchedulerAction) : Prop :=
  ∀ id entry object, scheduler.assigned s a = some (id, entry) →
    s.displaced id entry = some object →
      ∀ p pass, s.passes p = some pass → object ∉ pass.remaining

end TaskScheduler

/-! ## What the passes rely on -/

namespace Scheduling

variable {scheduler : TaskScheduler} {s t u : Scheduling} {p q object : ℕ} {id : String}
  {pass pass' : Pass} {due remaining withdrawn : List ℕ} {call : ExecutorCall}

/-- Captured tasks have different ids. -/
structure Captured (s : Scheduling) (due : List ℕ) : Prop where
  known : ∀ object ∈ due, ∃ id, s.idOf object = some id
  distinct : (due.map s.idOf).Nodup

/-- **The invariant**: an id that runs is executed by one pass, and a pass has captured what it
executes and what it has yet to execute. -/
structure Inv (s : Scheduling) : Prop where
  found : ∀ id object, s.tasks.get? id = some object → s.idOf object = some id
  running : ∀ id, id ∈ s.running ↔
    ∃ p pass, s.passes p = some pass ∧ s.idOf pass.executing = some id
  alone : ∀ p q pass pass', s.passes p = some pass → s.passes q = some pass' →
    s.idOf pass.executing = s.idOf pass'.executing → p = q
  captured : ∀ p pass, s.passes p = some pass → s.Captured pass.due
  sublist : ∀ p pass, s.passes p = some pass →
    (pass.executing :: pass.remaining).Sublist pass.due

/-- Objects keep their ids. -/
def Keeps (s u : Scheduling) : Prop :=
  ∀ object id, s.idOf object = some id → u.idOf object = some id

theorem idOf_of_get? {task : ScheduledTask} (h : s.objects.get? object = some task) :
    s.idOf object = some task.id := by
  simp [idOf, h]

theorem exists_of_idOf (h : s.idOf object = some id) :
    ∃ task, s.objects.get? object = some task ∧ task.id = id :=
  Option.map_eq_some_iff.mp h

theorem Captured.idOf_eq (h : s.Captured due) (hkeeps : Keeps s u) (hobject : object ∈ due) :
    u.idOf object = s.idOf object := by
  obtain ⟨id, hid⟩ := h.known object hobject
  rw [hid, hkeeps object id hid]

theorem Captured.keeps (h : s.Captured due) (hkeeps : Keeps s u) : u.Captured due where
  known object hobject := by
    obtain ⟨id, hid⟩ := h.known object hobject
    exact ⟨id, hkeeps object id hid⟩
  distinct := by
    rw [List.map_congr_left fun object hobject => h.idOf_eq hkeeps hobject]
    exact h.distinct

/-- Two captured tasks with one id are one. -/
theorem Captured.eq_of_idOf (h : s.Captured due) {object' : ℕ} (hobject : object ∈ due)
    (hobject' : object' ∈ due) (hid : s.idOf object = s.idOf object') : object = object' :=
  List.inj_on_of_nodup_map h.distinct hobject hobject' hid

theorem Inv.executing_mem (h : Inv s) (hpass : s.passes p = some pass) :
    pass.executing ∈ pass.due :=
  (h.sublist p pass hpass).subset List.mem_cons_self

theorem Inv.remaining_subset (h : Inv s) (hpass : s.passes p = some pass) :
    pass.remaining ⊆ pass.due :=
  fun _ hobject => (h.sublist p pass hpass).subset (List.mem_cons_of_mem _ hobject)

/-- What a pass executes is not what it has yet to execute. -/
theorem Inv.executing_notMem (h : Inv s) (hpass : s.passes p = some pass) :
    pass.executing ∉ pass.remaining := by
  have hnodup : pass.due.Nodup := .of_map _ (h.captured p pass hpass).distinct
  exact (List.nodup_cons.mp (hnodup.sublist (h.sublist p pass hpass))).1

theorem inv_empty : Inv {} where
  found id object h := by cases h
  running id := by simp
  alone p q pass pass' h := by cases h
  captured p pass h := by cases h
  sublist p pass h := by cases h

/-! ### The table -/

theorem inv_of_objects (h : Inv s) {objects : Heap ScheduledTask}
    (hkeeps : Keeps s { s with objects }) : Inv { s with objects } := by
  have hexecuting {p : ℕ} {pass : Pass} (hpass : s.passes p = some pass) :
      ({ s with objects } : Scheduling).idOf pass.executing = s.idOf pass.executing :=
    (h.captured p pass hpass).idOf_eq hkeeps (h.executing_mem hpass)
  refine ⟨fun id object hid => hkeeps object id (h.found id object hid), fun id => ?_,
    fun p q pass pass' hpass hpass' hid => ?_,
    fun p pass hpass => (h.captured p pass hpass).keeps hkeeps, h.sublist⟩
  · rw [h.running]
    constructor
    · rintro ⟨p, pass, hpass, hid⟩
      exact ⟨p, pass, hpass, (hexecuting hpass).trans hid⟩
    · rintro ⟨p, pass, hpass, hid⟩
      exact ⟨p, pass, hpass, (hexecuting hpass).symm.trans hid⟩
  · rw [hexecuting hpass, hexecuting hpass'] at hid
    exact h.alone p q pass pass' hpass hpass' hid

theorem keeps_alloc (s : Scheduling) (task : ScheduledTask) :
    Keeps s { s with objects := s.objects.alloc task } := by
  intro object id hid
  obtain ⟨task', hget, rfl⟩ := exists_of_idOf hid
  refine idOf_of_get? ?_
  rw [Heap.get?_alloc, if_neg (Heap.lt_size_of_get? hget).ne, hget]

theorem keeps_modify {task task' : ScheduledTask} (hget : s.objects.get? object = some task)
    (hid : task'.id = task.id) :
    Keeps s { s with objects := s.objects.modify object fun _ => task' } := by
  intro o id ho
  obtain ⟨old, hold, rfl⟩ := exists_of_idOf ho
  show ((s.objects.modify object fun _ => task').get? o).map ScheduledTask.id = _
  rw [Heap.get?_modify]
  split
  · rename_i heq
    obtain rfl := Option.some.inj (hget.symm.trans (heq ▸ hold))
    rw [heq, hget]
    exact congrArg some hid
  · rw [hold]
    rfl

theorem passes_assign {entry : Option ℕ} (h : (s.assign id entry).passes p = some pass') :
    ∃ pass, s.passes p = some pass ∧ pass' = pass.withdraw (s.displaced id entry) := by
  obtain ⟨pass, hpass, rfl⟩ := Option.map_eq_some_iff.mp h
  exact ⟨pass, hpass, rfl⟩

/-- **The entry of an id** is one of its objects. -/
theorem Inv.assign (h : Inv s) {entry : Option ℕ}
    (hentry : ∀ object, entry = some object → s.idOf object = some id) :
    Inv (s.assign id entry) where
  found id' object hget := by
    cases entry with
    | none =>
      replace hget : (s.tasks.erase id).get? id' = some object := hget
      rw [Dict.get?_erase] at hget
      split at hget
      · cases hget
      · exact h.found id' object hget
    | some stored =>
      replace hget : (s.tasks.insert id stored).get? id' = some object := hget
      rw [Dict.get?_insert] at hget
      split at hget
      · rename_i hid
        obtain rfl := Option.some.inj hget
        rw [hid]
        exact hentry stored rfl
      · exact h.found id' object hget
  running id' := by
    show id' ∈ s.running ↔ _
    rw [h.running]
    constructor
    · rintro ⟨p, pass, hpass, hid⟩
      exact ⟨p, _, Option.map_eq_some_iff.mpr ⟨pass, hpass, rfl⟩, hid⟩
    · rintro ⟨p, _, hpass, hid⟩
      obtain ⟨pass, hold, rfl⟩ := passes_assign hpass
      exact ⟨p, pass, hold, hid⟩
  alone p q _ _ hpass hpass' hid := by
    obtain ⟨pass, hold, rfl⟩ := passes_assign hpass
    obtain ⟨pass', hold', rfl⟩ := passes_assign hpass'
    exact h.alone p q pass pass' hold hold' hid
  captured p _ hpass := by
    obtain ⟨pass, hold, rfl⟩ := passes_assign hpass
    exact (h.captured p pass hold).keeps fun _ _ hid => hid
  sublist p _ hpass := by
    obtain ⟨pass, hold, rfl⟩ := passes_assign hpass
    exact h.sublist p pass hold

/-! ### Passes -/

@[simp] theorem setPass_passes (p q : ℕ) (pass : Option Pass) :
    (s.setPass p pass).passes q = if q = p then pass else s.passes q := by
  simp [setPass, Function.update_apply]

theorem goOn_setPass (s : Scheduling) (p : ℕ) (due remaining withdrawn : List ℕ) :
    (s.setPass p none).goOn p due remaining withdrawn = s.goOn p due remaining withdrawn := by
  unfold goOn setPass
  simp only [Function.update_idem]

/-- **The next task** is one of the captured tasks that is not executed already. -/
theorem nextTask_spec {s : SchedulerState} {task : ScheduledTask} {rest : List ℕ}
    (h : nextTask s remaining = some (object, task, rest)) :
    s.objects.get? object = some task ∧ task.id ∉ s.running ∧
      (object :: rest).Sublist remaining := by
  induction remaining with
  | nil => cases h
  | cons head remaining ih =>
    unfold nextTask at h
    cases hget : s.objects.get? head with
    | none =>
      rw [hget] at h
      obtain ⟨hobject, hidle, hsublist⟩ := ih h
      exact ⟨hobject, hidle, hsublist.cons head⟩
    | some task' =>
      rw [hget] at h
      simp only at h
      split at h
      · obtain ⟨hobject, hidle, hsublist⟩ := ih h
        exact ⟨hobject, hidle, hsublist.cons head⟩
      · rename_i hidle
        cases h
        exact ⟨hget, hidle, .refl _⟩

/-- A task that is not executed is come to. -/
theorem exists_nextTask {s : SchedulerState} {task : ScheduledTask} (hobject : object ∈ remaining)
    (hget : s.objects.get? object = some task) (hidle : task.id ∉ s.running) :
    ∃ first task' rest, nextTask s remaining = some (first, task', rest) ∧
      (first = object ∨ object ∈ rest) ∧ rest.length < remaining.length := by
  induction remaining with
  | nil => cases hobject
  | cons head remaining ih =>
    -- A head that is passed over is not the object.
    have hskip (hne : head ≠ object) := ih ((List.mem_cons.mp hobject).resolve_left (Ne.symm hne))
    have hlater (h : ∃ first task' rest, nextTask s remaining = some (first, task', rest) ∧
        (first = object ∨ object ∈ rest) ∧ rest.length < remaining.length) :
        ∃ first task' rest, nextTask s remaining = some (first, task', rest) ∧
          (first = object ∨ object ∈ rest) ∧ rest.length < (head :: remaining).length := by
      obtain ⟨first, task', rest, hnext, hor, hlt⟩ := h
      exact ⟨first, task', rest, hnext, hor, Nat.lt_succ_of_lt hlt⟩
    unfold nextTask
    cases hhead : s.objects.get? head with
    | none =>
      refine hlater (hskip ?_)
      rintro rfl
      rw [hget] at hhead
      cases hhead
    | some task' =>
      simp only
      split
      · rename_i hrunning
        refine hlater (hskip ?_)
        rintro rfl
        obtain rfl := Option.some.inj (hget.symm.trans hhead)
        exact hidle hrunning
      · exact ⟨head, task', remaining, rfl, (List.mem_cons.mp hobject).imp Eq.symm fun h => h,
          Nat.lt_succ_self _⟩

theorem goOn_cases (s : Scheduling) (p : ℕ) (due remaining withdrawn : List ℕ) :
    (nextTask s.toSchedulerState remaining = none ∧
      s.goOn p due remaining withdrawn = s.setPass p none) ∨
    ∃ object task rest, nextTask s.toSchedulerState remaining = some (object, task, rest) ∧
      s.goOn p due remaining withdrawn =
        { s.setPass p (some ⟨due, object, rest, withdrawn⟩) with
          toSchedulerState := TaskScheduler.startTask task s.toSchedulerState } := by
  unfold goOn
  cases hnext : nextTask s.toSchedulerState remaining with
  | none => exact .inl ⟨rfl, rfl⟩
  | some next => exact .inr ⟨next.1, next.2.1, next.2.2, rfl, rfl⟩

/-- The table, the objects and the other passes are as before. -/
theorem goOn_frame (s : Scheduling) (p : ℕ) (due remaining withdrawn : List ℕ) :
    (s.goOn p due remaining withdrawn).objects = s.objects ∧
      (s.goOn p due remaining withdrawn).tasks = s.tasks ∧
      ∀ q ≠ p, (s.goOn p due remaining withdrawn).passes q = s.passes q := by
  rcases goOn_cases s p due remaining withdrawn with ⟨-, heq⟩ | ⟨object, task, rest, -, heq⟩
  · rw [heq]
    exact ⟨rfl, rfl, fun q hq => by simp [hq]⟩
  · rw [heq]
    exact ⟨rfl, rfl, fun q hq => by simp [hq]⟩

/-- The pass that has gone on executes a task that it had yet to come to. -/
theorem passes_goOn (h : (s.goOn p due remaining withdrawn).passes p = some pass) :
    pass.due = due ∧ pass.withdrawn = withdrawn ∧
      (pass.executing :: pass.remaining).Sublist remaining := by
  rcases goOn_cases s p due remaining withdrawn with ⟨-, heq⟩ | ⟨object, task, rest, hnext, heq⟩
  · rw [heq, setPass_passes, if_pos rfl] at h
    cases h
  · rw [heq] at h
    simp only [setPass_passes, if_true] at h
    obtain rfl := Option.some.inj h
    exact ⟨rfl, rfl, (nextTask_spec hnext).2.2⟩

theorem passes_goOn_of_nextTask {task : ScheduledTask} {rest : List ℕ}
    (h : nextTask s.toSchedulerState remaining = some (object, task, rest)) :
    (s.goOn p due remaining withdrawn).passes p = some ⟨due, object, rest, withdrawn⟩ := by
  unfold goOn
  rw [h]
  exact (setPass_passes p p _).trans (if_pos rfl)

/-- A pass without executor is not in flight. -/
theorem setPass_of_none (h : s.passes p = none) : s.setPass p none = s := by
  unfold setPass
  rw [Function.update_eq_self_iff.mpr h.symm]

/-- **An executor is called**: no other pass executes that task. -/
theorem Inv.start (h : Inv s) {task : ScheduledTask} {rest : List ℕ} (hpass : s.passes p = none)
    (hdue : s.Captured due) (hsublist : (object :: rest).Sublist due)
    (hget : s.objects.get? object = some task) (hidle : task.id ∉ s.running)
    (hobjects : u.objects = s.objects) (htasks : u.tasks = s.tasks)
    (hrunning : u.running = task.id :: s.running)
    (hpasses : u.passes = (s.setPass p (some ⟨due, object, rest, withdrawn⟩)).passes) : Inv u := by
  have hidOf : u.idOf = s.idOf := by
    unfold idOf
    rw [hobjects]
  have hkeeps : Keeps s u := fun o id ho => by rw [hidOf, ho]
  have hid : s.idOf object = some task.id := idOf_of_get? hget
  -- The passes are those from before, and the one that has gone on.
  have hcases {q : ℕ} {pass : Pass} (hq : u.passes q = some pass) :
      (q = p ∧ pass = ⟨due, object, rest, withdrawn⟩) ∨ (q ≠ p ∧ s.passes q = some pass) := by
    rw [hpasses, setPass_passes] at hq
    split at hq
    · rename_i heq
      exact .inl ⟨heq, (Option.some.inj hq).symm⟩
    · rename_i hne
      exact .inr ⟨hne, hq⟩
  have hother {q : ℕ} {pass : Pass} (hq : s.passes q = some pass) :
      s.idOf pass.executing ≠ some task.id := fun heq =>
    hidle ((h.running task.id).mpr ⟨q, pass, hq, heq⟩)
  refine ⟨fun id o ho => ?_, fun id => ?_, fun q q' pass pass' hq hq' heq => ?_,
    fun q pass hq => ?_, fun q pass hq => ?_⟩
  · rw [htasks] at ho
    exact hkeeps o id (h.found id o ho)
  · rw [hrunning, List.mem_cons, h.running, hidOf]
    constructor
    · rintro (rfl | ⟨q, pass, hq, hexecuting⟩)
      · exact ⟨p, ⟨due, object, rest, withdrawn⟩, by rw [hpasses, setPass_passes, if_pos rfl], hid⟩
      · refine ⟨q, pass, ?_, hexecuting⟩
        rw [hpasses, setPass_passes, if_neg, hq]
        rintro rfl
        rw [hpass] at hq
        cases hq
    · rintro ⟨q, pass, hq, hexecuting⟩
      rcases hcases hq with ⟨rfl, rfl⟩ | ⟨-, hq⟩
      · exact .inl (Option.some.inj (hexecuting.symm.trans hid))
      · exact .inr ⟨q, pass, hq, hexecuting⟩
  · rw [hidOf] at heq
    rcases hcases hq with ⟨rfl, rfl⟩ | ⟨-, hq⟩
    · rcases hcases hq' with ⟨rfl, -⟩ | ⟨-, hq'⟩
      · rfl
      · exact absurd (heq.symm.trans hid) (hother hq')
    · rcases hcases hq' with ⟨rfl, rfl⟩ | ⟨-, hq'⟩
      · exact absurd (heq.trans hid) (hother hq)
      · exact h.alone q q' pass pass' hq hq' heq
  · rcases hcases hq with ⟨rfl, rfl⟩ | ⟨-, hq⟩
    · exact hdue.keeps hkeeps
    · exact (h.captured q pass hq).keeps hkeeps
  · rcases hcases hq with ⟨rfl, rfl⟩ | ⟨-, hq⟩
    · exact hsublist
    · exact h.sublist q pass hq

/-- **A pass goes on.** -/
theorem Inv.goOn (h : Inv s) (hpass : s.passes p = none) (hdue : s.Captured due)
    (hsublist : remaining.Sublist due) : Inv (s.goOn p due remaining withdrawn) := by
  rcases goOn_cases s p due remaining withdrawn with ⟨-, heq⟩ | ⟨object, task, rest, hnext, heq⟩
  · rw [heq, setPass_of_none hpass]
    exact h
  · obtain ⟨hget, hidle, hrest⟩ := nextTask_spec hnext
    rw [heq]
    exact h.start hpass hdue (hrest.trans hsublist) hget hidle rfl rfl rfl rfl

/-! ### The end of an executor -/

/-- The bookkeeping writes to the task that was executed. -/
theorem finishTask_frame (scheduler : TaskScheduler) {s : SchedulerState} {task : ScheduledTask}
    (call : ExecutorCall) (hget : s.objects.get? object = some task) :
    let after := (scheduler.finishTask object task call s).2
    after.tasks = s.tasks ∧ after.running = s.running.filter (· ≠ task.id) ∧
      (∀ o ≠ object, after.objects.get? o = s.objects.get? o) ∧
      ∀ o old, s.objects.get? o = some old →
        ∃ new, after.objects.get? o = some new ∧ new.id = old.id := by
  unfold TaskScheduler.finishTask
  cases call.outcome with
  | failure => exact ⟨rfl, rfl, fun _ _ => rfl, fun o old hold => ⟨old, hold, rfl⟩⟩
  | success =>
    simp only
    cases hmark : scheduler.markTaskAfterSuccess task call.anchored call.reading with
    | error error => exact ⟨rfl, rfl, fun _ _ => rfl, fun o old hold => ⟨old, hold, rfl⟩⟩
    | ok task' =>
      refine ⟨rfl, rfl, fun o hne => ?_, fun o old hold => ?_⟩
      · simp only [Heap.get?_modify, if_neg hne]
      · simp only [Heap.get?_modify]
        split
        · rename_i heq
          rw [heq, hget] at hold ⊢
          obtain rfl := Option.some.inj hold
          exact ⟨task', rfl, (TaskScheduler.markTaskAfterSuccess_keeps hmark).1⟩
        · exact ⟨old, hold, rfl⟩

/-- **An executor ends**: its pass is not in flight, until it goes on. -/
theorem Inv.ended (h : Inv s) (scheduler : TaskScheduler) (hpass : s.passes p = some pass)
    {task : ScheduledTask} (hget : s.objects.get? pass.executing = some task)
    (call : ExecutorCall) :
    let after := (scheduler.finishTask pass.executing task call s.toSchedulerState).2
    Inv ({ s with toSchedulerState := after }.setPass p none) ∧
      Keeps s ({ s with toSchedulerState := after }.setPass p none) := by
  intro after
  obtain ⟨htasks, hrunning, -, hobjects⟩ := finishTask_frame scheduler call hget
  have hkeeps : Keeps s ({ s with toSchedulerState := after }.setPass p none) := by
    intro o id ho
    obtain ⟨old, hold, rfl⟩ := exists_of_idOf ho
    obtain ⟨new, hnew, hid⟩ := hobjects o old hold
    rw [← hid]
    exact idOf_of_get? hnew
  have hcases {q : ℕ} {pass' : Pass}
      (hq : ({ s with toSchedulerState := after }.setPass p none).passes q = some pass') :
      q ≠ p ∧ s.passes q = some pass' := by
    rw [setPass_passes] at hq
    split at hq
    · cases hq
    · rename_i hne
      exact ⟨hne, hq⟩
  have hexecuting {q : ℕ} {pass' : Pass} (hq : s.passes q = some pass') :=
    (h.captured q pass' hq).idOf_eq hkeeps (h.executing_mem hq)
  refine ⟨⟨fun id o ho => ?_, fun id => ?_, fun q q' pass pass' hq hq' heq => ?_,
    fun q pass hq => ?_, fun q pass hq => h.sublist q pass (hcases hq).2⟩, hkeeps⟩
  · exact hkeeps o id (h.found id o (htasks ▸ ho))
  · show id ∈ after.running ↔ _
    rw [hrunning, List.mem_filter, decide_eq_true_iff, h.running]
    constructor
    · rintro ⟨⟨q, pass', hq, hid⟩, hne⟩
      refine ⟨q, pass', ?_, (hexecuting hq).trans hid⟩
      rw [setPass_passes, if_neg]
      · exact hq
      · rintro rfl
        obtain rfl := Option.some.inj (hpass.symm.trans hq)
        exact hne (Option.some.inj (hid.symm.trans (idOf_of_get? hget)))
    · rintro ⟨q, pass', hq, hid⟩
      obtain ⟨hne, hq⟩ := hcases hq
      rw [hexecuting hq] at hid
      refine ⟨⟨q, pass', hq, hid⟩, fun heq => hne ?_⟩
      refine h.alone q p pass' pass hq hpass ?_
      rw [hid, heq, idOf_of_get? hget]
  · obtain ⟨-, hq⟩ := hcases hq
    obtain ⟨-, hq'⟩ := hcases hq'
    rw [hexecuting hq, hexecuting hq'] at heq
    exact h.alone q q' pass pass' hq hq' heq
  · exact (h.captured q pass (hcases hq).2).keeps hkeeps

theorem finish_eq (scheduler : TaskScheduler) (s : Scheduling) (p : ℕ) (pass : Pass)
    (task : ScheduledTask) (call : ExecutorCall) :
    let after := (scheduler.finishTask pass.executing task call s.toSchedulerState).2
    let ended := { s with toSchedulerState := after }.setPass p none
    scheduler.finish s p pass task call = ended ∨
      scheduler.finish s p pass task call =
        ended.goOn p pass.due pass.remaining pass.withdrawn := by
  unfold TaskScheduler.finish
  rcases scheduler.finishTask pass.executing task call s.toSchedulerState with ⟨result, after⟩
  cases result with
  | error error => exact .inl rfl
  | ok => exact .inr (goOn_setPass _ p _ _ _).symm

/-- What the end of an executor does. -/
structure Finished (s : Scheduling) (p : ℕ) (pass : Pass) (u : Scheduling) : Prop where
  inv : Inv u
  keeps : Keeps s u
  tasks : u.tasks = s.tasks
  objects : ∀ o ≠ pass.executing, u.objects.get? o = s.objects.get? o
  others : ∀ q ≠ p, u.passes q = s.passes q
  goesOn : ∀ pass', u.passes p = some pass' → pass'.due = pass.due ∧
    pass'.withdrawn = pass.withdrawn ∧
      (pass'.executing :: pass'.remaining).Sublist pass.remaining

/-- **The end of an executor** leaves the table as it is, and the other tasks and passes. -/
theorem Inv.finish (h : Inv s) (scheduler : TaskScheduler) (hpass : s.passes p = some pass)
    {task : ScheduledTask} (hget : s.objects.get? pass.executing = some task)
    (call : ExecutorCall) :
    Finished s p pass (scheduler.finish s p pass task call) := by
  obtain ⟨hinv, hkeeps⟩ := h.ended scheduler hpass hget call
  obtain ⟨htasks, -, hobjects, -⟩ := finishTask_frame scheduler call hget
  rcases finish_eq scheduler s p pass task call with heq | heq
  · rw [heq]
    refine ⟨hinv, hkeeps, htasks, hobjects, fun q hq => by simp [hq], fun pass' hpass' => ?_⟩
    rw [setPass_passes, if_pos rfl] at hpass'
    cases hpass'
  · rw [heq]
    obtain ⟨hobjects', htasks', hothers⟩ := goOn_frame ({ s with
      toSchedulerState := (scheduler.finishTask pass.executing task call s.toSchedulerState).2
      }.setPass p none) p pass.due pass.remaining pass.withdrawn
    have hdue := (h.captured p pass hpass).keeps hkeeps
    have hsublist := (List.sublist_cons_self _ _).trans (h.sublist p pass hpass)
    refine ⟨hinv.goOn (by simp) hdue hsublist, fun o id ho => ?_, htasks'.trans htasks,
      fun o ho => ?_, fun q hq => ?_, fun pass' hpass' => passes_goOn hpass'⟩
    · have hid := hkeeps o id ho
      unfold idOf at hid ⊢
      rw [hobjects']
      exact hid
    · rw [hobjects']
      exact hobjects o ho
    · rw [hothers q hq]
      simp [hq]

theorem step_finish (h : scheduler.step s (.finish p call) = some u) :
    ∃ pass task, s.passes p = some pass ∧ s.objects.get? pass.executing = some task ∧
      u = scheduler.finish s p pass task call := by
  simp only [TaskScheduler.step] at h
  cases hpass : s.passes p with
  | none =>
    rw [hpass] at h
    cases h
  | some pass =>
    rw [hpass] at h
    obtain ⟨task, hget, rfl⟩ := Option.map_eq_some_iff.mp h
    exact ⟨pass, task, rfl, hget, rfl⟩

/-- The objects of the table have the ids that they are stored under. -/
theorem Inv.nodup_tableObjects (h : Inv s) :
    ((TaskScheduler.tableObjects s.toSchedulerState).map s.idOf).Nodup := by
  have hids : (TaskScheduler.tableObjects s.toSchedulerState).map s.idOf =
      s.tasks.keys.map some := by
    unfold TaskScheduler.tableObjects
    rw [List.map_filterMap, ← List.filterMap_eq_map]
    refine List.filterMap_congr fun id hid => ?_
    obtain ⟨object, hobject⟩ := (s.tasks.mem_keys_iff id).mp hid
    rw [hobject]
    exact congrArg some (h.found id object hobject)
  rw [hids]
  exact s.tasks.nodup.map (Option.some_injective _)

/-- **The captured tasks** are in the table. -/
theorem Inv.captured_dueTasks (h : Inv s) {now : Datetime}
    (hdue : TaskScheduler.dueTasks s.toSchedulerState now = .ok due) :
    s.Captured due ∧ ∀ object ∈ due, object ∉ s.outside := by
  obtain ⟨objects, hperm, hsublist, -⟩ := TaskScheduler.dueTasks_captures hdue
  have htable {object : ℕ} (hobject : object ∈ due) :
      object ∈ TaskScheduler.tableObjects s.toSchedulerState :=
    hsublist.subset (hperm.subset hobject)
  refine ⟨⟨fun object hobject => ?_, ?_⟩, fun object hobject houtside => ?_⟩
  · obtain ⟨id, hid⟩ := TaskScheduler.mem_tableObjects.mp (htable hobject)
    exact ⟨id, h.found id object hid⟩
  · rw [(hperm.map s.idOf).nodup_iff]
    exact h.nodup_tableObjects.sublist (hsublist.map s.idOf)
  · unfold outside at houtside
    rw [List.mem_filter, decide_eq_true_iff] at houtside
    exact houtside.2 (htable hobject)

/-- **Every action** keeps the invariant. -/
theorem Inv.step (h : Inv s) {a : SchedulerAction} (hstep : scheduler.step s a = some u) :
    Inv u := by
  cases a with
  | upsertTask task validated initialized =>
    simp only [TaskScheduler.step] at hstep
    split at hstep
    · obtain rfl := Option.some.inj hstep
      exact h
    · rename_i task' _
      obtain rfl := Option.some.inj hstep
      refine (inv_of_objects h (keeps_alloc s task')).assign fun object hobject => ?_
      obtain rfl := Option.some.inj hobject
      exact idOf_of_get? (by rw [Heap.get?_alloc, if_pos rfl])
  | upsertAgain object validated initialized =>
    simp only [TaskScheduler.step] at hstep
    split at hstep
    · cases hstep
    · rename_i task hget
      split at hstep
      · obtain rfl := Option.some.inj hstep
        exact h
      · rename_i task' haccept
        obtain rfl := Option.some.inj hstep
        have hid := (TaskScheduler.acceptTask_valid haccept).2
        refine (inv_of_objects h (keeps_modify hget hid)).assign fun object' hobject => ?_
        obtain rfl := Option.some.inj hobject
        rw [hid]
        exact keeps_modify hget hid object task.id (idOf_of_get? hget)
  | removeTask id =>
    obtain rfl := Option.some.inj hstep
    exact h.assign fun object hobject => by cases hobject
  | runPending p reading =>
    simp only [TaskScheduler.step] at hstep
    split at hstep
    · cases hstep
    · rename_i hpass
      split at hstep
      · obtain rfl := Option.some.inj hstep
        exact h
      · rename_i due hdue
        obtain rfl := Option.some.inj hstep
        exact h.goOn hpass (h.captured_dueTasks hdue).1 (.refl due)
  | finish p call =>
    obtain ⟨pass, task, hpass, hget, rfl⟩ := step_finish hstep
    exact (h.finish scheduler hpass hget call).inv

/-- **A pass begins** by its own call only. -/
theorem Inv.passes_eq_none (h : Inv s) {a : SchedulerAction}
    (hstep : scheduler.step s a = some u) (hnone : s.passes p = none)
    (hcall : ∀ reading, a ≠ .runPending p reading) : u.passes p = none := by
  -- An assignment of the scheduler's dictionary reaches the passes there are, and no others.
  have hassign (t : Scheduling) (ht : t.passes p = none) (id : String) (entry : Option ℕ) :
      (t.assign id entry).passes p = none := by
    show (t.passes p).map _ = none
    rw [ht, Option.map_none]
  cases a with
  | upsertTask task validated initialized =>
    simp only [TaskScheduler.step] at hstep
    split at hstep
    · obtain rfl := Option.some.inj hstep
      exact hnone
    · obtain rfl := Option.some.inj hstep
      exact hassign _ hnone _ _
  | upsertAgain object validated initialized =>
    simp only [TaskScheduler.step] at hstep
    split at hstep
    · cases hstep
    · split at hstep
      · obtain rfl := Option.some.inj hstep
        exact hnone
      · obtain rfl := Option.some.inj hstep
        exact hassign _ hnone _ _
  | removeTask id =>
    obtain rfl := Option.some.inj hstep
    exact hassign s hnone id none
  | runPending q reading =>
    have hne : p ≠ q := by
      rintro rfl
      exact hcall reading rfl
    simp only [TaskScheduler.step] at hstep
    split at hstep
    · cases hstep
    · split at hstep
      · obtain rfl := Option.some.inj hstep
        exact hnone
      · obtain rfl := Option.some.inj hstep
        rw [(goOn_frame _ q _ _ _).2.2 p hne, hnone]
  | finish q call =>
    obtain ⟨pass, task, hpass, hget, rfl⟩ := step_finish hstep
    have hne : p ≠ q := by
      rintro rfl
      rw [hnone] at hpass
      cases hpass
    rw [(h.finish scheduler hpass hget call).others p hne, hnone]

/-! ## The turn of a captured task -/

/-- A pass goes on after an executor that fails. -/
theorem Inv.exists_finish (h : Inv s) (scheduler : TaskScheduler) (hpass : s.passes p = some pass) :
    ∃ u, Run scheduler.step (fun _ a => a.IsFinish) s
        [.finish p ⟨.failure, ⟨0, by decide⟩, ⟨0, by decide⟩⟩] u ∧ Finished s p pass u ∧
      ∀ object ∈ pass.remaining, ∀ id, s.idOf object = some id →
        (∀ q pass', q ≠ p → s.passes q = some pass' → s.idOf pass'.executing ≠ some id) →
          ∃ pass', u.passes p = some pass' ∧
            (pass'.executing = object ∨ object ∈ pass'.remaining) ∧
              pass'.remaining.length < pass.remaining.length := by
  obtain ⟨id, hid⟩ := (h.captured p pass hpass).known _ (h.executing_mem hpass)
  obtain ⟨task, hget, rfl⟩ := exists_of_idOf hid
  have hstep : scheduler.step s (.finish p ⟨.failure, ⟨0, by decide⟩, ⟨0, by decide⟩⟩) =
      some (scheduler.finish s p pass task ⟨.failure, ⟨0, by decide⟩, ⟨0, by decide⟩⟩) := by
    simp only [TaskScheduler.step, hpass, hget]
    rfl
  refine ⟨_, .single trivial hstep, h.finish scheduler hpass hget _,
    fun object hobject id hid' hothers => ?_⟩
  obtain ⟨task', hget', rfl⟩ := exists_of_idOf hid'
  -- The id of the object is not among those that run.
  have hidle : task'.id ∉ s.running.filter (· ≠ task.id) := by
    rw [List.mem_filter, decide_eq_true_iff]
    rintro ⟨hrunning, hne⟩
    obtain ⟨q, pass', hq, hexecuting⟩ := (h.running task'.id).mp hrunning
    by_cases hqp : q = p
    · subst hqp
      obtain rfl := Option.some.inj (hpass.symm.trans hq)
      exact hne (Option.some.inj (hexecuting.symm.trans hid))
    · exact hothers q pass' hqp hq hexecuting
  obtain ⟨first, task'', rest, hnext, hor, hlt⟩ := exists_nextTask
    (s := { s.toSchedulerState with running := s.running.filter (· ≠ task.id) })
    hobject hget' hidle
  exact ⟨⟨pass.due, first, rest, pass.withdrawn⟩, passes_goOn_of_nextTask hnext, hor, hlt⟩

/-- What a pass has captured is executed, where the executors go on to fail and no other pass
executes it. -/
theorem Inv.exists_turn_of_alone {n : ℕ} (h : Inv s) (scheduler : TaskScheduler)
    (hpass : s.passes p = some pass)
    (hobject : object ∈ pass.remaining) (hid : s.idOf object = some id)
    (hothers : ∀ q pass', q ≠ p → s.passes q = some pass' → s.idOf pass'.executing ≠ some id)
    (hlength : pass.remaining.length ≤ n) :
    ∃ l u pass', Run scheduler.step (fun _ a => a.IsFinish) s l u ∧ u.passes p = some pass' ∧
      pass'.executing = object ∧ pass'.withdrawn = pass.withdrawn := by
  induction n generalizing s pass with
  | zero =>
    rw [List.eq_nil_of_length_eq_zero (Nat.le_zero.mp hlength)] at hobject
    cases hobject
  | succ n ih =>
    obtain ⟨t, hrun, hfinished, hturn⟩ := h.exists_finish scheduler hpass
    obtain ⟨pass', hpass', hor, hlt⟩ := hturn object hobject id hid hothers
    obtain ⟨-, hwithdrawn, -⟩ := hfinished.goesOn pass' hpass'
    rcases hor with heq | hobject'
    · exact ⟨_, t, pass', hrun, hpass', heq, hwithdrawn⟩
    · have hothers' : ∀ q pass'', q ≠ p → t.passes q = some pass'' →
          t.idOf pass''.executing ≠ some id := by
        intro q pass'' hqp hq
        rw [hfinished.others q hqp] at hq
        rw [(h.captured q pass'' hq).idOf_eq hfinished.keeps (h.executing_mem hq)]
        exact hothers q pass'' hqp hq
      obtain ⟨l, u, pass'', hrun', hpass'', heq, hwithdrawn'⟩ := ih hfinished.inv hpass' hobject'
        (hfinished.keeps object id hid) hothers' (by omega)
      exact ⟨_, u, pass'', hrun.append hrun', hpass'', heq, hwithdrawn'.trans hwithdrawn⟩

/-- **The turn of a task**: what a pass has captured and not come to, it can come to execute. -/
theorem Inv.exists_turn (h : Inv s) (scheduler : TaskScheduler) (hpass : s.passes p = some pass)
    (hobject : object ∈ pass.remaining) :
    ∃ l u pass', Run scheduler.step (fun _ a => a.IsFinish) s l u ∧ u.passes p = some pass' ∧
      pass'.executing = object ∧ pass'.withdrawn = pass.withdrawn := by
  obtain ⟨id, hid⟩ := (h.captured p pass hpass).known object (h.remaining_subset hpass hobject)
  by_cases hothers : ∃ q pass', q ≠ p ∧ s.passes q = some pass' ∧ s.idOf pass'.executing = some id
  · -- The other pass goes on first, to a task that has another id.
    obtain ⟨q, pass', hqp, hq, hexecuting⟩ := hothers
    obtain ⟨t, hrun, hfinished, -⟩ := h.exists_finish scheduler hq
    have hpass' : t.passes p = some pass := by rw [hfinished.others p (Ne.symm hqp), hpass]
    have hothers' : ∀ r pass'', r ≠ p → t.passes r = some pass'' →
        t.idOf pass''.executing ≠ some id := by
      intro r pass'' hrp hr hid'
      by_cases hrq : r = q
      · subst hrq
        obtain ⟨-, -, hsublist⟩ := hfinished.goesOn pass'' hr
        have hmem := hsublist.subset List.mem_cons_self
        have hdue := h.remaining_subset hq hmem
        rw [(h.captured r pass' hq).idOf_eq hfinished.keeps hdue, ← hexecuting] at hid'
        have heq := (h.captured r pass' hq).eq_of_idOf hdue (h.executing_mem hq) hid'
        exact h.executing_notMem hq (heq ▸ hmem)
      · rw [hfinished.others r hrq] at hr
        rw [(h.captured r pass'' hr).idOf_eq hfinished.keeps (h.executing_mem hr)] at hid'
        exact hrq (h.alone r q pass'' pass' hr hq (hid'.trans hexecuting.symm))
    obtain ⟨l, u, pass'', hrun', hu⟩ := hfinished.inv.exists_turn_of_alone scheduler hpass' hobject
      (hfinished.keeps object id hid) hothers' le_rfl
    exact ⟨_, u, pass'', hrun.append hrun', hu⟩
  · exact h.exists_turn_of_alone scheduler hpass hobject hid
      (fun q pass' hqp hq heq => hothers ⟨q, pass', hqp, hq, heq⟩) le_rfl

/-! ## Removals that are respected -/

/-- Nothing was withdrawn that a pass executes, or has yet to come to. -/
def Intact (s : Scheduling) : Prop :=
  ∀ p pass, s.passes p = some pass → pass.executing ∉ pass.withdrawn ∧
    ∀ object ∈ pass.remaining, object ∉ pass.withdrawn

theorem intact_empty : Intact {} := by
  intro p pass h
  cases h

theorem Inv.intact_finish (h : Inv s) (hintact : s.Intact)
    (hstep : scheduler.step s (.finish p call) = some u) : u.Intact := by
  obtain ⟨pass, task, hpass, hget, rfl⟩ := step_finish hstep
  have hfinished := h.finish scheduler hpass hget call
  intro q pass' hq
  by_cases hqp : q = p
  · subst hqp
    obtain ⟨-, hwithdrawn, hsublist⟩ := hfinished.goesOn pass' hq
    have hremaining := (hintact q pass hpass).2
    rw [hwithdrawn]
    exact ⟨hremaining _ (hsublist.subset List.mem_cons_self),
      fun o ho => hremaining o (hsublist.subset (List.mem_cons_of_mem _ ho))⟩
  · rw [hfinished.others q hqp] at hq
    exact hintact q pass' hq

/-- Where nothing was withdrawn, the bookkeeping changes no entry that has replaced a task. -/
theorem Inv.respects (h : Inv s) (hintact : s.Intact) : scheduler.Respects s := by
  intro p pass hpass
  refine ⟨(hintact p pass hpass).1, fun call u hstep => ?_⟩
  obtain ⟨pass', task, hpass', hget, rfl⟩ := step_finish hstep
  obtain rfl := Option.some.inj (hpass.symm.trans hpass')
  have hfinished := h.finish scheduler hpass hget call
  refine ⟨hfinished.tasks, fun object hobject hwithdrawn id entry hid hentry => ?_⟩
  refine hfinished.objects entry fun heq => ?_
  -- Only the executed task has its id among those that the pass has captured.
  have hsame : s.idOf object = s.idOf pass.executing := by
    rw [hid, ← heq, h.found id entry hentry]
  have hexecuting :=
    (h.captured p pass hpass).eq_of_idOf hobject (h.executing_mem hpass) hsame
  exact (hintact p pass hpass).1 (hexecuting ▸ hwithdrawn)

/-- **Safe states** are the intact ones: what was withdrawn can have its turn. -/
theorem Inv.safe_iff (h : Inv s) : scheduler.Safe s ↔ s.Intact := by
  constructor
  · intro hsafe p pass hpass
    refine ⟨(hsafe [] s .nil p pass hpass).1, fun object hobject hwithdrawn => ?_⟩
    obtain ⟨l, u, pass', hrun, hpass', rfl, heq⟩ :=
      h.exists_turn scheduler hpass hobject
    exact (hsafe l u hrun p pass' hpass').1 (heq ▸ hwithdrawn)
  · intro hintact l t hrun
    have hboth : Inv t ∧ t.Intact := by
      refine hrun.invariant (I := fun t => Inv t ∧ t.Intact) ⟨h, hintact⟩ ?_
      intro t u a ht ha hstep
      refine ⟨ht.1.step hstep, ?_⟩
      cases a with
      | finish p call => exact ht.1.intact_finish ht.2 hstep
      | _ => cases ha
    exact hboth.1.respects hboth.2

theorem mem_withdraw {taken : Option ℕ} {o : ℕ} : o ∈ (pass.withdraw taken).withdrawn ↔
    (taken = some o ∧ o ∈ pass.remaining) ∨ o ∈ pass.withdrawn := by
  unfold Pass.withdraw
  cases taken with
  | none => simp
  | some object =>
    simp only [List.mem_append, List.mem_filter, Option.mem_toList, decide_eq_true_iff]

/-- What an entry displaces is withdrawn from the passes that have yet to come to it. -/
theorem Inv.intact_assign_iff (h : Inv s) (hintact : s.Intact) {entry : Option ℕ} :
    (s.assign id entry).Intact ↔ ∀ object, s.displaced id entry = some object →
      ∀ p pass, s.passes p = some pass → object ∉ pass.remaining := by
  constructor
  · intro hassigned object hdisplaced p pass hpass hobject
    have hpass' : (s.assign id entry).passes p = some (pass.withdraw (s.displaced id entry)) :=
      Option.map_eq_some_iff.mpr ⟨pass, hpass, rfl⟩
    exact (hassigned p _ hpass').2 object hobject (mem_withdraw.mpr (.inl ⟨hdisplaced, hobject⟩))
  · intro hdisplaced p pass' hpass'
    obtain ⟨pass, hpass, rfl⟩ := passes_assign hpass'
    obtain ⟨hexecuting, hremaining⟩ := hintact p pass hpass
    refine ⟨fun hmem => ?_, fun object hobject hmem => ?_⟩
    · rcases mem_withdraw.mp hmem with ⟨-, hobject⟩ | hwithdrawn
      · exact h.executing_notMem hpass hobject
      · exact hexecuting hwithdrawn
    · rcases mem_withdraw.mp hmem with ⟨htaken, -⟩ | hwithdrawn
      · exact hdisplaced object htaken p pass hpass hobject
      · exact hremaining object hobject hwithdrawn

theorem intact_goOn (hintact : s.Intact) (hdisjoint : ∀ object ∈ remaining, object ∉ withdrawn) :
    (s.goOn p due remaining withdrawn).Intact := by
  intro q pass hq
  by_cases hqp : q = p
  · subst hqp
    obtain ⟨-, hwithdrawn, hsublist⟩ := passes_goOn hq
    rw [hwithdrawn]
    exact ⟨hdisjoint _ (hsublist.subset List.mem_cons_self),
      fun o ho => hdisjoint o (hsublist.subset (List.mem_cons_of_mem _ ho))⟩
  · rw [(goOn_frame s p due remaining withdrawn).2.2 q hqp] at hq
    exact hintact q pass hq

/-- **One action** keeps a state intact just if it takes out no task that has yet to come. -/
theorem Inv.intact_iff (h : Inv s) (hintact : s.Intact) {a : SchedulerAction}
    (hstep : scheduler.step s a = some u) : u.Intact ↔ scheduler.Undisturbed s a := by
  have hnothing (hnone : scheduler.assigned s a = none) : scheduler.Undisturbed s a := by
    intro id entry object hassigned
    rw [hnone] at hassigned
    cases hassigned
  have hentry {id : String} {entry : Option ℕ} (hsome : scheduler.assigned s a = some (id, entry)) :
      (∀ object, s.displaced id entry = some object →
        ∀ p pass, s.passes p = some pass → object ∉ pass.remaining) ↔
          scheduler.Undisturbed s a := by
    unfold TaskScheduler.Undisturbed
    rw [hsome]
    constructor
    · rintro hall _ _ object ⟨⟩
      exact hall object
    · exact fun hundisturbed object => hundisturbed id entry object rfl
  cases a with
  | upsertTask task validated initialized =>
    simp only [TaskScheduler.step] at hstep
    split at hstep
    · rename_i haccept
      obtain rfl := Option.some.inj hstep
      exact iff_of_true hintact (hnothing (by
        simp [TaskScheduler.assigned, haccept, Except.toOption]))
    · rename_i task' haccept
      obtain rfl := Option.some.inj hstep
      rw [← hentry (by
        simp [TaskScheduler.assigned, haccept, Except.toOption]
        exact ⟨rfl, rfl⟩)]
      exact (inv_of_objects h (keeps_alloc s task')).intact_assign_iff hintact
  | upsertAgain object validated initialized =>
    simp only [TaskScheduler.step] at hstep
    split at hstep
    · cases hstep
    · rename_i task hget
      split at hstep
      · rename_i haccept
        obtain rfl := Option.some.inj hstep
        exact iff_of_true hintact
          (hnothing (by simp [TaskScheduler.assigned, hget, haccept, Except.toOption]))
      · rename_i task' haccept
        obtain rfl := Option.some.inj hstep
        rw [← hentry (by
          simp [TaskScheduler.assigned, hget, haccept, Except.toOption]
          exact ⟨rfl, rfl⟩)]
        have hid := (TaskScheduler.acceptTask_valid haccept).2
        exact (inv_of_objects h (keeps_modify hget hid)).intact_assign_iff hintact
  | removeTask id =>
    obtain rfl := Option.some.inj hstep
    rw [← hentry rfl]
    exact h.intact_assign_iff hintact
  | runPending p reading =>
    refine iff_of_true ?_ (hnothing rfl)
    simp only [TaskScheduler.step] at hstep
    split at hstep
    · cases hstep
    · split at hstep
      · obtain rfl := Option.some.inj hstep
        exact hintact
      · rename_i due hdue
        obtain rfl := Option.some.inj hstep
        exact intact_goOn hintact (h.captured_dueTasks hdue).2
  | finish p call => exact iff_of_true (h.intact_finish hintact hstep) (hnothing rfl)

/-- **Removals** are respected in a run, however the executors end, if and only if no action takes a
task out of the table that a pass has captured and not come to. -/
theorem safe_iff_undisturbed {l : List SchedulerAction}
    (h : Run scheduler.step (fun _ _ => True) {} l s) :
    (∀ l₁ l₂ t, l = l₁ ++ l₂ → Run scheduler.step (fun _ _ => True) {} l₁ t → scheduler.Safe t) ↔
      Run scheduler.step scheduler.Undisturbed {} l s := by
  have hiff := h.always_iff (J := scheduler.Safe) (C := scheduler.Undisturbed) inv_empty
    (inv_empty.safe_iff.mpr intact_empty) (fun hinv _ hstep => hinv.step hstep) ?_
  · rw [hiff]
    exact ⟨fun hrun => hrun.mono fun _ _ ha => ha.2,
      fun hrun => hrun.mono fun _ _ ha => ⟨trivial, ha⟩⟩
  · intro t u a hinv hsafe _ hstep
    rw [(hinv.step hstep).safe_iff]
    exact hinv.intact_iff (hinv.safe_iff.mp hsafe) hstep

/-! ## A pass among no other calls -/

/-- The ends of the executors of a pass. -/
def finishes (p : ℕ) (env : ℕ → ExecutorCall) (calls : List ℕ) : List SchedulerAction :=
  calls.map fun object => .finish p (env object)

/-- No pass is left of one that has ended. -/
theorem setPass_alone (after : SchedulerState) (pass : Option Pass) (p : ℕ) :
    Scheduling.setPass
      { toSchedulerState := after, passes := Function.update (fun _ => none) p pass } p none =
        { toSchedulerState := after } := by
  unfold setPass
  rw [Function.update_idem, Function.update_eq_self_iff.mpr rfl]

/-- The executor of the only pass ends. -/
theorem step_started (scheduler : TaskScheduler) {s : SchedulerState} {task : ScheduledTask} (p : ℕ)
    (pass : Pass) (hget : s.objects.get? pass.executing = some task) (call : ExecutorCall) :
    let started := { Scheduling.setPass { toSchedulerState := s } p (some pass) with
      toSchedulerState := TaskScheduler.startTask task s }
    scheduler.step started (.finish p call) = some (scheduler.finish started p pass task call) := by
  simp only [TaskScheduler.step, setPass_passes, if_true]
  show Option.map _ (s.objects.get? pass.executing) = _
  rw [hget]
  rfl

theorem run_executeAll (env : ℕ → ExecutorCall) (p : ℕ) (s : SchedulerState)
    (due remaining withdrawn : List ℕ) :
    Run scheduler.step (fun _ _ => True)
      (Scheduling.goOn { toSchedulerState := s } p due remaining withdrawn)
      (finishes p env (scheduler.executeAll env remaining s).calls)
      { toSchedulerState := (scheduler.executeAll env remaining s).state } := by
  induction remaining generalizing s with
  | nil =>
    have hend : Scheduling.goOn { toSchedulerState := s } p due [] withdrawn =
        { toSchedulerState := s } := setPass_of_none rfl
    rw [hend]
    exact .nil
  | cons object remaining ih =>
    unfold TaskScheduler.executeAll
    cases hget : s.objects.get? object with
    | none =>
      have hnext : nextTask s (object :: remaining) = nextTask s remaining := by
        simp only [nextTask, hget]
      unfold Scheduling.goOn
      rw [hnext]
      exact ih s
    | some task =>
      by_cases hrunning : task.id ∈ s.running
      · have hnext : nextTask s (object :: remaining) = nextTask s remaining := by
          simp only [nextTask, hget, if_pos hrunning]
        simp only [if_pos hrunning]
        unfold Scheduling.goOn
        rw [hnext]
        exact ih s
      · have hnext : nextTask s (object :: remaining) = some (object, task, remaining) := by
          simp only [nextTask, hget, if_neg hrunning]
        have hstart : Scheduling.goOn { toSchedulerState := s } p due (object :: remaining)
            withdrawn = { Scheduling.setPass { toSchedulerState := s } p
              (some ⟨due, object, remaining, withdrawn⟩) with
                toSchedulerState := TaskScheduler.startTask task s } := by
          unfold Scheduling.goOn
          rw [hnext]
        simp only [if_neg hrunning]
        rw [hstart]
        have hstep := step_started scheduler p ⟨due, object, remaining, withdrawn⟩ hget (env object)
        cases hfinish : scheduler.finishTask object task (env object)
            (TaskScheduler.startTask task s) with
        | mk result after =>
          cases result with
          | error error =>
            refine .single trivial (hstep.trans ?_)
            unfold TaskScheduler.finish
            simp only [hfinish]
            exact congrArg some (setPass_alone after _ p)
          | ok =>
            refine (Run.single trivial (hstep.trans ?_)).append (ih after)
            unfold TaskScheduler.finish
            simp only [hfinish]
            rw [← goOn_setPass]
            exact congrArg (fun s => some (Scheduling.goOn s p due remaining withdrawn))
              (setPass_alone after _ p)

/-- **A pass among no other calls** does what the pass does that is not interleaved. -/
theorem run_runPending (scheduler : TaskScheduler) (env : ℕ → ExecutorCall) (reading : Ticks)
    (s : SchedulerState) :
    Run scheduler.step (fun _ _ => True) { toSchedulerState := s }
      (.runPending 0 reading :: finishes 0 env (scheduler.runPending env reading s).calls)
      { toSchedulerState := (scheduler.runPending env reading s).state } := by
  unfold TaskScheduler.runPending
  cases hdue : TaskScheduler.dueTasks s (scheduler.now reading) with
  | error error =>
    refine .single trivial ?_
    simp only [TaskScheduler.step, hdue]
  | ok due =>
    refine (Run.single trivial ?_).append
      (run_executeAll env 0 s due due (Scheduling.outside { toSchedulerState := s }))
    simp only [TaskScheduler.step, hdue]

end Scheduling

namespace TaskScheduler

/-! ### A removed task that is executed -/

/-- A task that runs once. -/
def onceAt (id : String) (nextRun : Datetime) : ScheduledTask where
  id := id
  scheduleType := some "once"
  nextRun := some nextRun

/-- The second of two due tasks is removed while the first is executed. -/
def removal : List SchedulerAction :=
  [.upsertTask (onceAt "first" (atSecond 10)) (atSecond 0).ticks (atSecond 0).ticks,
    .upsertTask (onceAt "second" (atSecond 15)) (atSecond 0).ticks (atSecond 0).ticks,
    .runPending 0 (atSecond 20).ticks, .removeTask "second",
    .finish 0 ⟨.success, (atSecond 20).ticks, (atSecond 20).ticks⟩]

/-- The state after the removal. -/
def removalState : Scheduling :=
  (execute plainScheduler.step (fun _ _ => True) {} removal).get (by decide +kernel)

theorem run_removal : Run plainScheduler.step (fun _ _ => True) {} removal removalState :=
  Run.of_execute (by decide +kernel)

theorem passes_removalState : removalState.passes 0 = some ⟨[0, 1], 1, [], [1]⟩ := by
  decide +kernel

/-- **A removed task is executed.** -/
theorem exists_executed : ∃ s pass, Run plainScheduler.step (fun _ _ => True) {} removal s ∧
    s.passes 0 = some pass ∧ s.idOf pass.executing = some "second" ∧
      s.tasks.get? "second" = none ∧ ¬ plainScheduler.Respects s := by
  refine ⟨removalState, _, run_removal, passes_removalState, by decide +kernel, by decide +kernel,
    fun hrespects => ?_⟩
  exact (hrespects 0 _ passes_removalState).1 (by decide)

/-! ### Removals that disturb nothing -/

section Undisturbed

variable (scheduler : TaskScheduler)

/-- The object that an action takes out of the table. -/
def taken (s : Scheduling) (a : SchedulerAction) : Option ℕ :=
  (scheduler.assigned s a).bind fun (id, entry) => s.displaced id entry

/-- No pass begins but the first, and nothing is taken out of the table that it has captured and not
come to. -/
def UndisturbedFirst (s : Scheduling) (a : SchedulerAction) : Prop :=
  (match a with | .runPending p _ => p = 0 | _ => True) ∧
    ∀ object ∈ scheduler.taken s a, ∀ pass ∈ s.passes 0, object ∉ pass.remaining

instance (s : Scheduling) : DecidablePred (scheduler.UndisturbedFirst s) := fun a => by
  unfold UndisturbedFirst
  cases a <;> infer_instance

variable {scheduler} in
/-- Where there is one pass, it is all that can be disturbed. -/
theorem run_undisturbed {s : Scheduling} {l : List SchedulerAction}
    (h : Run scheduler.step scheduler.UndisturbedFirst {} l s) :
    Run scheduler.step scheduler.Undisturbed {} l s ∧ s.Inv ∧ ∀ p ≠ 0, s.passes p = none := by
  induction h with
  | nil => exact ⟨.nil, Scheduling.inv_empty, fun _ _ => rfl⟩
  | @snoc t u l a _ ha hstep ih =>
    obtain ⟨hrun, hinv, halone⟩ := ih
    refine ⟨hrun.snoc (fun id entry object hassigned hdisplaced p pass hpass => ?_) hstep,
      hinv.step hstep, fun p hp => hinv.passes_eq_none hstep (halone p hp) ?_⟩
    · obtain rfl : p = 0 := by
        by_contra hp
        rw [halone p hp] at hpass
        cases hpass
      exact ha.2 object (Option.bind_eq_some_iff.mpr ⟨(id, entry), hassigned, hdisplaced⟩) pass
        hpass
    · rintro reading rfl
      exact hp ha.1

end Undisturbed

/-- While the first of two due tasks is executed, it is replaced, and a task that is not due is
removed. -/
def replacement : List SchedulerAction :=
  [.upsertTask (onceAt "first" (atSecond 10)) (atSecond 0).ticks (atSecond 0).ticks,
    .upsertTask (onceAt "second" (atSecond 15)) (atSecond 0).ticks (atSecond 0).ticks,
    .upsertTask (onceAt "later" (atSecond 90)) (atSecond 0).ticks (atSecond 0).ticks,
    .runPending 0 (atSecond 20).ticks, .removeTask "first",
    .upsertTask (onceAt "first" (atSecond 30)) (atSecond 20).ticks (atSecond 20).ticks,
    .removeTask "later", .finish 0 ⟨.success, (atSecond 20).ticks, (atSecond 20).ticks⟩,
    .finish 0 ⟨.success, (atSecond 20).ticks, (atSecond 20).ticks⟩]

/-- The replacement disturbs nothing, and the removal above does. -/
theorem safe_iff_undisturbed_replacement :
    (∃ s, Run plainScheduler.step (fun _ _ => True) {} replacement s ∧
      s.tasks.get? "first" = some 3 ∧
      ∀ l₁ l₂ t, replacement = l₁ ++ l₂ →
        Run plainScheduler.step (fun _ _ => True) {} l₁ t → plainScheduler.Safe t) ∧
    ¬ Run plainScheduler.step plainScheduler.Undisturbed {} removal removalState := by
  constructor
  · have hrun : Run plainScheduler.step plainScheduler.UndisturbedFirst {} replacement _ :=
      .of_execute (by decide +kernel)
    have hrun' : Run plainScheduler.step (fun _ _ => True) {} replacement _ :=
      hrun.mono fun _ _ _ => trivial
    exact ⟨_, hrun', by decide +kernel,
      (Scheduling.safe_iff_undisturbed hrun').mpr (run_undisturbed hrun).1⟩
  · intro hundisturbed
    have hsafe := (Scheduling.safe_iff_undisturbed run_removal).mpr hundisturbed removal [] _ rfl
      run_removal
    exact (hsafe [] _ .nil 0 _ passes_removalState).1 (by decide)

end TaskScheduler

end Portex
