import Mathlib.Order.Nat
import Portex.Foundation.Dict

/-!
# The registries of running processes

`ProcessExecutor` and `ContainerBackend` keep the child of a run under its run id, so that `cancel`
finds it, and under the same id the task that cleans up after a cancelled call.

## Main definitions

* `ChildProcess`, `ChildProcess.kill`: a child as `asyncio` knows it
* `ProcessRegistry`: the children, the registered ones and the cleanup tasks
* `clearActiveRun`, `ensureCleanupTask`: what both classes do with them
* `Cleared`, `Dead`: what a call owes to its child
* `Settled`: every call that has ended has paid

## Main results

* `Moves.cleared`: what the operations keep of a call's debt
* `settled_setCallPhase_iff`: a call that ends is the only one to look at
-/

namespace Portex

open Foundation

/-! ## Children -/

inductive ChildState
  | running
  /-- The exit is noticed. -/
  | exited
  /-- The pipes are closed too, and the transport has dropped its process. -/
  | closed
  deriving DecidableEq

structure ChildProcess where
  state : ChildState := .running
  /-- `kill` was called. -/
  killed : Bool := false
  deriving DecidableEq

namespace ChildProcess

/-- `process.kill()`, which raises `ProcessLookupError` once the transport is closed. -/
def kill (child : ChildProcess) : Option ChildProcess :=
  if child.state = .closed then none else some { child with killed := true }

/-- The child has finished or has been killed. -/
def Over (child : ChildProcess) : Prop := child.state ≠ .running ∨ child.killed = true

instance : DecidablePred Over := fun child =>
  inferInstanceAs (Decidable (child.state ≠ .running ∨ child.killed = true))

theorem over_kill {child child' : ChildProcess} (h : child.kill = some child') : child'.Over := by
  unfold kill at h
  split at h
  · cases h
  · obtain rfl := Option.some.inj h
    exact .inr rfl

/-- A child that cannot be killed is gone. -/
theorem kill_eq_none_iff {child : ChildProcess} : child.kill = none ↔ child.state = .closed := by
  simp [kill]

end ChildProcess

/-! ## Cleanup tasks -/

inductive CleanupPhase
  /-- The coroutine has not begun. -/
  | created
  /-- It awaits `stop_container`. -/
  | stopping
  /-- It awaits the exit of the child. -/
  | waiting
  | done
  deriving DecidableEq

/-- A task of `_cleanup_after_cancellation`. -/
structure CleanupTask where
  runId : String
  child : ℕ
  /-- The container that the task stops, where it stops one. -/
  containerName : String := ""
  phase : CleanupPhase := .created

/-! ## The registries -/

structure ProcessRegistry where
  children : Heap ChildProcess := ∅
  /-- `_active_processes`. -/
  activeProcesses : Dict String ℕ := ∅
  /-- `_cleanup_tasks`. -/
  cleanupTasks : Dict String ℕ := ∅
  tasks : Heap CleanupTask := ∅

namespace ProcessRegistry

/-- A child is started and registered, unless its run has no id. -/
def start (runId : Option String) (r : ProcessRegistry) : ProcessRegistry :=
  { r with
    children := r.children.alloc {}
    activeProcesses := match runId with
      | some id => r.activeProcesses.insert id r.children.size
      | none => r.activeProcesses }

def clearActiveRun (runId : String) (r : ProcessRegistry) : ProcessRegistry :=
  { r with
    activeProcesses := r.activeProcesses.erase runId
    cleanupTasks := r.cleanupTasks.erase runId }

/-- The same where the run may have no id. -/
def clearRun (runId : Option String) (r : ProcessRegistry) : ProcessRegistry :=
  match runId with
  | some id => r.clearActiveRun id
  | none => r

/-- The cleanup task of a run, unless it is done. -/
def openTask (runId : String) (r : ProcessRegistry) : Option ℕ :=
  (r.cleanupTasks.get? runId).filter fun t => (r.tasks.get? t).any fun task => task.phase ≠ .done

def ensureCleanupTask (runId : String) (child : ℕ) (containerName : String)
    (r : ProcessRegistry) : ProcessRegistry :=
  match r.openTask runId with
  | some _ => r
  | none =>
    { r with
      cleanupTasks := r.cleanupTasks.insert runId r.tasks.size
      tasks := r.tasks.alloc { runId, child, containerName } }

/-- `kill` of a child; `none` is the `ProcessLookupError`. -/
def killChild (child : ℕ) (r : ProcessRegistry) : Option ProcessRegistry :=
  ((r.children.get? child).bind ChildProcess.kill).map fun killed =>
    { r with children := r.children.modify child fun _ => killed }

/-- The event loop notices the exit of a child, or the end of its pipes. -/
def changeChild (child : ℕ) (old new : ChildState) (r : ProcessRegistry) :
    Option ProcessRegistry :=
  if (r.children.get? child).any fun c => c.state = old then
    some { r with children := r.children.modify child fun c => { c with state := new } }
  else none

/-- A cleanup task in a phase. -/
def taskAt (t : ℕ) (phase : CleanupPhase) (r : ProcessRegistry) : Option CleanupTask :=
  (r.tasks.get? t).filter fun task => task.phase = phase

def setPhase (t : ℕ) (phase : CleanupPhase) (r : ProcessRegistry) : ProcessRegistry :=
  { r with tasks := r.tasks.modify t fun task => { task with phase } }

/-- The `finally` of a cleanup task, and its end. -/
def finishTask (t : ℕ) (runId : String) (r : ProcessRegistry) : ProcessRegistry :=
  (r.setPhase t .done).clearActiveRun runId

/-! ## What a call owes to its child -/

/-- A cleanup task of the run has yet to end, and unregisters the run when it does. -/
def Pending (r : ProcessRegistry) (runId : String) : Prop :=
  ∃ task ∈ r.tasks.cells, task.runId = runId ∧ task.phase ≠ .done

instance (r : ProcessRegistry) (runId : String) : Decidable (r.Pending runId) :=
  inferInstanceAs (Decidable (∃ task ∈ r.tasks.cells, task.runId = runId ∧ task.phase ≠ .done))

/-- The child of a run is not registered, or a pending cleanup task will unregister it. -/
def Cleared (r : ProcessRegistry) (runId : Option String) (child : ℕ) : Prop :=
  ∀ id ∈ runId, r.activeProcesses.get? id = some child → r.Pending id

instance (r : ProcessRegistry) (runId : Option String) (child : ℕ) :
    Decidable (r.Cleared runId child) :=
  inferInstanceAs
    (Decidable (∀ id ∈ runId, r.activeProcesses.get? id = some child → r.Pending id))

/-- The child has finished or has been killed. -/
def Dead (r : ProcessRegistry) (child : ℕ) : Prop := ∃ c ∈ r.children.get? child, c.Over

instance (r : ProcessRegistry) (child : ℕ) : Decidable (r.Dead child) :=
  inferInstanceAs (Decidable (∃ c ∈ r.children.get? child, c.Over))

/-- The transport of a child is closed, so that `kill` raises. -/
def Closed (r : ProcessRegistry) (child : ℕ) : Prop :=
  ∃ c ∈ r.children.get? child, c.state = .closed

instance (r : ProcessRegistry) (child : ℕ) : Decidable (r.Closed child) :=
  inferInstanceAs (Decidable (∃ c ∈ r.children.get? child, c.state = .closed))

variable {r r' r'' : ProcessRegistry} {id name : String} {runId : Option String}
  {child t : ℕ} {phase : CleanupPhase} {task : CleanupTask}

theorem pending_iff : r.Pending id ↔
    ∃ t task, r.tasks.get? t = some task ∧ task.runId = id ∧ task.phase ≠ .done := by
  unfold Pending Heap.get?
  constructor
  · rintro ⟨task, hmem, h⟩
    obtain ⟨t, ht⟩ := List.mem_iff_getElem?.mp hmem
    exact ⟨t, task, ht, h⟩
  · rintro ⟨t, task, ht, h⟩
    exact ⟨task, List.mem_iff_getElem?.mpr ⟨t, ht⟩, h⟩

theorem Closed.dead (h : r.Closed child) : r.Dead child := by
  obtain ⟨c, hc, hclosed⟩ := h
  exact ⟨c, hc, .inl (by rw [hclosed]; decide)⟩

/-- A child whose exit was noticed. -/
theorem dead_of_any
    (h : ((r.children.get? child).any fun c => c.state ≠ .running) = true) : r.Dead child := by
  obtain ⟨c, hc, hstate⟩ := (Option.any_eq_true _ _).mp h
  exact ⟨c, hc, .inl (of_decide_eq_true hstate)⟩

/-! ## What the operations keep -/

/-- The tasks in `_cleanup_tasks` are those of their runs. -/
def Sound (r : ProcessRegistry) : Prop :=
  ∀ id t, r.cleanupTasks.get? id = some t → ∃ task, r.tasks.get? t = some task ∧ task.runId = id

/-- What every operation does: the dead stay dead, no child is registered again, and a pending
task stays so for as long as its run is registered. -/
structure Moves (r r' : ProcessRegistry) : Prop where
  size : r.children.size ≤ r'.children.size
  dead : ∀ child, r.Dead child → r'.Dead child
  active : ∀ id child, child < r.children.size → r'.activeProcesses.get? id = some child →
    r.activeProcesses.get? id = some child
  pending : ∀ id child, child < r.children.size → r'.activeProcesses.get? id = some child →
    r.Pending id → r'.Pending id
  sound : r.Sound → r'.Sound

namespace Moves

theorem refl (r : ProcessRegistry) : Moves r r :=
  ⟨Nat.le_refl _, fun _ h => h, fun _ _ _ h => h, fun _ _ _ _ h => h, fun h => h⟩

theorem trans (h : Moves r r') (h' : Moves r' r'') : Moves r r'' where
  size := h.size.trans h'.size
  dead child hd := h'.dead child (h.dead child hd)
  active id child hlt hactive :=
    h.active id child hlt (h'.active id child (hlt.trans_le h.size) hactive)
  pending id child hlt hactive hp := by
    have hlt' := hlt.trans_le h.size
    exact h'.pending id child hlt' hactive
      (h.pending id child hlt (h'.active id child hlt' hactive) hp)
  sound hs := h'.sound (h.sound hs)

/-- **Debts that are paid stay paid.** -/
theorem cleared (h : Moves r r') (hlt : child < r.children.size) (hc : r.Cleared runId child) :
    r'.Cleared runId child := fun id hid hactive =>
  h.pending id child hlt hactive (hc id hid (h.active id child hlt hactive))

/-- What changes the children alone, and none of them back. -/
theorem of_children {children : Heap ChildProcess} (hsize : r.children.size = children.size)
    (hdead : ∀ i c, r.children.get? i = some c → c.Over →
      ∃ c', children.get? i = some c' ∧ c'.Over) : Moves r { r with children } where
  size := hsize.le
  dead := fun i ⟨c, hc, hover⟩ => hdead i c hc hover
  active _ _ _ h := h
  pending _ _ _ _ h := h
  sound h := h

end Moves

theorem moves_start (runId : Option String) (r : ProcessRegistry) : Moves r (r.start runId) where
  size := by simp [start]
  dead child := by
    rintro ⟨c, hc, hover⟩
    have hlt := Heap.lt_size_of_get? hc
    refine ⟨c, ?_, hover⟩
    show (r.children.alloc {}).get? child = some c
    rw [Heap.get?_alloc, if_neg hlt.ne]
    exact hc
  active id child hlt h := by
    cases runId with
    | none => exact h
    | some id' =>
      simp only [start, Dict.get?_insert] at h
      split at h
      · obtain rfl := Option.some.inj h
        exact absurd hlt (Nat.lt_irrefl _)
      · exact h
  pending _ _ _ _ h := h
  sound h := h

theorem moves_clearActiveRun (id : String) (r : ProcessRegistry) :
    Moves r (r.clearActiveRun id) where
  size := Nat.le_refl _
  dead _ h := h
  active id' child _ h := by
    simp only [clearActiveRun, Dict.get?_erase] at h
    split at h
    · cases h
    · exact h
  pending _ _ _ _ h := h
  sound hs id' t h := by
    simp only [clearActiveRun, Dict.get?_erase] at h
    split at h
    · cases h
    · exact hs id' t h

theorem moves_clearRun (runId : Option String) (r : ProcessRegistry) :
    Moves r (r.clearRun runId) := by
  cases runId with
  | none => exact .refl r
  | some id => exact moves_clearActiveRun id r

theorem cleared_clearRun (runId : Option String) (child : ℕ) (r : ProcessRegistry) :
    (r.clearRun runId).Cleared runId child := by
  rintro id rfl hactive
  simp [clearRun, clearActiveRun] at hactive

theorem openTask_eq_some (h : r.openTask id = some t) : r.cleanupTasks.get? id = some t ∧
    ∃ task, r.tasks.get? t = some task ∧ task.phase ≠ .done := by
  obtain ⟨hget, hany⟩ := Option.filter_eq_some_iff.mp h
  obtain ⟨task, htask, hphase⟩ := (Option.any_eq_true _ _).mp hany
  exact ⟨hget, task, htask, by simpa using hphase⟩

theorem moves_ensureCleanupTask (id : String) (child : ℕ) (name : String) (r : ProcessRegistry) :
    Moves r (r.ensureCleanupTask id child name) := by
  unfold ensureCleanupTask
  split
  · exact .refl r
  · refine ⟨Nat.le_refl _, fun _ h => h, fun _ _ _ h => h, fun id' _ _ _ h => ?_,
      fun hs id' t h => ?_⟩
    · obtain ⟨task, hmem, htask⟩ := h
      exact ⟨task, List.mem_append_left _ hmem, htask⟩
    · simp only [Dict.get?_insert] at h
      simp only [Heap.get?_alloc]
      split at h
      · obtain rfl := Option.some.inj h
        exact ⟨_, if_pos rfl, by simp_all⟩
      · obtain ⟨task, htask, hid⟩ := hs id' t h
        exact ⟨task, by rw [if_neg (Heap.lt_size_of_get? htask).ne]; exact htask, hid⟩

/-- **A cleanup task is pending** once it is ensured, a new one or the one that was there. -/
theorem pending_ensureCleanupTask (hs : r.Sound) (id : String) (child : ℕ) (name : String) :
    (r.ensureCleanupTask id child name).Pending id := by
  unfold ensureCleanupTask
  split
  · rename_i t h
    obtain ⟨hget, task, htask, hphase⟩ := openTask_eq_some h
    obtain ⟨task', htask', hid⟩ := hs id t hget
    obtain rfl := Option.some.inj (htask.symm.trans htask')
    exact pending_iff.mpr ⟨t, task, htask, hid, hphase⟩
  · exact ⟨_, List.mem_append_right _ (List.mem_singleton_self _), rfl, CleanupPhase.noConfusion⟩

theorem killChild_eq_some (h : r.killChild child = some r') : Moves r r' ∧ r'.Dead child := by
  obtain ⟨killed, hkill, rfl⟩ := Option.map_eq_some_iff.mp h
  obtain ⟨c, hc, hkill⟩ := Option.bind_eq_some_iff.mp hkill
  have hover := ChildProcess.over_kill hkill
  have hget : (r.children.modify child fun _ => killed).get? child = some killed := by
    rw [Heap.get?_modify, if_pos rfl, hc]
    rfl
  refine ⟨.of_children (by simp) fun i d hd hdover => ?_, killed, hget, hover⟩
  by_cases hi : i = child
  · exact ⟨killed, hi ▸ hget, hover⟩
  · exact ⟨d, by rw [Heap.get?_modify, if_neg hi]; exact hd, hdover⟩

/-- `kill` raises just where the transport is closed. -/
theorem killChild_eq_none_iff (h : child < r.children.size) :
    r.killChild child = none ↔ r.Closed child := by
  obtain ⟨c, hc⟩ : ∃ c, r.children.get? child = some c :=
    Option.ne_none_iff_exists'.mp fun hnone =>
      absurd ((r.children.get?_eq_none_iff child).mp hnone) (Nat.not_le.mpr h)
  simp only [killChild, hc, Option.bind_some, Option.map_eq_none_iff, Closed]
  constructor
  · intro hkill
    exact ⟨c, rfl, ChildProcess.kill_eq_none_iff.mp hkill⟩
  · rintro ⟨c', hc', hclosed⟩
    obtain rfl := Option.some.inj hc'
    exact ChildProcess.kill_eq_none_iff.mpr hclosed

theorem moves_changeChild {old new : ChildState} (hnew : new ≠ .running)
    (h : r.changeChild child old new = some r') : Moves r r' := by
  unfold changeChild at h
  split at h
  · obtain rfl := Option.some.inj h
    refine .of_children (by simp) fun i c hc hover => ?_
    rw [Heap.get?_modify]
    split
    · exact ⟨{ c with state := new }, by rw [hc]; rfl, .inl hnew⟩
    · exact ⟨c, hc, hover⟩
  · cases h

theorem taskAt_eq_some (h : r.taskAt t phase = some task) :
    r.tasks.get? t = some task ∧ task.phase = phase := by
  simpa [taskAt] using Option.filter_eq_some_iff.mp h

theorem sound_setPhase (hs : r.Sound) (t : ℕ) (phase : CleanupPhase) :
    (r.setPhase t phase).Sound := by
  intro id t' h
  obtain ⟨task, htask, hid⟩ := hs id t' h
  simp only [setPhase, Heap.get?_modify, htask]
  split
  · exact ⟨_, rfl, hid⟩
  · exact ⟨task, rfl, hid⟩

/-- A task that goes on keeps the tasks pending. -/
theorem moves_setPhase (t : ℕ) (hphase : phase ≠ .done) (r : ProcessRegistry) :
    Moves r (r.setPhase t phase) where
  size := Nat.le_refl _
  dead _ h := h
  active _ _ _ h := h
  pending id child _ _ h := by
    obtain ⟨t', task, htask, hid, hopen⟩ := pending_iff.mp h
    refine pending_iff.mpr ?_
    simp only [setPhase]
    by_cases ht : t' = t
    · exact ⟨t', { task with phase }, by simp [ht ▸ htask, ht], hid, hphase⟩
    · exact ⟨t', task, by simp [ht, htask], hid, hopen⟩
  sound hs := sound_setPhase hs t phase

/-- A task that ends has unregistered its run; the others are as pending as before. -/
theorem moves_finishTask (htask : r.tasks.get? t = some task) :
    Moves r (r.finishTask t task.runId) where
  size := Nat.le_refl _
  dead _ h := h
  active id child hlt h := (moves_clearActiveRun task.runId _).active id child hlt h
  pending id child _ hactive h := by
    obtain ⟨t', task', htask', hid, hopen⟩ := pending_iff.mp h
    by_cases ht : t' = t
    · -- The run of the task is not registered any more.
      subst ht
      obtain rfl := Option.some.inj (htask.symm.trans htask')
      simp [finishTask, clearActiveRun, hid] at hactive
    · exact pending_iff.mpr ⟨t', task', by simp [finishTask, clearActiveRun, setPhase, ht, htask'],
        hid, hopen⟩
  sound hs := (moves_clearActiveRun task.runId _).sound (sound_setPhase hs t .done)

end ProcessRegistry

/-! ## Calls -/

/-- How far a call of `run_agent` or `execute` is. -/
inductive RunPhase (ρ : Type)
  /-- It awaits `process.communicate`. -/
  | communicating
  /-- It awaits the exit of the child that it has killed. -/
  | waiting
  | ended (result : ρ)

def RunPhase.Ended {ρ : Type} : RunPhase ρ → Prop
  | .ended _ => True
  | _ => False

instance {ρ : Type} : DecidablePred (RunPhase.Ended (ρ := ρ)) := fun phase => by
  unfold RunPhase.Ended
  cases phase <;> infer_instance

/-- A call that has started its child. -/
structure RunCall (δ ρ : Type) where
  request : δ
  runId : Option String
  child : ℕ
  phase : RunPhase ρ := .communicating

section Calls

variable {δ ρ : Type}

/-- Every call that has ended has left its child unregistered, or to a pending cleanup task, and
finished or killed. -/
def Settled (r : ProcessRegistry) (calls : Heap (RunCall δ ρ)) : Prop :=
  ∀ k call, calls.get? k = some call → call.phase.Ended →
    r.Cleared call.runId call.child ∧ r.Dead call.child

/-- What every step keeps. -/
structure CallInv (r : ProcessRegistry) (calls : Heap (RunCall δ ρ)) : Prop where
  sound : r.Sound
  child : ∀ k call, calls.get? k = some call → call.child < r.children.size
  waiting : ∀ k call, calls.get? k = some call → call.phase = .waiting → r.Dead call.child

variable {r r' : ProcessRegistry} {calls : Heap (RunCall δ ρ)} {k : ℕ} {call : RunCall δ ρ}
  {phase : RunPhase ρ}

theorem callInv_empty : CallInv {} (∅ : Heap (RunCall δ ρ)) where
  sound _ _ h := by cases h
  child _ _ h := by cases h
  waiting _ _ h := by cases h

theorem settled_empty (r : ProcessRegistry) : Settled r (∅ : Heap (RunCall δ ρ)) := by
  intro _ _ h
  cases h

theorem CallInv.moves (h : CallInv r calls) (hm : r.Moves r') : CallInv r' calls where
  sound := hm.sound h.sound
  child k call hk := (h.child k call hk).trans_le hm.size
  waiting k call hk hphase := hm.dead _ (h.waiting k call hk hphase)

theorem Settled.moves (h : Settled r calls) (hinv : CallInv r calls) (hm : r.Moves r') :
    Settled r' calls := fun k call hk hended =>
  ⟨hm.cleared (hinv.child k call hk) (h k call hk hended).1, hm.dead _ (h k call hk hended).2⟩

/-- A call that starts. -/
theorem CallInv.alloc (h : CallInv r calls) (hm : r.Moves r') (hlt : call.child < r'.children.size)
    (hphase : call.phase ≠ .waiting) : CallInv r' (calls.alloc call) where
  sound := hm.sound h.sound
  child k c hk := by
    rcases Heap.get?_alloc_cases hk with ⟨-, rfl⟩ | hk
    · exact hlt
    · exact (h.moves hm).child k c hk
  waiting k c hk hwaiting := by
    rcases Heap.get?_alloc_cases hk with ⟨-, rfl⟩ | hk
    · exact absurd hwaiting hphase
    · exact (h.moves hm).waiting k c hk hwaiting

/-- Among the calls after a start, the new one is all there is to look at. -/
theorem settled_alloc_iff (h : Settled r calls) (hinv : CallInv r calls) (hm : r.Moves r') :
    Settled r' (calls.alloc call) ↔
      (call.phase.Ended → r'.Cleared call.runId call.child ∧ r'.Dead call.child) := by
  constructor
  · intro hs hended
    exact hs calls.size call (by simp) hended
  · intro hcall k c hk hended
    rcases Heap.get?_alloc_cases hk with ⟨-, rfl⟩ | hk
    · exact hcall hended
    · exact h.moves hinv hm k c hk hended

/-- The call `k` goes on to a phase. -/
def setCallPhase (k : ℕ) (phase : RunPhase ρ) (calls : Heap (RunCall δ ρ)) :
    Heap (RunCall δ ρ) := calls.modify k fun call => { call with phase }

/-- The calls after that: this one in its phase, and the others. -/
theorem get?_setCallPhase_cases (hk : calls.get? k = some call) {j : ℕ} {c : RunCall δ ρ}
    (h : (setCallPhase k phase calls).get? j = some c) :
    c = { call with phase } ∨ calls.get? j = some c := by
  rcases Heap.get?_modify_cases h with ⟨_, hbefore, rfl, rfl⟩ | ⟨-, h⟩
  · obtain rfl := Option.some.inj (hk.symm.trans hbefore)
    exact .inl rfl
  · exact .inr h

theorem CallInv.setCallPhase (h : CallInv r calls) (hm : r.Moves r')
    (hk : calls.get? k = some call) (hdead : phase = .waiting → r'.Dead call.child) :
    CallInv r' (setCallPhase k phase calls) where
  sound := hm.sound h.sound
  child j c hj := by
    rcases get?_setCallPhase_cases hk hj with rfl | hj
    · exact (h.moves hm).child k call hk
    · exact (h.moves hm).child j c hj
  waiting j c hj hwaiting := by
    rcases get?_setCallPhase_cases hk hj with rfl | hj
    · exact hdead hwaiting
    · exact (h.moves hm).waiting j c hj hwaiting

/-- **The call that goes on** is the only one to look at. -/
theorem settled_setCallPhase_iff (h : Settled r calls) (hinv : CallInv r calls) (hm : r.Moves r')
    (hk : calls.get? k = some call) : Settled r' (setCallPhase k phase calls) ↔
      (phase.Ended → r'.Cleared call.runId call.child ∧ r'.Dead call.child) := by
  constructor
  · intro hs hended
    exact hs k { call with phase } (by simp [setCallPhase, hk]) hended
  · intro hcall j c hj hended
    rcases get?_setCallPhase_cases hk hj with rfl | hj
    · exact hcall hended
    · exact h.moves hinv hm j c hj hended

/-- A call that ends. -/
theorem settled_end_iff (hinv : CallInv r calls) (hs : Settled r calls)
    (hk : calls.get? k = some call) (hm : r.Moves r') (result : ρ) :
    CallInv r' (setCallPhase k (.ended result) calls) ∧
      (Settled r' (setCallPhase k (.ended result) calls) ↔
        r'.Cleared call.runId call.child ∧ r'.Dead call.child) := by
  refine ⟨hinv.setCallPhase hm hk (fun h => nomatch h),
    (settled_setCallPhase_iff hs hinv hm hk).trans ?_⟩
  exact ⟨fun h => h trivial, fun h _ => h⟩

/-- A call that ends where its child is gone, and unregisters it. -/
theorem settled_clearRun (hinv : CallInv r calls) (hs : Settled r calls)
    (hk : calls.get? k = some call) (hdead : r.Dead call.child) (result : ρ) :
    CallInv (r.clearRun call.runId) (setCallPhase k (.ended result) calls) ∧
      Settled (r.clearRun call.runId) (setCallPhase k (.ended result) calls) := by
  have hm := ProcessRegistry.moves_clearRun call.runId r
  obtain ⟨hinv', hiff⟩ := settled_end_iff hinv hs hk hm result
  exact ⟨hinv', hiff.mpr ⟨ProcessRegistry.cleared_clearRun _ _ _, hm.dead _ hdead⟩⟩

/-- A call that starts its child and awaits it owes nothing yet. -/
theorem settled_start (hinv : CallInv r calls) (hs : Settled r calls) (runId : Option String)
    (request : δ) :
    CallInv (r.start runId) (calls.alloc { request, runId, child := r.children.size }) ∧
      Settled (r.start runId) (calls.alloc { request, runId, child := r.children.size }) := by
  have hm := ProcessRegistry.moves_start runId r
  refine ⟨hinv.alloc hm ?_ (by simp), (settled_alloc_iff hs hinv hm).mpr fun hended => hended.elim⟩
  simp [ProcessRegistry.start]

/-- A call that ends as soon as its child has started leaves it running. -/
theorem not_settled_start (hinv : CallInv r calls) (hs : Settled r calls) (runId : Option String)
    (request : δ) (result : ρ) :
    let call : RunCall δ ρ :=
      { request, runId, child := r.children.size, phase := .ended result }
    CallInv (r.start runId) (calls.alloc call) ∧ ¬ Settled (r.start runId) (calls.alloc call) := by
  intro call
  have hm := ProcessRegistry.moves_start runId r
  refine ⟨hinv.alloc hm (by simp [call, ProcessRegistry.start]) (by simp [call]),
    fun hsettled => ?_⟩
  obtain ⟨-, c, hc, hover⟩ := (settled_alloc_iff hs hinv hm).mp hsettled trivial
  have hget : (r.start runId).children.get? r.children.size = some {} := by
    simp [ProcessRegistry.start]
  obtain rfl := Option.some.inj (hget.symm.trans hc)
  rcases hover with hover | hover
  · exact hover rfl
  · cases hover

/-- A task that never runs: the calls it was to clean up after are left. -/
theorem settled_dropped_iff (hinv : CallInv r calls) (hs : Settled r calls) (t : ℕ) :
    CallInv (r.setPhase t .done) calls ∧ (Settled (r.setPhase t .done) calls ↔
      ∀ call ∈ calls.cells, call.phase.Ended →
        (r.setPhase t .done).Cleared call.runId call.child) := by
  refine ⟨⟨ProcessRegistry.sound_setPhase hinv.sound t .done, hinv.child, hinv.waiting⟩, ?_⟩
  constructor
  · intro hsettled call hmem hended
    obtain ⟨k, hk⟩ := List.mem_iff_getElem?.mp hmem
    exact (hsettled k call hk hended).1
  · intro hcleared k call hk hended
    exact ⟨hcleared call (List.mem_iff_getElem?.mpr ⟨k, hk⟩) hended, (hs k call hk hended).2⟩

end Calls

end Portex
