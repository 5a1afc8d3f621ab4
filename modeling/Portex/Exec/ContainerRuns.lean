import Portex.Exec.Frames
import Portex.Exec.HostRuns

/-!
# The runs of the container backend

`ContainerBackend.execute` and `cancel`, in the same way. A cancelled call leaves the kill to its
cleanup task, which first stops the container; an exception of `communicate` or of the
serialisation has no branch at all.

## Main definitions

* `ContainerRuns`, `ContainerRuns.step`: the backend and what happens to it
* `ContainerRuns.Tidy`: the step ends no call in a way that leaves its child registered or alive

## Main results

* `ContainerRuns.settled_iff_tidy`: the runs in which every call leaves its child cleaned up
* `registriesCleanedUp_iff`: the same for both registries
* `not_registriesCleanedUp`: runs in which calls leave their children registered
-/

namespace Portex

open Foundation

/-- How a call of `execute` ends once its child has started. -/
inductive ContainerResult
  | returned (result : RunnerResult)
  | cancelledError
  /-- The `UnicodeDecodeError` of the output. -/
  | decodeError
  /-- Any other exception of `communicate`, or that of the serialisation. -/
  | raised

inductive StopPhase
  /-- It awaits `stop_container`. -/
  | stopping
  /-- It awaits the exit of the child it has killed. -/
  | waiting
  | done
  deriving DecidableEq

/-- A call of `cancel` in `_stop_active_run`, with the child that it found. -/
structure ContainerCancel where
  runId : String
  child : Option ℕ
  phase : StopPhase

structure ContainerRuns where
  registry : ProcessRegistry := {}
  /-- `_container_names`. -/
  containerNames : Dict String String := ∅
  /-- The calls, with the names of their containers. -/
  calls : Heap (RunCall String ContainerResult) := ∅
  cancels : Heap ContainerCancel := ∅

/-- How `process.communicate` ends without a timeout. -/
inductive ExecuteOutcome
  | result (returncode : ℤ) (stdout stderr : List UInt8)
  | cancelled
  | raised
  deriving DecidableEq

namespace ContainerRuns

inductive Action
  | execute (runId containerName : String) (outcome : StartOutcome)
  | communicated (k : ℕ) (outcome : ExecuteOutcome)
  | cancel (runId : String)
  /-- `stop_container` ends in a call of `cancel`, by cancellation or in another way. -/
  | cancelStopped (k : ℕ) (cancelled : Bool)
  | cancelWaited (k : ℕ) (outcome : WaitOutcome)
  | cleanupStarted (t : ℕ)
  | cleanupStopped (t : ℕ) (cancelled : Bool)
  | cleanupEnded (t : ℕ) (outcome : WaitOutcome)
  /-- The task is cancelled before its coroutine begins, so that its `finally` never runs. -/
  | cleanupDropped (t : ℕ)
  | exit (child : ℕ)
  | close (child : ℕ)
  deriving DecidableEq

def clearActiveRun (runId : String) (s : ContainerRuns) : ContainerRuns :=
  { s with
    registry := s.registry.clearActiveRun runId
    containerNames := s.containerNames.erase runId }

/-- `execute` up to `communicate`, or to the error of what comes before. -/
def execute (runId containerName : String) (outcome : StartOutcome) (s : ContainerRuns) :
    ContainerRuns :=
  let call : RunCall String ContainerResult :=
    { request := containerName, runId := some runId, child := s.registry.children.size }
  let started : ContainerRuns :=
    { s with
      registry := s.registry.start (some runId)
      containerNames := s.containerNames.insert runId containerName }
  match outcome with
  | .failed => s
  | .started => { started with calls := s.calls.alloc call }
  | .unserialized => { started with calls := s.calls.alloc { call with phase := .ended .raised } }

def runResult (returncode : ℤ) (stdout stderr : List UInt8) : ContainerResult :=
  match decodeStrict stdout, decodeStrict stderr with
  | some stdout, some stderr =>
    .returned (parseRunnerOutput stdout stderr returncode "container".toList)
  | _, _ => .decodeError

/-- `execute` after `communicate`. The child has exited where there is a result. -/
def communicated (k : ℕ) (outcome : ExecuteOutcome) (s : ContainerRuns) : Option ContainerRuns :=
  match s.calls.get? k with
  | none => none
  | some call =>
    match call.phase, outcome with
    | .communicating, .result returncode stdout stderr =>
      if (s.registry.children.get? call.child).any fun c => c.state ≠ .running then
        some { s with
          registry := s.registry.clearRun call.runId
          containerNames := call.runId.elim s.containerNames s.containerNames.erase
          calls := setCallPhase k (.ended (runResult returncode stdout stderr)) s.calls }
      else none
    | .communicating, .cancelled =>
      some { s with
        registry := match call.runId with
          | some id => s.registry.ensureCleanupTask id call.child call.request
          | none => s.registry
        calls := setCallPhase k (.ended .cancelledError) s.calls }
    | .communicating, .raised =>
      some { s with calls := setCallPhase k (.ended .raised) s.calls }
    | _, _ => none

/-! ## `cancel` -/

/-- `cancel` once the container is stopped. An error of `kill` ends it. -/
def cancelAfterStop (k : ℕ) (call : ContainerCancel) (s : ContainerRuns) : ContainerRuns :=
  let done := { s with cancels := s.cancels.modify k fun _ => { call with phase := .done } }
  match call.child with
  | none => done.clearActiveRun call.runId
  | some child =>
    match s.registry.killChild child with
    | none => done
    | some registry =>
      { s with
        registry
        cancels := s.cancels.modify k fun _ => { call with phase := .waiting } }

/-- `cancel` up to its first `await`. Where it awaits a cleanup task it has no more to do, and its
own cancellation then cancels the task. -/
def cancel (runId : String) (s : ContainerRuns) : ContainerRuns :=
  match s.registry.openTask runId with
  | some _ => s
  | none =>
    let call : ContainerCancel :=
      { runId, child := s.registry.activeProcesses.get? runId, phase := .stopping }
    let stopping := { s with cancels := s.cancels.alloc call }
    match s.containerNames.get? runId with
    | some _ => stopping
    | none => cancelAfterStop s.cancels.size call stopping

def cancelStopped (k : ℕ) (cancelled : Bool) (s : ContainerRuns) : Option ContainerRuns :=
  ((s.cancels.get? k).filter fun call => call.phase = .stopping).map fun call =>
    -- Only a cancellation gets past `except Exception`.
    if cancelled then
      { s with cancels := s.cancels.modify k fun _ => { call with phase := .done } }
    else s.cancelAfterStop k call

/-- `cancel` after it has awaited the child, for five seconds at most. -/
def cancelWaited (k : ℕ) (outcome : WaitOutcome) (s : ContainerRuns) : Option ContainerRuns :=
  ((s.cancels.get? k).filter fun call => call.phase = .waiting).map fun call =>
    let done := { s with cancels := s.cancels.modify k fun _ => { call with phase := .done } }
    match outcome with
    | .finished | .timeout => done.clearActiveRun call.runId
    | .cancelled | .raised => done

/-! ## The cleanup tasks -/

/-- The `finally` of a cleanup task, and its end. -/
def finishTask (t : ℕ) (runId : String) (s : ContainerRuns) : ContainerRuns :=
  { s with
    registry := s.registry.finishTask t runId
    containerNames := s.containerNames.erase runId }

/-- A cleanup task once the container is stopped. An error of `kill` ends it. -/
def cleanupAfterStop (t : ℕ) (task : CleanupTask) (s : ContainerRuns) : ContainerRuns :=
  match s.registry.killChild task.child with
  | none => s.finishTask t task.runId
  | some registry => { s with registry := registry.setPhase t .waiting }

/-- `container_name or self._container_names.get(run_id)`. -/
def resolvedName (task : CleanupTask) (s : ContainerRuns) : Option String :=
  if task.containerName = "" then s.containerNames.get? task.runId else some task.containerName

def cleanupStarted (t : ℕ) (s : ContainerRuns) : Option ContainerRuns :=
  (s.registry.taskAt t .created).map fun task =>
    match s.resolvedName task with
    | some _ => { s with registry := s.registry.setPhase t .stopping }
    | none => s.cleanupAfterStop t task

def cleanupStopped (t : ℕ) (cancelled : Bool) (s : ContainerRuns) : Option ContainerRuns :=
  (s.registry.taskAt t .stopping).map fun task =>
    if cancelled then s.finishTask t task.runId else s.cleanupAfterStop t task

/-- `none` where the action is not possible. -/
def step (s : ContainerRuns) : Action → Option ContainerRuns
  | .execute runId containerName outcome => some (s.execute runId containerName outcome)
  | .communicated k outcome => s.communicated k outcome
  | .cancel runId => some (s.cancel runId)
  | .cancelStopped k cancelled => s.cancelStopped k cancelled
  | .cancelWaited k outcome => s.cancelWaited k outcome
  | .cleanupStarted t => s.cleanupStarted t
  | .cleanupStopped t cancelled => s.cleanupStopped t cancelled
  -- However the wait ends, the `finally` runs.
  | .cleanupEnded t _ =>
    (s.registry.taskAt t .waiting).map fun task => s.finishTask t task.runId
  | .cleanupDropped t =>
    (s.registry.taskAt t .created).map fun _ => { s with registry := s.registry.setPhase t .done }
  | .exit child =>
    (s.registry.changeChild child .running .exited).map fun registry => { s with registry }
  | .close child =>
    (s.registry.changeChild child .exited .closed).map fun registry => { s with registry }

/-! ## The property and its condition -/

/-- Every call that has ended has cleaned up. -/
def Settled (s : ContainerRuns) : Prop := Portex.Settled s.registry s.calls

/-- The serialisation does not raise, and no call is cancelled before its child is over. No other
exception comes out of `communicate`, and no cleanup task is cancelled before it begins, unless the
run is not registered or has another cleanup task, and the child is over. -/
def Tidy (s : ContainerRuns) : Action → Prop
  | .execute _ _ outcome => outcome ≠ .unserialized
  | .communicated k .cancelled => ∀ call ∈ s.calls.get? k, s.registry.Dead call.child
  | .communicated k .raised =>
    ∀ call ∈ s.calls.get? k,
      s.registry.Cleared call.runId call.child ∧ s.registry.Dead call.child
  | .cleanupDropped t =>
    ∀ call ∈ s.calls.cells, call.phase.Ended →
      (s.registry.setPhase t .done).Cleared call.runId call.child
  | _ => True

instance (s : ContainerRuns) : DecidablePred s.Tidy := fun a => by
  unfold Tidy
  split <;> infer_instance

/-- What the backend is in between two steps. -/
def Inv (s : ContainerRuns) : Prop := CallInv s.registry s.calls

/-! ## The steps -/

variable {s t : ContainerRuns} {a : Action} {k i : ℕ} {task : CleanupTask}

/-- The registries move, and the calls stay. -/
def Aside (s t : ContainerRuns) : Prop := s.registry.Moves t.registry ∧ t.calls = s.calls

theorem Aside.settled (h : s.Aside t) (hinv : s.Inv) (hs : s.Settled) : t.Inv ∧ t.Settled := by
  unfold Inv Settled
  rw [h.2]
  exact ⟨CallInv.moves hinv h.1, Portex.Settled.moves hs hinv h.1⟩

theorem execute_spec (hinv : s.Inv) (hs : s.Settled) (runId containerName : String)
    (outcome : StartOutcome) : (s.execute runId containerName outcome).Inv ∧
      ((s.execute runId containerName outcome).Settled ↔ outcome ≠ .unserialized) := by
  cases outcome with
  | failed => exact ⟨hinv, iff_of_true hs (by decide)⟩
  | started =>
    obtain ⟨hinv', hs'⟩ := settled_start hinv hs (some runId) containerName
    exact ⟨hinv', iff_of_true hs' (by decide)⟩
  | unserialized =>
    obtain ⟨hinv', hnot⟩ := not_settled_start hinv hs (some runId) containerName .raised
    exact ⟨hinv', iff_of_false hnot (by simp)⟩

theorem communicated_spec (hinv : s.Inv) (hs : s.Settled) {outcome : ExecuteOutcome}
    (h : s.communicated k outcome = some t) :
    t.Inv ∧ (t.Settled ↔ s.Tidy (.communicated k outcome)) := by
  unfold communicated at h
  split at h
  · cases h
  rename_i call hk
  split at h
  · -- There is a result.
    split at h
    · rename_i hgone
      obtain rfl := Option.some.inj h
      obtain ⟨hinv', hs'⟩ :=
        settled_clearRun hinv hs hk (ProcessRegistry.dead_of_any hgone) _
      exact ⟨hinv', iff_of_true hs' trivial⟩
    · cases h
  · -- The call is cancelled: there is a cleanup task, and the child is as it was.
    obtain rfl := Option.some.inj h
    cases hid : call.runId with
    | none =>
      obtain ⟨hinv', hiff⟩ := settled_end_iff hinv hs hk (.refl _) .cancelledError
      refine ⟨hinv', hiff.trans ?_⟩
      simp [Tidy, hk, hid, ProcessRegistry.Cleared]
    | some id =>
      have hensure := ProcessRegistry.moves_ensureCleanupTask id call.child call.request s.registry
      have hpending :=
        ProcessRegistry.pending_ensureCleanupTask hinv.sound id call.child call.request
      obtain ⟨hinv', hiff⟩ := settled_end_iff hinv hs hk hensure .cancelledError
      refine ⟨hinv', hiff.trans ?_⟩
      have hdead : (s.registry.ensureCleanupTask id call.child call.request).Dead call.child ↔
          s.registry.Dead call.child := by
        unfold ProcessRegistry.ensureCleanupTask
        split <;> rfl
      rw [hdead]
      simp [Tidy, hk, hid, ProcessRegistry.Cleared, hpending]
  · -- Any other exception.
    obtain rfl := Option.some.inj h
    obtain ⟨hinv', hiff⟩ := settled_end_iff hinv hs hk (.refl _) .raised
    exact ⟨hinv', hiff.trans (by simp [Tidy, hk])⟩
  · cases h

theorem aside_cancelAfterStop (k : ℕ) (call : ContainerCancel) (s : ContainerRuns) :
    s.Aside (s.cancelAfterStop k call) := by
  unfold cancelAfterStop
  split
  · exact ⟨ProcessRegistry.moves_clearActiveRun _ _, rfl⟩
  split
  · exact ⟨.refl _, rfl⟩
  · rename_i hkill
    exact ⟨(ProcessRegistry.killChild_eq_some hkill).1, rfl⟩

theorem aside_cancel (runId : String) (s : ContainerRuns) : s.Aside (s.cancel runId) := by
  unfold cancel
  split
  · exact ⟨.refl _, rfl⟩
  · dsimp only
    split
    · exact ⟨.refl _, rfl⟩
    · exact aside_cancelAfterStop s.cancels.size _ { s with cancels := s.cancels.alloc _ }

theorem aside_cancelStopped {cancelled : Bool} (h : s.cancelStopped k cancelled = some t) :
    s.Aside t := by
  obtain ⟨call, -, rfl⟩ := Option.map_eq_some_iff.mp h
  split
  · exact ⟨.refl _, rfl⟩
  · exact aside_cancelAfterStop k call s

theorem aside_cancelWaited {outcome : WaitOutcome} (h : s.cancelWaited k outcome = some t) :
    s.Aside t := by
  obtain ⟨call, -, rfl⟩ := Option.map_eq_some_iff.mp h
  cases outcome with
  | finished => exact ⟨ProcessRegistry.moves_clearActiveRun _ _, rfl⟩
  | timeout => exact ⟨ProcessRegistry.moves_clearActiveRun _ _, rfl⟩
  | cancelled => exact ⟨.refl _, rfl⟩
  | raised => exact ⟨.refl _, rfl⟩

theorem aside_finishTask (htask : s.registry.tasks.get? i = some task) :
    s.Aside (s.finishTask i task.runId) := ⟨ProcessRegistry.moves_finishTask htask, rfl⟩

theorem aside_cleanupAfterStop (htask : s.registry.tasks.get? i = some task) :
    s.Aside (s.cleanupAfterStop i task) := by
  unfold cleanupAfterStop
  split
  · exact aside_finishTask htask
  · rename_i hkill
    exact ⟨(ProcessRegistry.killChild_eq_some hkill).1.trans
      (ProcessRegistry.moves_setPhase i (by decide) _), rfl⟩

theorem aside_cleanupStarted (h : s.cleanupStarted i = some t) : s.Aside t := by
  obtain ⟨task, htask, rfl⟩ := Option.map_eq_some_iff.mp h
  split
  · exact ⟨ProcessRegistry.moves_setPhase i (by decide) _, rfl⟩
  · exact aside_cleanupAfterStop (ProcessRegistry.taskAt_eq_some htask).1

theorem aside_cleanupStopped {cancelled : Bool} (h : s.cleanupStopped i cancelled = some t) :
    s.Aside t := by
  obtain ⟨task, htask, rfl⟩ := Option.map_eq_some_iff.mp h
  split
  · exact aside_finishTask (ProcessRegistry.taskAt_eq_some htask).1
  · exact aside_cleanupAfterStop (ProcessRegistry.taskAt_eq_some htask).1

/-- **One step** keeps the calls cleaned up just if it is tidy. -/
theorem step_spec (hinv : s.Inv) (hs : s.Settled) (hstep : s.step a = some t) :
    t.Inv ∧ (t.Settled ↔ s.Tidy a) := by
  have haside (h : s.Aside t) : t.Inv ∧ (t.Settled ↔ True) :=
    ⟨(h.settled hinv hs).1, iff_of_true (h.settled hinv hs).2 trivial⟩
  cases a with
  | execute runId containerName outcome =>
    obtain rfl := Option.some.inj hstep
    exact execute_spec hinv hs runId containerName outcome
  | communicated k outcome => exact communicated_spec hinv hs hstep
  | cancel runId =>
    obtain rfl := Option.some.inj hstep
    exact haside (aside_cancel runId s)
  | cancelStopped k cancelled => exact haside (aside_cancelStopped hstep)
  | cancelWaited k outcome => exact haside (aside_cancelWaited hstep)
  | cleanupStarted i => exact haside (aside_cleanupStarted hstep)
  | cleanupStopped i cancelled => exact haside (aside_cleanupStopped hstep)
  | cleanupEnded i outcome =>
    obtain ⟨task, htask, rfl⟩ := Option.map_eq_some_iff.mp hstep
    exact haside (aside_finishTask (ProcessRegistry.taskAt_eq_some htask).1)
  | cleanupDropped i =>
    obtain ⟨task, -, rfl⟩ := Option.map_eq_some_iff.mp hstep
    exact settled_dropped_iff hinv hs i
  | exit child =>
    obtain ⟨registry, h, rfl⟩ := Option.map_eq_some_iff.mp hstep
    exact haside ⟨ProcessRegistry.moves_changeChild (by decide) h, rfl⟩
  | close child =>
    obtain ⟨registry, h, rfl⟩ := Option.map_eq_some_iff.mp hstep
    exact haside ⟨ProcessRegistry.moves_changeChild (by decide) h, rfl⟩

/-! ## The runs -/

/-- A new backend. -/
def init : ContainerRuns := {}

/-- Anything that is possible may happen. -/
def Possible (_ : ContainerRuns) (_ : Action) : Prop := True

instance (s : ContainerRuns) : DecidablePred s.Possible :=
  fun _ => inferInstanceAs (Decidable True)

/-- **The container registry**: every call leaves its child cleaned up, in all states, if and only
if every step is tidy. -/
theorem settled_iff_tidy {l : List Action} (h : Run step Possible init l t) :
    (∀ l₁ l₂ u, l = l₁ ++ l₂ → Run step Possible init l₁ u → u.Settled) ↔
      Run step (fun s a => s.Possible a ∧ s.Tidy a) init l t :=
  h.always_iff_of_kept (K := fun u => u.Inv ∧ u.Settled) ⟨callInv_empty, settled_empty _⟩
    (fun hu => hu.2)
    (fun hu _ htidy hstep =>
      have hspec := step_spec hu.1 hu.2 hstep
      ⟨hspec.1, hspec.2.mpr htidy⟩)
    fun hu _ huntidy hstep hsettled => huntidy ((step_spec hu.1 hu.2 hstep).2.mp hsettled)

/-- A run of the workspace `home` with the id `r` starts its child, and `last` happens. -/
def startedRun (last : List Action) : List Action := .execute "r" "portex-home" .started :: last

end ContainerRuns

/-- In all states of a run of the executor and of a run of the backend, every call that has ended
has left its child unregistered, or to a pending cleanup task, and finished or killed. -/
def RegistriesCleanedUp (maxExecutionTime : ℤ) (host : List HostRuns.Action)
    (container : List ContainerRuns.Action) : Prop :=
  (∀ l₁ l₂ u, host = l₁ ++ l₂ →
    Run HostRuns.step HostRuns.Possible (.init maxExecutionTime) l₁ u → u.Settled) ∧
  ∀ l₁ l₂ u, container = l₁ ++ l₂ →
    Run ContainerRuns.step ContainerRuns.Possible .init l₁ u → u.Settled

/-- **Process registries.** They are cleaned up in the runs all of whose steps are tidy, and in no
others. -/
theorem registriesCleanedUp_iff {maxExecutionTime : ℤ} {host : List HostRuns.Action}
    {container : List ContainerRuns.Action} {t : HostRuns} {u : ContainerRuns}
    (ht : Run HostRuns.step HostRuns.Possible (.init maxExecutionTime) host t)
    (hu : Run ContainerRuns.step ContainerRuns.Possible .init container u) :
    RegistriesCleanedUp maxExecutionTime host container ↔
      Run HostRuns.step (fun s a => s.Possible a ∧ s.Tidy a) (.init maxExecutionTime) host t ∧
        Run ContainerRuns.step (fun s a => s.Possible a ∧ s.Tidy a) .init container u :=
  and_congr (HostRuns.settled_iff_tidy ht) (ContainerRuns.settled_iff_tidy hu)

/-- A call of the executor that is cancelled, with its cleanup, and a call of the backend that has a
result. -/
theorem registriesCleanedUp_iff_cleanRuns :
    RegistriesCleanedUp 3600
      (HostRuns.startedRun [.communicated 0 .cancelled, .cleanupStarted 0, .exit 0,
        .cleanupEnded 0 .finished])
      (ContainerRuns.startedRun [.exit 0, .communicated 0 (.result 0 [] [])]) := by
  have ht : Run HostRuns.step (fun s a => s.Possible a ∧ s.Tidy a) (.init 3600)
    (HostRuns.startedRun [.communicated 0 .cancelled, .cleanupStarted 0, .exit 0,
      .cleanupEnded 0 .finished]) _ := .of_execute (by decide)
  have hu : Run ContainerRuns.step (fun s a => s.Possible a ∧ s.Tidy a) .init
    (ContainerRuns.startedRun [.exit 0, .communicated 0 (.result 0 [] [])]) _ :=
    .of_execute (by decide)
  exact (registriesCleanedUp_iff (ht.mono fun _ _ h => h.1) (hu.mono fun _ _ h => h.1)).mpr
    ⟨ht, hu⟩

/-- A call of the executor times out and is cancelled while it waits for the child that it has
killed; `communicate` raises in a call of the backend. Both children stay registered without a
cleanup task, and the second one is alive. -/
theorem not_registriesCleanedUp :
    ¬ RegistriesCleanedUp 3600
        (HostRuns.startedRun [.communicated 0 .timeout, .waited 0 .cancelled]) [] ∧
      ¬ RegistriesCleanedUp 3600 [] (ContainerRuns.startedRun [.communicated 0 .raised]) := by
  constructor
  · intro h
    have hrun : Run HostRuns.step HostRuns.Possible (.init 3600)
      (HostRuns.startedRun [.communicated 0 .timeout, .waited 0 .cancelled]) _ :=
      .of_execute (by decide)
    have hcleared := (h.1 _ [] _ (by simp) hrun 0 _ rfl trivial).1
    exact absurd (hcleared "r" rfl (by decide)) (by decide)
  · intro h
    have hrun : Run ContainerRuns.step ContainerRuns.Possible .init
      (ContainerRuns.startedRun [.communicated 0 .raised]) _ := .of_execute (by decide)
    have hsettled := h.2 _ [] _ (by simp) hrun 0 _ rfl trivial
    exact absurd (hsettled.1 "r" rfl (by decide)) (by decide)

end Portex
