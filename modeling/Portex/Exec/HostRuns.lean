import Portex.Exec.ProcessRegistry
import Portex.Foundation.Transition
import Portex.Workspace.TextFiles

/-!
# The runs of the host executor

`ProcessExecutor.run_agent` and `cancel` as coroutines over one executor: calls, cancellations and
cleanup tasks take steps in any order, and an `await` ends in any of its ways. What `run_agent` has
no branch for leaves the child registered: an exception of `communicate` or of the serialisation, a
cancellation while it awaits the child that it has killed, and the `ProcessLookupError` of `kill`.

## Main definitions

* `HostRuns`, `HostRuns.step`: the executor and what happens to it
* `HostRuns.Tidy`: the step ends no call in a way that leaves its child registered or alive

## Main results

* `HostRuns.settled_iff_tidy`: the runs in which every call leaves its child cleaned up
-/

namespace Portex

open Foundation

structure ProcessRunResult where
  returncode : ℤ
  stdout : List Char
  stderr : List Char

/-- How a call of `run_agent` ends once its child has started. -/
inductive RunAgentResult
  | returned (result : ProcessRunResult)
  /-- `ProcessExecutionTimeoutError`. -/
  | timeoutError (detail : String)
  | cancelledError
  /-- The `ProcessLookupError` of `kill`. -/
  | processLookupError
  /-- The `UnicodeDecodeError` of the output. -/
  | decodeError
  /-- Any other exception of an `await`, or that of `serialize_input`. -/
  | raised

/-- What a call of `run_agent` is about. -/
structure HostRequest where
  groupFolder : String
  effectiveTimeout : ℤ

/-- A call of `cancel` that awaits the exit of the child it has killed. -/
structure HostCancel where
  runId : String
  waiting : Bool := true

structure HostRuns where
  maxExecutionTime : ℤ := 3600
  registry : ProcessRegistry := {}
  calls : Heap (RunCall HostRequest RunAgentResult) := ∅
  cancels : Heap HostCancel := ∅

/-- How a child is started. -/
inductive StartOutcome
  /-- There is an error before there is a child. -/
  | failed
  | started
  /-- The child is there when the serialisation of the input raises. -/
  | unserialized
  deriving DecidableEq

/-- How `process.communicate` ends. -/
inductive CommunicateOutcome
  | result (returncode : ℤ) (stdout stderr : List UInt8)
  | timeout
  | cancelled
  | raised
  deriving DecidableEq

/-- How `process.wait` ends. -/
inductive WaitOutcome
  | finished
  | timeout
  | cancelled
  | raised
  deriving DecidableEq

namespace HostRuns

inductive Action
  | runAgent (groupFolder : String) (timeout : Option ℤ) (runId : Option String)
      (outcome : StartOutcome)
  | communicated (k : ℕ) (outcome : CommunicateOutcome)
  | waited (k : ℕ) (outcome : WaitOutcome)
  | cancel (runId : String)
  | cancelWaited (k : ℕ) (outcome : WaitOutcome)
  | cleanupStarted (t : ℕ)
  | cleanupEnded (t : ℕ) (outcome : WaitOutcome)
  /-- The task is cancelled before its coroutine begins, so that its `finally` never runs. -/
  | cleanupDropped (t : ℕ)
  | exit (child : ℕ)
  | close (child : ℕ)
  deriving DecidableEq

def resolveTimeout (timeout : Option ℤ) (s : HostRuns) : ℤ :=
  match timeout with
  | none => s.maxExecutionTime
  | some timeout => min timeout s.maxExecutionTime

/-- `run_agent` up to `communicate`, or to the error of what comes before. -/
def runAgent (groupFolder : String) (timeout : Option ℤ) (runId : Option String)
    (outcome : StartOutcome) (s : HostRuns) : HostRuns :=
  let call : RunCall HostRequest RunAgentResult :=
    { request := { groupFolder, effectiveTimeout := s.resolveTimeout timeout }
      runId
      child := s.registry.children.size }
  match outcome with
  | .failed => s
  | .started => { s with registry := s.registry.start runId, calls := s.calls.alloc call }
  | .unserialized =>
    { s with
      registry := s.registry.start runId
      calls := s.calls.alloc { call with phase := .ended .raised } }

/-- A call ends, or goes on, with the registries as they are then. -/
def setCall (k : ℕ) (phase : RunPhase RunAgentResult) (registry : ProcessRegistry)
    (s : HostRuns) : HostRuns :=
  { s with registry, calls := setCallPhase k phase s.calls }

/-- The result once the run is unregistered. -/
def runResult (returncode : ℤ) (stdout stderr : List UInt8) : RunAgentResult :=
  match decodeStrict stdout, decodeStrict stderr with
  | some stdout, some stderr => .returned { returncode, stdout, stderr }
  | _, _ => .decodeError

def timeoutDetail (request : HostRequest) : String :=
  s!"Host process runner timed out after {request.effectiveTimeout} seconds for group '" ++
    request.groupFolder ++ "'"

/-- `run_agent` after `communicate`. The child has exited where there is a result. -/
def communicated (k : ℕ) (outcome : CommunicateOutcome) (s : HostRuns) : Option HostRuns :=
  match s.calls.get? k with
  | none => none
  | some call =>
    match call.phase, outcome with
    | .communicating, .result returncode stdout stderr =>
      if (s.registry.children.get? call.child).any fun c => c.state ≠ .running then
        some (s.setCall k (.ended (runResult returncode stdout stderr))
          (s.registry.clearRun call.runId))
      else none
    | .communicating, .timeout =>
      match s.registry.killChild call.child with
      | none => some (s.setCall k (.ended .processLookupError) s.registry)
      | some registry => some (s.setCall k .waiting registry)
    | .communicating, .cancelled =>
      match s.registry.killChild call.child with
      | none => some (s.setCall k (.ended .processLookupError) s.registry)
      | some registry =>
        some (s.setCall k (.ended .cancelledError) (match call.runId with
          | some id => registry.ensureCleanupTask id call.child ""
          | none => registry))
    | .communicating, .raised => some (s.setCall k (.ended .raised) s.registry)
    | _, _ => none

/-- `run_agent` after it has awaited the child that it killed at the timeout. It waits without a
limit. -/
def waited (k : ℕ) (outcome : WaitOutcome) (s : HostRuns) : Option HostRuns :=
  match s.calls.get? k with
  | none => none
  | some call =>
    match call.phase, outcome with
    | .waiting, .finished =>
      if (s.registry.children.get? call.child).any fun c => c.state ≠ .running then
        some (s.setCall k (.ended (.timeoutError (timeoutDetail call.request)))
          (s.registry.clearRun call.runId))
      else none
    | .waiting, .cancelled => some (s.setCall k (.ended .cancelledError) s.registry)
    | .waiting, .raised => some (s.setCall k (.ended .raised) s.registry)
    | _, _ => none

/-- `cancel` up to its `await`. Where it awaits a cleanup task it has no more to do, and its own
cancellation then cancels the task. -/
def cancel (runId : String) (s : HostRuns) : HostRuns :=
  match s.registry.activeProcesses.get? runId with
  | none => s
  | some child =>
    match s.registry.killChild child with
    | none => s
    | some registry =>
      match s.registry.openTask runId with
      | some _ => { s with registry }
      | none => { s with registry, cancels := s.cancels.alloc { runId } }

/-- `cancel` after it has awaited the child, for five seconds at most. -/
def cancelWaited (k : ℕ) (outcome : WaitOutcome) (s : HostRuns) : Option HostRuns :=
  match s.cancels.get? k with
  | none => none
  | some call =>
    if call.waiting then
      some { s with
        registry := match outcome with
          | .finished | .timeout => s.registry.clearActiveRun call.runId
          | .cancelled | .raised => s.registry
        cancels := s.cancels.modify k fun call => { call with waiting := false } }
    else none

/-- `none` where the action is not possible. -/
def step (s : HostRuns) : Action → Option HostRuns
  | .runAgent groupFolder timeout runId outcome =>
    some (s.runAgent groupFolder timeout runId outcome)
  | .communicated k outcome => s.communicated k outcome
  | .waited k outcome => s.waited k outcome
  | .cancel runId => some (s.cancel runId)
  | .cancelWaited k outcome => s.cancelWaited k outcome
  | .cleanupStarted t =>
    (s.registry.taskAt t .created).map fun _ =>
      { s with registry := s.registry.setPhase t .waiting }
  -- However the wait ends, the `finally` runs.
  | .cleanupEnded t _ =>
    (s.registry.taskAt t .waiting).map fun task =>
      { s with registry := s.registry.finishTask t task.runId }
  | .cleanupDropped t =>
    (s.registry.taskAt t .created).map fun _ => { s with registry := s.registry.setPhase t .done }
  | .exit child =>
    (s.registry.changeChild child .running .exited).map fun registry => { s with registry }
  | .close child =>
    (s.registry.changeChild child .exited .closed).map fun registry => { s with registry }

/-! ## The property and its condition -/

/-- Every call that has ended has cleaned up. -/
def Settled (s : HostRuns) : Prop := Portex.Settled s.registry s.calls

/-- The serialisation does not raise. No call is timed out or cancelled when the transport of its
child is closed, no call that waits for its child is cancelled, and no cleanup task is cancelled
before it begins, unless the run is not registered or has another cleanup task; and no other
exception comes out of `communicate`, unless the child is over besides. -/
def Tidy (s : HostRuns) : Action → Prop
  | .runAgent _ _ _ outcome => outcome ≠ .unserialized
  | .communicated k .timeout | .communicated k .cancelled =>
    ∀ call ∈ s.calls.get? k, s.registry.Closed call.child →
      s.registry.Cleared call.runId call.child
  | .communicated k .raised =>
    ∀ call ∈ s.calls.get? k,
      s.registry.Cleared call.runId call.child ∧ s.registry.Dead call.child
  | .waited k .cancelled | .waited k .raised =>
    ∀ call ∈ s.calls.get? k, s.registry.Cleared call.runId call.child
  | .cleanupDropped t =>
    ∀ call ∈ s.calls.cells, call.phase.Ended →
      (s.registry.setPhase t .done).Cleared call.runId call.child
  | _ => True

instance (s : HostRuns) : DecidablePred s.Tidy := fun a => by
  unfold Tidy
  split <;> infer_instance

/-- What the executor is in between two steps. -/
def Inv (s : HostRuns) : Prop := CallInv s.registry s.calls

variable {s t : HostRuns} {a : Action} {k : ℕ} {registry : ProcessRegistry}
  {call : RunCall HostRequest RunAgentResult}

/-! ## The steps -/

/-- A step that changes the registries alone. -/
theorem settled_of_moves (hinv : s.Inv) (hs : s.Settled) (hm : s.registry.Moves t.registry)
    (hcalls : t.calls = s.calls) : t.Inv ∧ t.Settled := by
  unfold Inv Settled
  rw [hcalls]
  exact ⟨CallInv.moves hinv hm, Portex.Settled.moves hs hinv hm⟩

/-- A call that goes on to wait for the child it has killed. -/
theorem settled_wait (hinv : s.Inv) (hs : s.Settled) (hk : s.calls.get? k = some call)
    (hm : s.registry.Moves registry) (hdead : registry.Dead call.child) :
    (s.setCall k .waiting registry).Inv ∧ (s.setCall k .waiting registry).Settled :=
  ⟨CallInv.setCallPhase hinv hm hk fun _ => hdead,
    (settled_setCallPhase_iff hs hinv hm hk).mpr fun hended => hended.elim⟩

theorem runAgent_spec (hinv : s.Inv) (hs : s.Settled) (groupFolder : String) (timeout : Option ℤ)
    (runId : Option String) (outcome : StartOutcome) :
    (s.runAgent groupFolder timeout runId outcome).Inv ∧
      ((s.runAgent groupFolder timeout runId outcome).Settled ↔ outcome ≠ .unserialized) := by
  cases outcome with
  | failed => exact ⟨hinv, iff_of_true hs (by decide)⟩
  | started =>
    obtain ⟨hinv', hs'⟩ := settled_start hinv hs runId _
    exact ⟨hinv', iff_of_true hs' (by decide)⟩
  | unserialized =>
    obtain ⟨hinv', hnot⟩ := not_settled_start hinv hs runId _ .raised
    exact ⟨hinv', iff_of_false hnot (by simp)⟩

/-- The transport of the child is closed: `kill` raises, and the call ends with the registries as
they are. -/
theorem settled_lookupError_iff (hinv : s.Inv) (hs : s.Settled) (hk : s.calls.get? k = some call)
    (hkill : s.registry.killChild call.child = none) :
    (s.setCall k (.ended .processLookupError) s.registry).Inv ∧
      ((s.setCall k (.ended .processLookupError) s.registry).Settled ↔
        ∀ call ∈ s.calls.get? k, s.registry.Closed call.child →
          s.registry.Cleared call.runId call.child) := by
  have hclosed := (ProcessRegistry.killChild_eq_none_iff (hinv.child k call hk)).mp hkill
  obtain ⟨hinv', hiff⟩ := settled_end_iff hinv hs hk (.refl _) .processLookupError
  refine ⟨hinv', hiff.trans ?_⟩
  simp only [hk, Option.mem_some_iff, forall_eq']
  exact ⟨fun h _ => h.1, fun h => ⟨h hclosed, hclosed.dead⟩⟩

/-- The transport is open, and `kill` succeeds. -/
theorem open_of_killChild (hinv : s.Inv) (hk : s.calls.get? k = some call)
    (hkill : s.registry.killChild call.child = some registry) :
    ∀ call ∈ s.calls.get? k, s.registry.Closed call.child →
      s.registry.Cleared call.runId call.child := by
  simp only [hk, Option.mem_some_iff, forall_eq']
  intro hclosed
  rw [(ProcessRegistry.killChild_eq_none_iff (hinv.child k call hk)).mpr hclosed] at hkill
  cases hkill

theorem communicated_spec (hinv : s.Inv) (hs : s.Settled) {outcome : CommunicateOutcome}
    (h : s.communicated k outcome = some t) :
    t.Inv ∧ (t.Settled ↔ s.Tidy (.communicated k outcome)) := by
  unfold communicated at h
  split at h
  · cases h
  rename_i call hk
  split at h
  · -- There is a result.
    split at h
    · rename_i hgone
      obtain rfl := Option.some.inj h
      obtain ⟨hinv', hs'⟩ := settled_clearRun hinv hs hk (ProcessRegistry.dead_of_any hgone) _
      exact ⟨hinv', iff_of_true hs' trivial⟩
    · cases h
  · -- The timeout.
    split at h
    · rename_i hkill
      obtain rfl := Option.some.inj h
      exact settled_lookupError_iff hinv hs hk hkill
    · rename_i registry hkill
      obtain rfl := Option.some.inj h
      obtain ⟨hm, hdead⟩ := ProcessRegistry.killChild_eq_some hkill
      obtain ⟨hinv', hs'⟩ := settled_wait hinv hs hk hm hdead
      exact ⟨hinv', iff_of_true hs' (open_of_killChild hinv hk hkill)⟩
  · -- The call is cancelled.
    split at h
    · rename_i hkill
      obtain rfl := Option.some.inj h
      exact settled_lookupError_iff hinv hs hk hkill
    · rename_i registry hkill
      obtain rfl := Option.some.inj h
      obtain ⟨hm, hdead⟩ := ProcessRegistry.killChild_eq_some hkill
      have hopen := open_of_killChild hinv hk hkill
      cases hid : call.runId with
      | none =>
        obtain ⟨hinv', hiff⟩ := settled_end_iff hinv hs hk hm .cancelledError
        refine ⟨hinv', iff_of_true (hiff.mpr ⟨fun id h => ?_, hdead⟩) hopen⟩
        rw [hid] at h
        cases h
      | some id =>
        have hensure := ProcessRegistry.moves_ensureCleanupTask id call.child "" registry
        obtain ⟨hinv', hiff⟩ := settled_end_iff hinv hs hk (hm.trans hensure) .cancelledError
        refine ⟨hinv', iff_of_true (hiff.mpr ⟨?_, hensure.dead _ hdead⟩) hopen⟩
        intro id' hid' _
        obtain rfl := Option.some.inj (hid.symm.trans hid')
        exact ProcessRegistry.pending_ensureCleanupTask (hm.sound hinv.sound) id call.child ""
  · -- Any other exception.
    obtain rfl := Option.some.inj h
    obtain ⟨hinv', hiff⟩ := settled_end_iff hinv hs hk (.refl _) .raised
    exact ⟨hinv', hiff.trans (by simp [Tidy, hk])⟩
  · cases h

theorem waited_spec (hinv : s.Inv) (hs : s.Settled) {outcome : WaitOutcome}
    (h : s.waited k outcome = some t) :
    t.Inv ∧ (t.Settled ↔ s.Tidy (.waited k outcome)) := by
  unfold waited at h
  split at h
  · cases h
  rename_i call hk
  split at h
  · split at h
    · rename_i hgone
      obtain rfl := Option.some.inj h
      obtain ⟨hinv', hs'⟩ := settled_clearRun hinv hs hk (ProcessRegistry.dead_of_any hgone) _
      exact ⟨hinv', iff_of_true hs' trivial⟩
    · cases h
  -- The child of a call that waits is killed, so that only its registration is left.
  · rename_i hphase
    obtain rfl := Option.some.inj h
    obtain ⟨hinv', hiff⟩ := settled_end_iff hinv hs hk (.refl _) .cancelledError
    exact ⟨hinv', hiff.trans (by simp [Tidy, hk, hinv.waiting k call hk hphase])⟩
  · rename_i hphase
    obtain rfl := Option.some.inj h
    obtain ⟨hinv', hiff⟩ := settled_end_iff hinv hs hk (.refl _) .raised
    exact ⟨hinv', hiff.trans (by simp [Tidy, hk, hinv.waiting k call hk hphase])⟩
  · cases h

theorem moves_cancel (runId : String) (s : HostRuns) :
    s.registry.Moves (s.cancel runId).registry ∧ (s.cancel runId).calls = s.calls := by
  unfold cancel
  split
  · exact ⟨.refl _, rfl⟩
  split
  · exact ⟨.refl _, rfl⟩
  · rename_i registry hkill
    have hm := (ProcessRegistry.killChild_eq_some hkill).1
    split
    · exact ⟨hm, rfl⟩
    · exact ⟨hm, rfl⟩

theorem moves_cancelWaited {outcome : WaitOutcome} (h : s.cancelWaited k outcome = some t) :
    s.registry.Moves t.registry ∧ t.calls = s.calls := by
  unfold cancelWaited at h
  split at h
  · cases h
  · split at h
    · obtain rfl := Option.some.inj h
      refine ⟨?_, rfl⟩
      cases outcome with
      | finished => exact ProcessRegistry.moves_clearActiveRun _ _
      | timeout => exact ProcessRegistry.moves_clearActiveRun _ _
      | cancelled => exact .refl _
      | raised => exact .refl _
    · cases h

/-- **One step** keeps the calls cleaned up just if it is tidy. -/
theorem step_spec (hinv : s.Inv) (hs : s.Settled) (hstep : s.step a = some t) :
    t.Inv ∧ (t.Settled ↔ s.Tidy a) := by
  -- The steps that change the registries alone.
  have hmoves (hm : s.registry.Moves t.registry ∧ t.calls = s.calls) :
      t.Inv ∧ (t.Settled ↔ True) := by
    obtain ⟨hinv', hs'⟩ := settled_of_moves hinv hs hm.1 hm.2
    exact ⟨hinv', iff_of_true hs' trivial⟩
  cases a with
  | runAgent groupFolder timeout runId outcome =>
    obtain rfl := Option.some.inj hstep
    exact runAgent_spec hinv hs groupFolder timeout runId outcome
  | communicated k outcome => exact communicated_spec hinv hs hstep
  | waited k outcome => exact waited_spec hinv hs hstep
  | cancel runId =>
    obtain rfl := Option.some.inj hstep
    exact hmoves (moves_cancel runId s)
  | cancelWaited k outcome => exact hmoves (moves_cancelWaited hstep)
  | cleanupStarted i =>
    obtain ⟨task, -, rfl⟩ := Option.map_eq_some_iff.mp hstep
    exact hmoves ⟨ProcessRegistry.moves_setPhase i (by decide) _, rfl⟩
  | cleanupEnded i outcome =>
    obtain ⟨task, htask, rfl⟩ := Option.map_eq_some_iff.mp hstep
    exact hmoves ⟨ProcessRegistry.moves_finishTask (ProcessRegistry.taskAt_eq_some htask).1, rfl⟩
  | cleanupDropped i =>
    obtain ⟨task, -, rfl⟩ := Option.map_eq_some_iff.mp hstep
    exact settled_dropped_iff hinv hs i
  | exit child =>
    obtain ⟨registry, h, rfl⟩ := Option.map_eq_some_iff.mp hstep
    exact hmoves ⟨ProcessRegistry.moves_changeChild (by decide) h, rfl⟩
  | close child =>
    obtain ⟨registry, h, rfl⟩ := Option.map_eq_some_iff.mp hstep
    exact hmoves ⟨ProcessRegistry.moves_changeChild (by decide) h, rfl⟩

/-! ## The runs -/

/-- A new executor. -/
def init (maxExecutionTime : ℤ) : HostRuns := { maxExecutionTime }

/-- Anything that is possible may happen. -/
def Possible (_ : HostRuns) (_ : Action) : Prop := True

instance (s : HostRuns) : DecidablePred s.Possible := fun _ => inferInstanceAs (Decidable True)

/-- **The host registry**: every call leaves its child cleaned up, in all states, if and only if
every step is tidy. -/
theorem settled_iff_tidy {maxExecutionTime : ℤ} {l : List Action}
    (h : Run step Possible (init maxExecutionTime) l t) :
    (∀ l₁ l₂ u, l = l₁ ++ l₂ → Run step Possible (init maxExecutionTime) l₁ u → u.Settled) ↔
      Run step (fun s a => s.Possible a ∧ s.Tidy a) (init maxExecutionTime) l t :=
  h.always_iff_of_kept (K := fun u => u.Inv ∧ u.Settled) ⟨callInv_empty, settled_empty _⟩
    (fun hu => hu.2)
    (fun hu _ htidy hstep =>
      have hspec := step_spec hu.1 hu.2 hstep
      ⟨hspec.1, hspec.2.mpr htidy⟩)
    fun hu _ huntidy hstep hsettled => huntidy ((step_spec hu.1 hu.2 hstep).2.mp hsettled)

/-- A run of the workspace `home` with the id `r` starts its child, and `last` happens. -/
def startedRun (last : List Action) : List Action :=
  .runAgent "home" none (some "r") .started :: last

end HostRuns

end Portex
