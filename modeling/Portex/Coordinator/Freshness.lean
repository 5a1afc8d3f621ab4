import Portex.Coordinator.Postings
import Portex.Coordinator.SessionIsolation

/-!
# Fresh sessions

A run that asks for a fresh session is to execute with a session id of its own. The preview of a
session answers the factory's id, unless the workspace has neither a session nor a past: then it
answers the workspace key, also to a fresh run, and earlier runs that did not complete may have
executed with that key.

## Main definitions

* `Config.FreshIds`: the factory never repeats an id
* `FreshCalls`: no fresh run executes with a session id that was executed with before
* `FirstOfKey`: a fresh run that was given the bare key starts first in its workspace
* `SessionIds`: where session ids come from

## Main results

* `resolveSessionId_runtime`: the three answers to a run on the runtime backend
* `SessionIds.step`: every action keeps track of the session ids
* `freshCalls_iff`: when fresh sessions are fresh
-/

namespace Portex

open Foundation

/-- The factory never repeats an id of a workspace, and does not answer the bare key. -/
structure Config.FreshIds (cfg : Config) : Prop where
  injective : ∀ key n m, cfg.newSessionId n key = cfg.newSessionId m key → n = m
  ne_key : ∀ key n, cfg.newSessionId n key ≠ key

/-- A coordinator with a factory that numbers its ids. -/
def Config.numbered : Config where
  selectBackend _ := .ok "openai_runtime"
  backends := ["openai_runtime"]
  uuidHex n := (10000000 + n).repr

/-- A request for a fresh session. -/
def ExecutionRequest.anew (requestId : String) : ExecutionRequest :=
  { ExecutionRequest.sample requestId with freshSession := true }

namespace Coordinator

variable {cfg : Config} {worker task : ℕ} {c c' : Coordinator} {e : Execution} {k s : String}

/-- The run is one of the backend that keeps sessions. -/
def OnRuntime (cfg : Config) (request : ExecutionRequest) : Prop :=
  cfg.selectBackend request = .ok "openai_runtime"

instance (cfg : Config) : DecidablePred (OnRuntime cfg) := fun request =>
  match h : cfg.selectBackend request with
  | .ok backendName =>
    decidable_of_iff (backendName = "openai_runtime") (by simp [OnRuntime, h])
  | .error _ => isFalse (by simp [OnRuntime, h])

/-! ## The property and its condition -/

/-- The later of two calls, if it is of a fresh run, has another session id than the earlier one
of the same workspace. -/
def Refreshes (cfg : Config) (earlier later : BackendCall) : Prop :=
  later.request.freshSession = true → OnRuntime cfg later.request → OnRuntime cfg earlier.request →
    workspaceKey cfg earlier.request = workspaceKey cfg later.request →
      earlier.sessionId ≠ later.sessionId

instance (cfg : Config) (earlier later : BackendCall) : Decidable (Refreshes cfg earlier later) :=
  inferInstanceAs (Decidable (_ → _ → _ → _ → _))

/-- No fresh run executes with a session id that a run of its workspace executed with before. -/
def FreshCalls (cfg : Config) (c : Coordinator) : Prop :=
  c.history.calls.Pairwise (Refreshes cfg)

/-- Backends answer with dicts and exceptions, and not with results of their own making, which
could carry any session id. -/
def OwnAnswers (_ : Coordinator) : Action → Prop
  | .backendEnds _ (.executionResult _) => False
  | _ => True

instance (c : Coordinator) : DecidablePred c.OwnAnswers
  | .backendEnds _ (.executionResult _) => inferInstanceAs (Decidable False)
  | .backendEnds _ (.dict _) | .backendEnds _ .timeoutError | .backendEnds _ (.runtimeError _ _)
  | .backendEnds _ (.exception _) | .backendEnds _ .cancelledError
  | .backendEnds _ (.malformed _) => inferInstanceAs (Decidable True)
  | .submit _ _ | .cancel _ | .worker _ | .execution _ | .wait _ | .waiter _ | .cancelWaiter _
  | .tick => inferInstanceAs (Decidable True)

/-- The task is to start a fresh run with the bare workspace key for its session. -/
def StartsBare (cfg : Config) (e : Execution) : Prop :=
  e.phase = .created ∧ e.cancelRequested = false ∧ e.request.freshSession = true ∧
    OnRuntime cfg e.request ∧ e.sessionId = e.workspaceKey

instance (cfg : Config) : DecidablePred (StartsBare cfg) := fun _ =>
  inferInstanceAs (Decidable (_ ∧ _ ∧ _ ∧ _ ∧ _))

/-- A fresh run that was given the bare workspace key, as its workspace had no past then, is the
first of its workspace to reach the backend. -/
def FirstOfKey (cfg : Config) (c : Coordinator) : Action → Prop
  | .execution task => ∀ e ∈ c.executions.get? task, StartsBare cfg e →
      ∀ call ∈ c.history.calls, OnRuntime cfg call.request →
        workspaceKey cfg call.request ≠ e.workspaceKey
  | _ => True

instance (cfg : Config) (c : Coordinator) : DecidablePred (FirstOfKey cfg c)
  | .execution task =>
    inferInstanceAs (Decidable (∀ e ∈ c.executions.get? task, StartsBare cfg e →
      ∀ call ∈ c.history.calls, OnRuntime cfg call.request →
        workspaceKey cfg call.request ≠ e.workspaceKey))
  | .submit _ _ | .cancel _ | .worker _ | .backendEnds _ _ | .wait _ | .waiter _
  | .cancelWaiter _ | .tick => inferInstanceAs (Decidable True)

/-! ## What a preview answers -/

/-- The workspace has a session, or has committed or invalidated one before. -/
def HasPast (c : Coordinator) (key : String) : Prop :=
  (c.workspaceSessionStore.state key).everCommitted = true ∨
    (c.workspaceSessionStore.state key).sessionId ≠ none

/-- **The session id of a run on the runtime backend**: the committed one, where none fresh is
asked for, the bare key, where the workspace has no past, or the factory's. -/
theorem resolveSessionId_runtime (cfg : Config) (request : ExecutionRequest)
    (freshSession : Option Bool) (backendName : String) (c : Coordinator) :
    ∃ sessionId store, c.resolveSessionId cfg request backendName freshSession =
        (sessionId, { c with draws := c.draws + 1, workspaceSessionStore := store }) ∧
      (∀ key, store.state key = c.workspaceSessionStore.state key) ∧
      (usesWorkspaceSession backendName = true →
        (freshSession.getD request.freshSession = false ∧
          (c.workspaceSessionStore.state (workspaceKey cfg request)).sessionId = some sessionId) ∨
        (¬ c.HasPast (workspaceKey cfg request) ∧ sessionId = workspaceKey cfg request) ∨
        (c.HasPast (workspaceKey cfg request) ∧
          sessionId = cfg.newSessionId c.draws (workspaceKey cfg request))) := by
  unfold resolveSessionId HasPast
  by_cases huses : usesWorkspaceSession backendName = true
  · refine ⟨_, _, by rw [if_pos huses], fun key => ?_, fun _ => ?_⟩
    · exact WorkspaceSessionStore.state_previewSessionId ..
    · unfold WorkspaceSessionStore.previewSessionId
      cases hstate : (c.workspaceSessionStore.state (workspaceKey cfg request)).sessionId with
      | some committed =>
        simp only [hstate]
        split
        · rename_i hresumed
          simp only [Bool.and_eq_true, Bool.not_eq_true'] at hresumed
          exact .inl ⟨hresumed.1, rfl⟩
        · exact .inr (.inr ⟨.inr (by simp), rfl⟩)
      | none =>
        simp only [hstate]
        split
        · rename_i hcommitted
          exact .inr (.inr ⟨.inl hcommitted, rfl⟩)
        · rename_i hcommitted
          exact .inr (.inl ⟨by simp [hcommitted], rfl⟩)
  · simp only [if_neg huses]
    split
    · exact ⟨_, c.workspaceSessionStore, rfl, fun _ => rfl, fun h => absurd h huses⟩
    · exact ⟨_, c.workspaceSessionStore, rfl, fun _ => rfl, fun h => absurd h huses⟩

/-! ## Where session ids come from -/

/-- The bare key, or an id the factory has made. -/
def Known (cfg : Config) (draws : ℕ) (key sessionId : String) : Prop :=
  sessionId = key ∨ ∃ n < draws, sessionId = cfg.newSessionId n key

/-- A run of the workspace has executed with the session id. -/
def Executed (cfg : Config) (c : Coordinator) (key sessionId : String) : Prop :=
  ∃ call ∈ c.history.calls, OnRuntime cfg call.request ∧
    workspaceKey cfg call.request = key ∧ call.sessionId = sessionId

/-- The session id is committed, was executed with, or belongs to another task than this one. -/
def InUse (cfg : Config) (c : Coordinator) (task : ℕ) (key sessionId : String) : Prop :=
  Executed cfg c key sessionId ∨
    (c.workspaceSessionStore.state key).sessionId = some sessionId ∨
    ∃ other e, other ≠ task ∧ c.executions.get? other = some e ∧ OnRuntime cfg e.request ∧
      e.workspaceKey = key ∧ (e.sessionId = sessionId ∨ e.phase = .retrying sessionId)

/-- A fresh run that has not started and was given an id of the factory. -/
structure Pending (cfg : Config) (e : Execution) : Prop where
  runtime : OnRuntime cfg e.request
  fresh : e.request.freshSession = true
  created : e.phase = .created
  made : e.sessionId ≠ e.workspaceKey

/-- Where session ids come from. -/
structure SessionIds (cfg : Config) (c : Coordinator) : Prop where
  selected : ∀ task e, c.executions.get? task = some e →
    cfg.selectBackend e.request = .ok e.backendName ∧ e.workspaceKey = workspaceKey cfg e.request
  store_known : ∀ k s, (c.workspaceSessionStore.state k).sessionId = some s →
    Known cfg c.draws k s
  execution_known : ∀ task e, c.executions.get? task = some e → OnRuntime cfg e.request →
    Known cfg c.draws e.workspaceKey e.sessionId ∧
      ∀ s, e.phase = .retrying s → Known cfg c.draws e.workspaceKey s
  call_known : ∀ k s, Executed cfg c k s → Known cfg c.draws k s
  exclusive : ∀ task e, c.executions.get? task = some e → Pending cfg e →
    ¬ InUse cfg c task e.workspaceKey e.sessionId
  store_bare : ∀ k, c.HasPast k → Executed cfg c k k
  execution_bare : ∀ task e, c.executions.get? task = some e → OnRuntime cfg e.request →
    e.sessionId ≠ e.workspaceKey ∨ e.InFlight → Executed cfg c e.workspaceKey e.workspaceKey
  call_bare : ∀ k s, Executed cfg c k s → Executed cfg c k k

theorem Known.mono {draws draws' : ℕ} (h : Known cfg draws k s) (hle : draws ≤ draws') :
    Known cfg draws' k s := by
  rcases h with h | ⟨n, hn, h⟩
  · exact .inl h
  · exact .inr ⟨n, by omega, h⟩

/-- The next id of the factory is new. -/
theorem Known.ne_next (hcfg : cfg.FreshIds) {draws : ℕ} (h : Known cfg draws k s) :
    s ≠ cfg.newSessionId draws k := by
  rcases h with rfl | ⟨n, hn, rfl⟩
  · exact (hcfg.ne_key _ _).symm
  · intro heq
    have := hcfg.injective k n draws heq
    omega

theorem sessionIds_empty : SessionIds cfg {} where
  selected _ _ h := by cases h
  store_known _ _ h := by cases h
  execution_known _ _ h := by cases h
  call_known _ _ h := by
    obtain ⟨call, hcall, -⟩ := h
    cases hcall
  exclusive _ _ h := by cases h
  store_bare _ h := by
    rcases h with h | h
    · cases h
    · exact absurd rfl h
  execution_bare _ _ h := by cases h
  call_bare _ _ h := by
    obtain ⟨call, hcall, -⟩ := h
    cases hcall

/-- The task is the same run, and its phase is the same unless it is done. -/
structure SameTask (e e' : Execution) : Prop where
  request : e'.request = e.request
  backendName : e'.backendName = e.backendName
  workspaceKey : e'.workspaceKey = e.workspaceKey
  sessionId : e'.sessionId = e.sessionId
  phase : e'.phase = e.phase ∨ e'.IsDone

theorem SameTask.refl (e : Execution) : SameTask e e := ⟨rfl, rfl, rfl, rfl, .inl rfl⟩

theorem SameTask.pending {e e' : Execution} (h : SameTask e e') (hp : Pending cfg e') :
    Pending cfg e := by
  refine ⟨h.request ▸ hp.runtime, h.request ▸ hp.fresh, ?_, ?_⟩
  · rcases h.phase with hphase | ⟨outcome, hdone⟩
    · exact hphase ▸ hp.created
    · rw [hp.created] at hdone
      cases hdone
  · rw [← h.sessionId, ← h.workspaceKey]
    exact hp.made

theorem SameTask.inFlight {e e' : Execution} (h : SameTask e e') (hin : e'.InFlight) :
    e.InFlight := by
  rcases h.phase with hphase | hdone
  · unfold Execution.InFlight at hin ⊢
    rwa [hphase] at hin
  · exact absurd hdone hin.undone

theorem SameTask.retrying {e e' : Execution} (h : SameTask e e')
    (hr : e'.phase = .retrying s) : e.phase = .retrying s := by
  rcases h.phase with hphase | ⟨outcome, hdone⟩
  · exact hphase ▸ hr
  · rw [hr] at hdone
    cases hdone

/-- What a step may do to the task it is about, where `k` is its workspace and `s` the session id
it uses. -/
structure Handled (cfg : Config) (c c' : Coordinator) (task : ℕ) (k s : String)
    (e : Execution) : Prop where
  selected : cfg.selectBackend e.request = .ok e.backendName
  key : e.workspaceKey = workspaceKey cfg e.request
  own : OnRuntime cfg e.request → e.workspaceKey = k
  session : OnRuntime cfg e.request → e.sessionId = s ∨
    ∃ before, c.executions.get? task = some before ∧ SameTask before { e with phase := before.phase }
  retry : OnRuntime cfg e.request → ∀ id, e.phase = .retrying id → id = s
  bare : OnRuntime cfg e.request → e.sessionId ≠ k ∨ e.InFlight → Executed cfg c' k k
  pending : Pending cfg e → e.sessionId = s ∧ ¬ InUse cfg c' task k s

/-- A step about one task, which uses the session id `s` in the workspace `k`. -/
structure SessionStep (cfg : Config) (c c' : Coordinator) (task : ℕ) (k s : String) : Prop where
  draws : c.draws ≤ c'.draws
  known : Known cfg c'.draws k s
  others : ∀ other e', other ≠ task → c'.executions.get? other = some e' →
    ∃ e, c.executions.get? other = some e ∧ SameTask e e'
  handled : ∀ e', c'.executions.get? task = some e' → Handled cfg c c' task k s e'
  exclusive : ∀ other e, other ≠ task → c.executions.get? other = some e → Pending cfg e →
    e.workspaceKey = k → e.sessionId ≠ s
  sessions : ∀ key id, (c'.workspaceSessionStore.state key).sessionId = some id →
    (c.workspaceSessionStore.state key).sessionId = some id ∨ (key = k ∧ id = s)
  past : ∀ key, c'.HasPast key → c.HasPast key ∨ (key = k ∧ Executed cfg c' k k)
  calls : ∀ key id, Executed cfg c' key id → Executed cfg c key id ∨
    (key = k ∧ id = s ∧ Executed cfg c' k k)
  kept : ∀ key id, Executed cfg c key id → Executed cfg c' key id

/-- A session id that is not in use, and is not the one that the step uses, is still not in use. -/
theorem SessionStep.not_inUse {task other : ℕ} {k s key id : String}
    (m : SessionStep cfg c c' task k s) (hunused : ¬ InUse cfg c other key id)
    (hne : key = k → id ≠ s) : ¬ InUse cfg c' other key id := by
  -- An id is in use by a call, as the session of a workspace, or by a task.
  rintro (hcalled | hcommitted | ⟨third, e', hthird, he', hruntime, hkey, huse⟩)
  · rcases m.calls _ _ hcalled with hold | ⟨hk, hs, -⟩
    · exact hunused (.inl hold)
    · exact hne hk hs
  · rcases m.sessions _ _ hcommitted with hold | ⟨hk, hs⟩
    · exact hunused (.inr (.inl hold))
    · exact hne hk hs
  · by_cases htask : third = task
    · subst htask
      have hhandled := m.handled e' he'
      have hk : key = k := hkey.symm.trans (hhandled.own hruntime)
      rcases huse with huse | huse
      · -- The task of the step has the id of the step, or still its own.
        rcases hhandled.session hruntime with hs | ⟨before, hbefore, hsame⟩
        · exact hne hk (huse.symm.trans hs)
        · refine hunused (.inr (.inr ⟨third, before, hthird, hbefore,
            hsame.request ▸ hruntime, ?_, .inl ?_⟩))
          · exact hsame.workspaceKey.symm.trans hkey
          · exact hsame.sessionId.symm.trans huse
      · exact hne hk (hhandled.retry hruntime _ huse)
    · obtain ⟨e, he, hsame⟩ := m.others third e' htask he'
      refine hunused (.inr (.inr ⟨third, e, hthird, he, hsame.request ▸ hruntime, ?_, ?_⟩))
      · exact hsame.workspaceKey.symm.trans hkey
      · rcases huse with huse | huse
        · exact .inl (hsame.sessionId.symm.trans huse)
        · exact .inr (hsame.retrying huse)

/-- **A step about one task keeps track of the session ids.** -/
theorem SessionIds.extend (h : SessionIds cfg c) (task : ℕ) (k s : String)
    (m : SessionStep cfg c c' task k s) :
    SessionIds cfg c' where
  selected other e' he' := by
    by_cases hother : other = task
    · subst hother
      exact ⟨(m.handled e' he').selected, (m.handled e' he').key⟩
    · obtain ⟨e, he, hsame⟩ := m.others other e' hother he'
      rw [hsame.request, hsame.backendName, hsame.workspaceKey]
      exact h.selected other e he
  store_known key id hid := by
    rcases m.sessions key id hid with hold | ⟨rfl, rfl⟩
    · exact (h.store_known key id hold).mono m.draws
    · exact m.known
  execution_known other e' he' hruntime := by
    by_cases hother : other = task
    · subst hother
      have hhandled := m.handled e' he'
      rw [hhandled.own hruntime]
      constructor
      · rcases hhandled.session hruntime with hs | ⟨before, hbefore, hsame⟩
        · exact hs ▸ m.known
        · have hknown := (h.execution_known other before hbefore (hsame.request ▸ hruntime)).1
          rw [← hsame.sessionId, ← hsame.workspaceKey] at hknown
          exact hhandled.own hruntime ▸ hknown.mono m.draws
      · intro id hretry
        exact hhandled.retry hruntime id hretry ▸ m.known
    · obtain ⟨e, he, hsame⟩ := m.others other e' hother he'
      obtain ⟨hknown, hretry⟩ := h.execution_known other e he (hsame.request ▸ hruntime)
      rw [hsame.workspaceKey, hsame.sessionId]
      exact ⟨hknown.mono m.draws, fun id hid => (hretry id (hsame.retrying hid)).mono m.draws⟩
  call_known key id hid := by
    rcases m.calls key id hid with hold | ⟨rfl, rfl, -⟩
    · exact (h.call_known key id hold).mono m.draws
    · exact m.known
  exclusive other e' he' hpending := by
    by_cases hother : other = task
    · subst hother
      obtain ⟨hs, hunused⟩ := (m.handled e' he').pending hpending
      rw [(m.handled e' he').own hpending.runtime, hs]
      exact hunused
    · -- The id of a task that has not started is not the one that the step uses.
      obtain ⟨e, he, hsame⟩ := m.others other e' hother he'
      rw [hsame.workspaceKey, hsame.sessionId]
      exact m.not_inUse (h.exclusive other e he (hsame.pending hpending))
        (m.exclusive other e hother he (hsame.pending hpending))
  store_bare key hpast := by
    rcases m.past key hpast with hold | ⟨rfl, hbare⟩
    · exact m.kept _ _ (h.store_bare key hold)
    · exact hbare
  execution_bare other e' he' hruntime hcase := by
    by_cases hother : other = task
    · subst hother
      have hhandled := m.handled e' he'
      rw [hhandled.own hruntime] at hcase ⊢
      exact hhandled.bare hruntime hcase
    · obtain ⟨e, he, hsame⟩ := m.others other e' hother he'
      rw [hsame.workspaceKey, hsame.sessionId] at hcase
      rw [hsame.workspaceKey]
      exact m.kept _ _ (h.execution_bare other e he (hsame.request ▸ hruntime)
        (hcase.imp_right hsame.inFlight))
  call_bare key id hid := by
    rcases m.calls key id hid with hold | ⟨rfl, -, hbare⟩
    · exact m.kept _ _ (h.call_bare key id hold)
    · exact hbare

/-- A step that uses no session id. -/
theorem SessionIds.frame (h : SessionIds cfg c) (hdraws : c.draws ≤ c'.draws)
    (hstates : ∀ key, c'.workspaceSessionStore.state key = c.workspaceSessionStore.state key)
    (hcalls : c'.history.calls = c.history.calls)
    (htasks : ∀ task e', c'.executions.get? task = some e' →
      ∃ e, c.executions.get? task = some e ∧ SameTask e e') : SessionIds cfg c' := by
  have hexecuted : ∀ key id, Executed cfg c' key id ↔ Executed cfg c key id := by
    intro key id
    unfold Executed
    rw [hcalls]
  have hpast : ∀ key, c'.HasPast key ↔ c.HasPast key := by
    intro key
    unfold HasPast
    rw [hstates]
  -- The bare key is never the id of a task that was given one of the factory.
  refine h.extend c'.executions.size "" "" ⟨hdraws, .inl rfl,
    fun other e' _ he' => htasks other e' he', fun e' he' => ?_, fun _ e _ _ hp hk => ?_,
    fun key id hid => ?_, fun key hp => ?_, fun key id hid => ?_, fun key id hid => ?_⟩
  · exact absurd (Heap.lt_size_of_get? he') (Nat.lt_irrefl _)
  · exact hk ▸ hp.made
  · rw [hstates] at hid
    exact .inl hid
  · exact .inl ((hpast key).mp hp)
  · exact .inl ((hexecuted key id).mp hid)
  · exact (hexecuted key id).mpr hid

/-! ## The four steps that use a session id -/

theorem usesWorkspaceSession_iff {backendName : String} :
    usesWorkspaceSession backendName = true ↔ backendName = "openai_runtime" :=
  beq_iff_eq

/-- A task of the runtime backend is one of its requests. -/
theorem SessionIds.runtime_iff (h : SessionIds cfg c) (he : c.executions.get? task = some e) :
    OnRuntime cfg e.request ↔ usesWorkspaceSession e.backendName = true := by
  rw [usesWorkspaceSession_iff, OnRuntime, (h.selected task e he).1, Except.ok.injEq]

/-- The next id of the factory is not in use after a step that leaves the sessions, the calls and
the other tasks as they were. -/
theorem SessionIds.not_inUse_next (h : SessionIds cfg c) (hcfg : cfg.FreshIds) {task : ℕ}
    {key : String}
    (hothers : ∀ other e', other ≠ task → c'.executions.get? other = some e' →
      ∃ e, c.executions.get? other = some e ∧ SameTask e e')
    (hsessions : ∀ key id, (c'.workspaceSessionStore.state key).sessionId = some id →
      (c.workspaceSessionStore.state key).sessionId = some id)
    (hexecuted : ∀ key id, Executed cfg c' key id → Executed cfg c key id) :
    ¬ InUse cfg c' task key (cfg.newSessionId c.draws key) := by
  rintro (hcalled | hcommitted | ⟨other, e', hother, he', hon, hk, huse⟩)
  · exact (h.call_known _ _ (hexecuted _ _ hcalled)).ne_next hcfg rfl
  · exact (h.store_known _ _ (hsessions _ _ hcommitted)).ne_next hcfg rfl
  · obtain ⟨e, he, hsame⟩ := hothers other e' hother he'
    obtain ⟨hknown, hretry⟩ := h.execution_known other e he (hsame.request ▸ hon)
    rw [← hsame.workspaceKey, hk] at hknown hretry
    rcases huse with huse | huse
    · rw [← hsame.sessionId, huse] at hknown
      exact hknown.ne_next hcfg rfl
    · exact (hretry _ (hsame.retrying huse)).ne_next hcfg rfl

/-- What a launch does to the sessions. -/
structure Launches (cfg : Config) (request : ExecutionRequest) (backendName : String)
    (c c' : Coordinator) (e : Execution) : Prop where
  request_eq : e.request = request
  backendName_eq : e.backendName = backendName
  key : e.workspaceKey = workspaceKey cfg request
  created : e.phase = .created
  draws : c'.draws = c.draws + 1
  states : ∀ k, c'.workspaceSessionStore.state k = c.workspaceSessionStore.state k
  executions : c'.executions = c.executions.alloc e
  calls : c'.history.calls = c.history.calls
  session : usesWorkspaceSession backendName = true →
    (request.freshSession = false ∧
      (c.workspaceSessionStore.state e.workspaceKey).sessionId = some e.sessionId) ∨
    (¬ c.HasPast e.workspaceKey ∧ e.sessionId = e.workspaceKey) ∨
    (c.HasPast e.workspaceKey ∧ e.sessionId = cfg.newSessionId c.draws e.workspaceKey)

theorem launch_launches (cfg : Config) (runId : String) (request : ExecutionRequest)
    (backendName : String) (c : Coordinator) :
    ∃ e, Launches cfg request backendName c (c.launch cfg runId request backendName) e := by
  obtain ⟨sessionId, store, hresolve, hstates, hsession⟩ :=
    resolveSessionId_runtime cfg request none backendName c
  obtain ⟨snapshots, hsnapshots⟩ := modifySnapshot_eq runId
    (fun snapshot =>
      { snapshot with
        status := .running, backend := some backendName, sessionId := some sessionId,
        startedAt := some c.now })
    { c with
      draws := c.draws + 1
      workspaceSessionStore := store
      runSessionIds := c.runSessionIds.insert runId sessionId
      statuses := c.statuses.insert runId .running
      history := { c.history with started := c.history.started ++ [(runId, request)] } }
  refine ⟨{ request, runId, backendName, workspaceKey := workspaceKey cfg request, sessionId },
    ?_⟩
  unfold launch markRunning
  rw [hresolve]
  simp only
  rw [hsnapshots]
  exact ⟨rfl, rfl, rfl, rfl, rfl, hstates, rfl, rfl, hsession⟩

theorem SessionIds.launch (hcfg : cfg.FreshIds) (h : SessionIds cfg c)
    {request : ExecutionRequest} {backendName : String}
    (hselect : cfg.selectBackend request = .ok backendName)
    (l : Launches cfg request backendName c c' e) : SessionIds cfg c' := by
  have hexecuted : ∀ key id, Executed cfg c' key id ↔ Executed cfg c key id := by
    intro key id
    unfold Executed
    rw [l.calls]
  have hpast : ∀ key, c'.HasPast key ↔ c.HasPast key := by
    intro key
    unfold HasPast
    rw [l.states]
  have hsize : c'.executions.get? c.executions.size = some e := by
    rw [l.executions, Heap.get?_alloc, if_pos rfl]
  have hothers : ∀ other e', other ≠ c.executions.size → c'.executions.get? other = some e' →
      ∃ e, c.executions.get? other = some e ∧ SameTask e e' := by
    intro other e' hother he'
    rw [l.executions, Heap.get?_alloc, if_neg hother] at he'
    exact ⟨e', he', .refl e'⟩
  have hsessions : ∀ key id, (c'.workspaceSessionStore.state key).sessionId = some id →
      (c.workspaceSessionStore.state key).sessionId = some id := by
    intro key id hid
    rwa [l.states] at hid
  have hruntime : OnRuntime cfg e.request ↔ usesWorkspaceSession backendName = true := by
    rw [l.request_eq, usesWorkspaceSession_iff, OnRuntime, hselect, Except.ok.injEq]
  have hselected : cfg.selectBackend e.request = .ok e.backendName := by
    rw [l.request_eq, l.backendName_eq, hselect]
  have hkey : e.workspaceKey = workspaceKey cfg e.request := by rw [l.request_eq, l.key]
  by_cases huses : usesWorkspaceSession backendName = true
  · have hsession := l.session huses
    have hknown : Known cfg c'.draws e.workspaceKey e.sessionId := by
      rw [l.draws]
      rcases hsession with ⟨-, hcommitted⟩ | ⟨-, hbare⟩ | ⟨-, hmade⟩
      · exact (h.store_known _ _ hcommitted).mono (Nat.le_succ _)
      · exact .inl hbare
      · exact .inr ⟨c.draws, Nat.lt_succ_self _, hmade⟩
    refine h.extend c.executions.size e.workspaceKey e.sessionId
      ⟨by rw [l.draws]; exact Nat.le_succ _, hknown, hothers, fun e' he' => ?_,
        fun other e₂ hother he₂ hp hk => ?_, fun key id hid => .inl (hsessions key id hid),
        fun key hp => .inl ((hpast key).mp hp),
        fun key id hid => .inl ((hexecuted key id).mp hid), fun key id => (hexecuted key id).mpr⟩
    · obtain rfl := Option.some.inj (hsize.symm.trans he')
      refine ⟨hselected, hkey, fun _ => rfl, fun _ => .inl rfl, fun _ id hid => ?_,
        fun _ hcase => ?_, fun hp => ⟨rfl, ?_⟩⟩
      · rw [l.created] at hid
        cases hid
      · -- A session id other than the bare key comes from the past of the workspace.
        refine (hexecuted _ _).mpr (h.store_bare _ ?_)
        rcases hcase with hne | hin
        · rcases hsession with ⟨-, hcommitted⟩ | ⟨-, hbare⟩ | ⟨hp, -⟩
          · exact .inr (by rw [hcommitted]; exact Option.some_ne_none _)
          · exact absurd hbare hne
          · exact hp
        · rcases hin with hin | ⟨id, hin⟩ <;> rw [l.created] at hin <;> cases hin
      · have hmade : e.sessionId = cfg.newSessionId c.draws e.workspaceKey := by
          rcases hsession with ⟨hstale, -⟩ | ⟨-, hbare⟩ | ⟨-, hmade⟩
          · have hfresh := hp.fresh
            rw [l.request_eq, hstale] at hfresh
            cases hfresh
          · exact absurd hbare hp.made
          · exact hmade
        rw [hmade]
        exact h.not_inUse_next hcfg hothers hsessions fun key id => (hexecuted key id).mp
    · rcases hsession with ⟨-, hcommitted⟩ | ⟨-, hbare⟩ | ⟨-, hmade⟩
      · intro heq
        exact h.exclusive other e₂ he₂ hp (.inr (.inl (by rw [hk, heq]; exact hcommitted)))
      · rw [hbare, ← hk]
        exact hp.made
      · have hknown₂ := (h.execution_known other e₂ he₂ hp.runtime).1
        rw [hk] at hknown₂
        rw [hmade]
        exact hknown₂.ne_next hcfg
  · -- A run of another backend has no session to keep.
    refine h.extend c.executions.size "" ""
      ⟨by rw [l.draws]; exact Nat.le_succ _, .inl rfl, hothers, fun e' he' => ?_,
        fun other e₂ hother he₂ hp hk => hk ▸ hp.made,
        fun key id hid => .inl (hsessions key id hid), fun key hp => .inl ((hpast key).mp hp),
        fun key id hid => .inl ((hexecuted key id).mp hid), fun key id => (hexecuted key id).mpr⟩
    obtain rfl := Option.some.inj (hsize.symm.trans he')
    have hnot : ¬ OnRuntime cfg e.request := fun hon => huses (hruntime.mp hon)
    exact ⟨hselected, hkey, fun hon => absurd hon hnot, fun hon => absurd hon hnot,
      fun hon => absurd hon hnot, fun hon => absurd hon hnot, fun hp => absurd hp.runtime hnot⟩

/-- The other tasks after one of them took a turn. -/
theorem others_modify {phase : ExecutionPhase}
    (hexec : c'.executions = c.executions.modify task fun e => { e with phase }) (other : ℕ)
    (e' : Execution) (hother : other ≠ task) (he' : c'.executions.get? other = some e') :
    ∃ e, c.executions.get? other = some e ∧ SameTask e e' := by
  rw [hexec, Heap.get?_modify, if_neg hother] at he'
  exact ⟨e', he', .refl e'⟩

theorem get?_modify_self {phase : ExecutionPhase} (he : c.executions.get? task = some e)
    (hexec : c'.executions = c.executions.modify task fun e => { e with phase }) :
    c'.executions.get? task = some { e with phase } := by
  rw [hexec, Heap.get?_modify, if_pos rfl, he, Option.map_some]

/-- A pending task has its session id for itself. -/
theorem SessionIds.ne_of_pending (h : SessionIds cfg c) {other : ℕ} {e₂ : Execution}
    (hother : other ≠ task) (he₂ : c.executions.get? other = some e₂) (hp : Pending cfg e₂)
    (he : c.executions.get? task = some e) (hon : OnRuntime cfg e.request)
    (hk : e₂.workspaceKey = e.workspaceKey) (hs : e.sessionId = s ∨ e.phase = .retrying s) :
    e₂.sessionId ≠ s := by
  intro heq
  refine h.exclusive other e₂ he₂ hp (.inr (.inr ⟨task, e, hother.symm, he, hon, hk.symm, ?_⟩))
  rwa [heq]

/-- An execution task starts. -/
theorem SessionIds.start (h : SessionIds cfg c) (he : c.executions.get? task = some e)
    (hdraws : c'.draws = c.draws) (hstore : c'.workspaceSessionStore = c.workspaceSessionStore)
    (hexec : c'.executions = c.executions.modify task fun e => { e with phase := .executing })
    {call : BackendCall} (hcalls : c'.history.calls = c.history.calls ++ [call])
    (hrequest : call.request = e.request) (hsession : call.sessionId = e.sessionId) :
    SessionIds cfg c' := by
  obtain ⟨hselected, hkey⟩ := h.selected task e he
  have hkept : ∀ key id, Executed cfg c key id → Executed cfg c' key id := by
    rintro key id ⟨old, hold, hrest⟩
    exact ⟨old, hcalls ▸ List.mem_append_left _ hold, hrest⟩
  have hsplit : ∀ key id, Executed cfg c' key id → Executed cfg c key id ∨
      (OnRuntime cfg e.request ∧ key = e.workspaceKey ∧ id = e.sessionId) := by
    rintro key id ⟨old, hold, hon, rfl, rfl⟩
    rw [hcalls] at hold
    rcases List.mem_append.mp hold with hold | hold
    · exact .inl ⟨old, hold, hon, rfl, rfl⟩
    · obtain rfl := List.mem_singleton.mp hold
      exact .inr ⟨hrequest ▸ hon, by rw [hkey, hrequest], hsession⟩
  have hpast : ∀ key, c'.HasPast key → c.HasPast key := by
    intro key hp
    unfold HasPast at hp
    rwa [hstore] at hp
  have hsessions : ∀ key id, (c'.workspaceSessionStore.state key).sessionId = some id →
      (c.workspaceSessionStore.state key).sessionId = some id := by
    intro key id hid
    rwa [hstore] at hid
  have hdraws' : c.draws ≤ c'.draws := hdraws.symm.le
  have hself := get?_modify_self he hexec
  by_cases hon : OnRuntime cfg e.request
  · have hcalled : Executed cfg c' e.workspaceKey e.sessionId :=
      ⟨call, by rw [hcalls]; simp, hrequest ▸ hon, by rw [hrequest, hkey], hsession⟩
    have hbare : Executed cfg c' e.workspaceKey e.workspaceKey := by
      by_cases heq : e.sessionId = e.workspaceKey
      · rwa [heq] at hcalled
      · exact hkept _ _ (h.execution_bare task e he hon (.inl heq))
    refine h.extend task e.workspaceKey e.sessionId
      ⟨hdraws', (h.execution_known task e he hon).1.mono hdraws', others_modify hexec,
        fun e' he' => ?_, fun other e₂ hother he₂ hp hk =>
          h.ne_of_pending hother he₂ hp he hon hk (.inl rfl),
        fun key id hid => .inl (hsessions key id hid), fun key hp => .inl (hpast key hp),
        fun key id hid => ?_, hkept⟩
    · obtain rfl := Option.some.inj (hself.symm.trans he')
      exact ⟨hselected, hkey, fun _ => rfl, fun _ => .inl rfl, fun _ id hid => (by cases hid),
        fun _ _ => hbare, fun hp => (by cases hp.created)⟩
    · rcases hsplit key id hid with hold | ⟨-, rfl, rfl⟩
      · exact .inl hold
      · exact .inr ⟨rfl, rfl, hbare⟩
  · refine h.extend task "" ""
      ⟨hdraws', .inl rfl, others_modify hexec, fun e' he' => ?_,
        fun other e₂ hother he₂ hp hk => hk ▸ hp.made,
        fun key id hid => .inl (hsessions key id hid), fun key hp => .inl (hpast key hp),
        fun key id hid => ?_, hkept⟩
    · obtain rfl := Option.some.inj (hself.symm.trans he')
      exact ⟨hselected, hkey, fun hon' => absurd hon' hon, fun hon' => absurd hon' hon,
        fun hon' => absurd hon' hon, fun hon' => absurd hon' hon,
        fun hp => absurd hp.runtime hon⟩
    · rcases hsplit key id hid with hold | ⟨hon', -⟩
      · exact .inl hold
      · exact absurd hon' hon

/-- An execution task ends without a commit. -/
theorem SessionIds.endTask (h : SessionIds cfg c) (task : ℕ) {outcome : Outcome}
    (hdraws : c'.draws = c.draws) (hstore : c'.workspaceSessionStore = c.workspaceSessionStore)
    (hexec : c'.executions = c.executions.modify task fun e => { e with phase := .done outcome })
    (hcalls : c'.history.calls = c.history.calls) : SessionIds cfg c' := by
  refine h.frame hdraws.symm.le (fun key => by rw [hstore]) hcalls fun other e' he' => ?_
  rw [hexec] at he'
  rcases Heap.get?_modify_cases he' with ⟨e, he, -, rfl⟩ | ⟨-, he'⟩
  · exact ⟨e, he, rfl, rfl, rfl, rfl, .inr ⟨outcome, rfl⟩⟩
  · exact ⟨e', he', .refl e'⟩

/-- An execution task ends, and may commit the session id it executed with. -/
theorem SessionIds.finish (h : SessionIds cfg c) (he : c.executions.get? task = some e)
    (hin : e.InFlight) {result : ExecutionResult}
    (hsession : result.sessionId = e.sessionId ∨ e.phase = .retrying result.sessionId) :
    SessionIds cfg (c.finishExecution task e result) := by
  obtain ⟨hselected, hkey⟩ := h.selected task e he
  unfold finishExecution
  split
  · rename_i hcommits
    have hon := (h.runtime_iff he).mpr hcommits.1
    have hbare := h.execution_bare task e he hon (.inr hin)
    have hstate := WorkspaceSessionStore.state_commitSuccess c.workspaceSessionStore
      e.workspaceKey e.backendName result.sessionId
    refine h.extend task e.workspaceKey result.sessionId
      ⟨Nat.le_refl _, ?_, others_modify rfl, fun e' he' => ?_, fun other e₂ hother he₂ hp hk => ?_,
        fun key id hid => ?_, fun key hp => ?_, fun key id hid => .inl hid, fun _ _ hid => hid⟩
    · rcases hsession with hs | hs
      · exact hs ▸ (h.execution_known task e he hon).1
      · exact (h.execution_known task e he hon).2 _ hs
    · obtain rfl := Option.some.inj ((get?_modify_self he rfl).symm.trans he')
      exact ⟨hselected, hkey, fun _ => rfl, fun _ => .inr ⟨e, he, .refl e⟩,
        fun _ id hid => (by cases hid), fun _ _ => hbare, fun hp => (by cases hp.created)⟩
    · exact h.ne_of_pending hother he₂ hp he hon hk (hsession.imp_left Eq.symm)
    · simp only [setExecutionPhase, hstate] at hid
      split at hid
      · exact .inr ⟨‹_›, (Option.some.inj hid).symm⟩
      · exact .inl hid
    · unfold HasPast at hp ⊢
      simp only [setExecutionPhase, hstate] at hp
      split at hp
      · exact .inr ⟨‹_›, hbare⟩
      · exact .inl hp
  · exact h.endTask task rfl rfl rfl rfl

/-- A retry executes with an id of the factory: the workspace has just been invalidated. -/
theorem SessionIds.retry (hcfg : cfg.FreshIds) (h : SessionIds cfg c)
    (he : c.executions.get? task = some e) (hin : e.phase = .executing)
    (hon : OnRuntime cfg e.request) (reason : String) :
    SessionIds cfg (c.retryExecution cfg task e reason) := by
  obtain ⟨hselected, hkey⟩ := h.selected task e he
  have hbare := h.execution_bare task e he hon (.inr (.inl hin))
  obtain ⟨snapshots, hsnapshots⟩ := markRecoveryAttempt_eq e.runId reason c
  obtain ⟨sessionId, store, hresolve, hstates, hsession⟩ := resolveSessionId_runtime cfg e.request
    (some true) e.backendName
    { c with
      runSnapshots := snapshots
      workspaceSessionStore := c.workspaceSessionStore.invalidate e.workspaceKey }
  have hstate (key : String) : store.state key = if key = e.workspaceKey then
      { c.workspaceSessionStore.state e.workspaceKey with
        sessionId := none, backend := none, everCommitted := true }
      else c.workspaceSessionStore.state key :=
    (hstates key).trans (WorkspaceSessionStore.state_invalidate ..)
  -- A workspace that was invalidated has a past, and no session that could be resumed.
  have hmade : sessionId = cfg.newSessionId c.draws e.workspaceKey := by
    rcases hsession ((h.runtime_iff he).mp hon) with ⟨hstale, -⟩ | ⟨hnot, -⟩ | ⟨-, hmade⟩
    · cases hstale
    · refine absurd (.inl ?_) hnot
      rw [← hkey, WorkspaceSessionStore.state_invalidate, if_pos rfl]
    · exact hkey ▸ hmade
  unfold retryExecution
  simp only [hsnapshots, hresolve]
  have hkept : ∀ key id, Executed cfg c key id → Executed cfg ((recordCall e sessionId true
      { c with
        draws := c.draws + 1
        workspaceSessionStore := store
        runSnapshots := snapshots
        runSessionIds := c.runSessionIds.insert e.runId sessionId }).setExecutionPhase
      task (.retrying sessionId)) key id := by
    rintro key id ⟨old, hold, hrest⟩
    exact ⟨old, List.mem_append_left _ hold, hrest⟩
  refine h.extend task e.workspaceKey sessionId
    ⟨Nat.le_succ _, .inr ⟨c.draws, Nat.lt_succ_self _, hmade⟩, others_modify rfl, fun e' he' => ?_,
      fun other e₂ hother he₂ hp hk => ?_, fun key id hid => ?_, fun key hp => ?_,
      fun key id hid => ?_, hkept⟩
  · obtain rfl := Option.some.inj ((get?_modify_self he rfl).symm.trans he')
    refine ⟨hselected, hkey, fun _ => rfl, fun _ => .inr ⟨e, he, .refl e⟩, fun _ id hid => ?_,
      fun _ _ => hkept _ _ hbare, fun hp => by cases hp.created⟩
    exact (ExecutionPhase.retrying.inj hid).symm
  · rw [hmade, ← hk]
    exact (h.execution_known other e₂ he₂ hp.runtime).1.ne_next hcfg
  · simp only [setExecutionPhase, recordCall, hstate] at hid
    split at hid
    · cases hid
    · exact .inl hid
  · unfold HasPast at hp ⊢
    simp only [setExecutionPhase, recordCall, hstate] at hp
    split at hp
    · exact .inr ⟨‹_›, hkept _ _ hbare⟩
    · exact .inl hp
  · obtain ⟨call, hcall, hon', rfl, rfl⟩ := hid
    rcases List.mem_append.mp hcall with hcall | hcall
    · exact .inl ⟨call, hcall, hon', rfl, rfl⟩
    · obtain rfl := List.mem_singleton.mp hcall
      exact .inr ⟨hkey.symm, rfl, hkept _ _ hbare⟩

/-! ## Every action -/

/-- What a step calls: nothing, the first call of a task that starts, or a retry. -/
inductive Calls (c c' : Coordinator) : Action → Prop
  | none {a : Action} (calls : c'.history.calls = c.history.calls) : Calls c c' a
  | first {task : ℕ} {e : Execution} (he : c.executions.get? task = some e)
      (created : e.phase = .created) (kept : e.cancelRequested = false)
      (calls : c'.history.calls = c.history.calls ++
        [{ runId := e.runId, request := e.request, sessionId := e.sessionId, retry := false }]) :
      Calls c c' (.execution task)
  | retry {a : Action} {call : BackendCall} (stale : call.request.freshSession = false)
      (calls : c'.history.calls = c.history.calls ++ [call]) : Calls c c' a

theorem SessionIds.stride (hcfg : cfg.FreshIds) (h : SessionIds cfg c)
    (s : Stride cfg worker c c') : SessionIds cfg c' ∧ c'.history.calls = c.history.calls := by
  have hframe {d : Coordinator} (hdraws : c.draws ≤ d.draws)
      (hstates : ∀ key, d.workspaceSessionStore.state key = c.workspaceSessionStore.state key)
      (hcalls : d.history.calls = c.history.calls) (hexec : d.executions = c.executions) :
      SessionIds cfg d ∧ d.history.calls = c.history.calls :=
    ⟨h.frame hdraws hstates hcalls fun task e' he' => ⟨e', hexec ▸ he', .refl e'⟩, hcalls⟩
  -- A run that fails before its start draws an id that nothing uses.
  have hfail (d : Coordinator) (hdraws : d.draws = c.draws)
      (hstore : d.workspaceSessionStore = c.workspaceSessionStore)
      (hcalls : d.history.calls = c.history.calls) (hexec : d.executions = c.executions)
      (runId : String) (request : ExecutionRequest) (backend slotId error : String) :
      SessionIds cfg (d.failBeforeStart cfg runId request backend slotId error) ∧
        (d.failBeforeStart cfg runId request backend slotId error).history.calls =
          c.history.calls := by
    obtain ⟨sessionId, store, hresolve, hstates, -⟩ :=
      resolveSessionId_runtime cfg request none backend d
    unfold failBeforeStart peekSessionId
    rw [hresolve]
    refine hframe ?_ (fun key => ?_) ?_ ?_
    · simp [hdraws]
    · simp [hstates, hstore]
    · simp [hcalls]
    · simp [hexec]
  cases s with
  | wake | skip | finish | collectCancelled | crash =>
    exact hframe (Nat.le_refl _) (fun _ => rfl) rfl rfl
  | @reject groupFolder runId request rest backend slotId error =>
    exact hfail (c.popped groupFolder rest) rfl rfl rfl rfl runId request backend slotId error
  | @collectRaised groupFolder runId request task execution message =>
    exact hfail (c.resumed worker runId) rfl rfl rfl rfl runId request _ request.slotId message
  | @collectResult groupFolder runId request task execution result =>
    obtain ⟨k, hk⟩ := storeTerminalResult_eq cfg result (c.resumed worker runId)
    rw [hk]
    exact hframe (Nat.le_refl _) (fun _ => rfl) rfl rfl
  | @launch groupFolder runId request rest backendName head wanted selected known =>
    obtain ⟨e, l⟩ := launch_launches cfg runId request backendName (c.popped groupFolder rest)
    have hpopped := (hframe (d := c.popped groupFolder rest) (Nat.le_refl _) (fun _ => rfl) rfl
      rfl).1
    have hlaunched := hpopped.launch hcfg selected l
    exact ⟨hlaunched.frame (Nat.le_refl _) (fun _ => rfl) rfl fun task e' he' => ⟨e', he', .refl e'⟩,
      l.calls⟩

theorem SessionIds.cancel (h : SessionIds cfg c) (runId : String) :
    SessionIds cfg (c.cancel cfg runId).2 ∧
      (c.cancel cfg runId).2.history.calls = c.history.calls := by
  -- At most the flag of one task is set.
  have htasks : ∀ task e', (c.cancel cfg runId).2.executions.get? task = some e' →
      ∃ e, c.executions.get? task = some e ∧ SameTask e e' := by
    intro task e' he'
    rcases executions_cancel cfg runId c with heq | heq
    · exact ⟨e', heq ▸ he', .refl e'⟩
    · rw [heq, cancelExecution] at he'
      split at he'
      · exact ⟨e', he', .refl e'⟩
      · rcases Heap.get?_modify_cases he' with ⟨e, he, -, rfl⟩ | ⟨-, he'⟩
        · refine ⟨e, he, e.request_cancel, e.backendName_cancel, ?_, ?_, .inl e.phase_cancel⟩
          · unfold Execution.cancel
            split <;> rfl
          · unfold Execution.cancel
            split <;> rfl
        · exact ⟨e', he', .refl e'⟩
  -- The result is filed under a previewed id, which is not committed.
  have hrest : c.draws ≤ (c.cancel cfg runId).2.draws ∧
      (∀ key, (c.cancel cfg runId).2.workspaceSessionStore.state key =
        c.workspaceSessionStore.state key) ∧
      (c.cancel cfg runId).2.history.calls = c.history.calls := by
    unfold Coordinator.cancel
    split
    · split
      · exact ⟨Nat.le_refl _, fun _ => rfl, rfl⟩
      · rename_i request _
        obtain ⟨sessionId, store, hresolve, hstates, -⟩ :=
          resolveSessionId_runtime cfg request none (safeSelectBackendName cfg request) c
        simp [cancelQueued, peekSessionId, hresolve, hstates, recordCancel]
    · split
      · exact ⟨Nat.le_refl _, fun _ => rfl, rfl⟩
      · rename_i request _
        obtain ⟨sessionId, store, hresolve, hstates, -⟩ :=
          resolveSessionId_runtime cfg request none (safeSelectBackendName cfg request) c
        unfold cancelRunning peekSessionId
        simp only [hresolve]
        split
        · exact ⟨Nat.le_succ _, hstates, rfl⟩
        · simp [hstates, recordCancel]
    · exact ⟨Nat.le_refl _, fun _ => rfl, rfl⟩
  exact ⟨h.frame hrest.1 hrest.2.1 hrest.2.2 htasks, hrest.2.2⟩

theorem SessionIds.backendEnds (hcfg : cfg.FreshIds) (h : SessionIds cfg c) {ending : Ending}
    (ha : c.OwnAnswers (.backendEnds task ending))
    (hstep : c.backendEndsStep cfg task ending = some c') :
    SessionIds cfg c' ∧ Calls c c' (.backendEnds task ending) := by
  have hown : ∀ r, ending ≠ .executionResult r := by
    rintro r rfl
    exact ha
  obtain ⟨e, he, hends⟩ := callEnds_of_step hstep
  have hnoted (succeeded : Bool) : ∃ snapshots, c.noted e succeeded =
      { c with runSnapshots := snapshots } ∧ SessionIds cfg { c with runSnapshots := snapshots } := by
    obtain ⟨snapshots, hsnapshots⟩ := noted_eq e succeeded c
    exact ⟨snapshots, hsnapshots,
      h.frame (Nat.le_refl _) (fun _ => rfl) rfl fun t e' he' => ⟨e', he', .refl e'⟩⟩
  cases hends with
  | @finish sessionId result called run =>
    obtain ⟨snapshots, hsnapshots, hsame⟩ := hnoted true
    obtain rfl := runBackendWithTimeout_sessionId hown run
    rw [hsnapshots]
    refine ⟨hsame.finish he called.inFlight (called.imp_left And.right), .none ?_⟩
    unfold finishExecution
    split <;> rfl
  | @retry _ message executing _ retried =>
    -- A retry is made only for a run that did not ask for a fresh session.
    simp only [shouldRetrySessionResume, Bool.and_eq_true, Bool.not_eq_true'] at retried
    obtain ⟨sessionId, store, snapshots, heq⟩ := retryExecution_eq cfg task e message c
    have hcall : (c.retryExecution cfg task e message).history.calls = c.history.calls ++
        [{ runId := e.runId, request := e.request, sessionId, retry := true }] := by
      rw [heq]
      rfl
    exact ⟨h.retry hcfg he executing ((h.runtime_iff he).mpr retried.1.2) message,
      .retry retried.1.1 hcall⟩
  | fail =>
    obtain ⟨snapshots, hsnapshots, hsame⟩ := hnoted false
    rw [hsnapshots]
    exact ⟨hsame.endTask task rfl rfl rfl rfl, .none rfl⟩
  | cancelled | raised => exact ⟨h.endTask task rfl rfl rfl rfl, .none rfl⟩

/-- **Every action keeps track of the session ids.** -/
theorem SessionIds.step (hcfg : cfg.FreshIds) (h : SessionIds cfg c) {a : Action}
    (ha : c.OwnAnswers a) (hstep : step cfg c a = some c') : SessionIds cfg c' ∧ Calls c c' a := by
  have hframe {d : Coordinator} (hdraws : d.draws = c.draws)
      (hstore : d.workspaceSessionStore = c.workspaceSessionStore)
      (hcalls : d.history.calls = c.history.calls) (hexec : d.executions = c.executions) :
      SessionIds cfg d ∧ Calls c d a :=
    ⟨h.frame hdraws.symm.le (fun key => by rw [hstore]) hcalls
      fun task e' he' => ⟨e', hexec ▸ he', .refl e'⟩, .none hcalls⟩
  cases a with
  | submit request uuid =>
    obtain rfl := Option.some.inj hstep
    rcases ensureWorker_cases request.groupFolder _ with ⟨heq, -⟩ | ⟨heq, -⟩
    · rw [submitExecution, heq]
      exact hframe rfl rfl rfl rfl
    · rw [submitExecution, heq]
      exact hframe rfl rfl rfl rfl
  | cancel runId =>
    obtain rfl := Option.some.inj hstep
    exact (h.cancel runId).imp_right .none
  | worker worker =>
    -- A worker takes as many strides as it can, and none of them calls the backend.
    have hturn : SessionIds cfg c' ∧ c'.history.calls = c.history.calls := by
      have hstrides := workerStep_strides hstep
      clear hstep
      induction hstrides with
      | refl => exact ⟨h, rfl⟩
      | tail _ s ih => exact (ih.1.stride hcfg s).imp_right fun hcalls => hcalls.trans ih.2
    exact hturn.imp_right .none
  | execution task =>
    obtain ⟨e, he, hstarts⟩ := starts_of_step hstep
    cases hstarts with
    | drop => exact ⟨h.endTask task rfl rfl rfl rfl, .none rfl⟩
    | call created kept =>
      exact ⟨h.start he rfl rfl rfl rfl rfl rfl, .first he created kept rfl⟩
  | backendEnds task ending => exact h.backendEnds hcfg ha hstep
  | tick =>
    obtain rfl := Option.some.inj hstep
    exact hframe rfl rfl rfl rfl
  | wait _ | waiter _ | cancelWaiter _ =>
    rcases step_waiter rfl hstep with ⟨waiters, rfl, -⟩ | ⟨waiter, future, -, -, rfl⟩
    · exact hframe rfl rfl rfl rfl
    · exact hframe rfl rfl rfl rfl

/-- A call that is added: it is to differ from all the earlier ones. -/
theorem freshCalls_append {call : BackendCall} (h : FreshCalls cfg c)
    (hcalls : c'.history.calls = c.history.calls ++ [call]) :
    FreshCalls cfg c' ↔ ∀ earlier ∈ c.history.calls, Refreshes cfg earlier call := by
  unfold FreshCalls at h ⊢
  rw [hcalls, List.pairwise_append]
  constructor
  · rintro ⟨-, -, hall⟩ earlier hearlier
    exact hall earlier hearlier call (List.mem_singleton_self _)
  · intro hall
    refine ⟨h, List.pairwise_singleton _ _, fun earlier hearlier later hlater => ?_⟩
    exact List.mem_singleton.mp hlater ▸ hall earlier hearlier

/-- A step keeps fresh sessions fresh exactly where it starts no run with the bare key of a
workspace in which another one has called the backend. -/
theorem step_freshCalls (hcfg : cfg.FreshIds) (h : SessionIds cfg c) (hfresh : FreshCalls cfg c)
    {a : Action} (ha : c.OwnAnswers a) (hstep : step cfg c a = some c') :
    FreshCalls cfg c' ↔ c.FirstOfKey cfg a := by
  have hquiet (hcalls : c'.history.calls = c.history.calls) : FreshCalls cfg c' := by
    unfold FreshCalls
    rwa [hcalls]
  have hother (hexecution : ∀ task, a ≠ .execution task) : FreshCalls cfg c' := by
    cases (h.step hcfg ha hstep).2 with
    | none hcalls => exact hquiet hcalls
    | first he => exact absurd rfl (hexecution _)
    | retry stale hcalls =>
      -- Fresh runs are not retried.
      refine (freshCalls_append hfresh hcalls).mpr fun earlier _ hlater => ?_
      rw [stale] at hlater
      cases hlater
  cases a with
  | execution task =>
    obtain ⟨e, he, hstarts⟩ := starts_of_step hstep
    have hfirst : c.FirstOfKey cfg (.execution task) ↔ (StartsBare cfg e →
        ∀ call ∈ c.history.calls, OnRuntime cfg call.request →
          workspaceKey cfg call.request ≠ e.workspaceKey) := by
      simp [FirstOfKey, he]
    rw [hfirst]
    cases hstarts with
    | drop created cancelled =>
      -- A task that is dropped calls nothing, and is not about to.
      refine ⟨fun _ hbare => ?_, fun _ => hfresh⟩
      rw [hbare.2.1] at cancelled
      cases cancelled
    | call created kept =>
      have hkey := (h.selected task e he).2
      refine Iff.trans (freshCalls_append hfresh rfl) ⟨?_, ?_⟩
      · -- Where an earlier run called, one has called with the bare key.
        rintro hall ⟨-, -, hasked, hon, hbare⟩ call hcall hcalled hsame
        obtain ⟨first, hfirst, hon₁, hkey₁, hid⟩ :=
          h.call_bare _ _ ⟨call, hcall, hcalled, hsame, rfl⟩
        exact hall first hfirst hasked hon hon₁ (hkey₁.trans hkey) (hid.trans hbare.symm)
      · intro hall earlier hearlier hasked hon hearlier_on hsame heq
        rw [← hkey] at hsame
        by_cases hbare : e.sessionId = e.workspaceKey
        · exact hall ⟨created, kept, hasked, hon, hbare⟩ earlier hearlier hearlier_on hsame
        · -- An id that is not the bare key is the run's own.
          exact h.exclusive task e he ⟨hon, hasked, created, hbare⟩
            (.inl ⟨earlier, hearlier, hearlier_on, hsame, heq⟩)
  | submit | cancel | worker | backendEnds | wait | waiter | cancelWaiter | tick =>
    exact ⟨fun _ => trivial, fun _ => hother fun _ heq => by cases heq⟩

/-- **Fresh sessions.** In every state of a run each fresh call has had a session id of its own
if and only if every fresh run that was given the bare key of its workspace was the first of it to
start. -/
theorem freshCalls_iff (hcfg : cfg.FreshIds) {l : List Action}
    (h : Run (step cfg) OwnAnswers {} l c) :
    (∀ l₁ l₂ u, l = l₁ ++ l₂ → Run (step cfg) OwnAnswers {} l₁ u → FreshCalls cfg u) ↔
      Run (step cfg) (fun c a => c.OwnAnswers a ∧ c.FirstOfKey cfg a) {} l c :=
  h.always_iff sessionIds_empty List.Pairwise.nil
    (fun hd ha hstep => (hd.step hcfg ha hstep).1)
    (fun hd hfresh ha hstep => step_freshCalls hcfg hd hfresh ha hstep)

/-! ## Histories -/

theorem freshIds_numbered : Config.numbered.FreshIds where
  injective key n m h := by
    have hsuffix : (10000000 + n).repr = (10000000 + m).repr :=
      String.append_right_inj _ |>.mp h
    have hdigits := congrArg (fun l => Nat.ofDigitChars 10 l 0) (congrArg String.toList hsuffix)
    simp only [Nat.toList_repr, Nat.ofDigitChars_toDigits (by decide : 1 < 10) (Nat.le_refl 10)]
      at hdigits
    omega
  ne_key key n h := by
    have hlength := congrArg String.length h
    simp only [Config.numbered, String.length_append] at hlength
    have : ":".length = 1 := rfl
    omega

/-- A run that ends as the backend makes it, and a fresh one of the same workspace. -/
def thenAnew (ending : Ending) : List Action :=
  [.submit (.sample "first") "", .worker 0, .execution 0, .backendEnds 0 ending, .worker 0,
    .submit (.anew "second") "", .worker 1, .execution 1]

/-- After a run that completed, a fresh one gets an id of the factory. -/
theorem freshCalls_completed :
    ∃ c, Run (step .numbered) OwnAnswers {} (thenAnew (.dict {})) c ∧ FreshCalls .numbered c ∧
      c.history.calls.map BackendCall.sessionId =
        ["home#slot:main", "home#slot:main:10000001"] := by
  have h : Run (step .numbered) (fun c a => c.OwnAnswers a ∧ c.FirstOfKey .numbered a) {}
    (thenAnew (.dict {})) _ := .of_execute (by decide +kernel)
  have hrun := h.mono fun _ _ ha => ha.1
  exact ⟨_, hrun, (freshCalls_iff freshIds_numbered hrun).mpr h _ [] _ rfl hrun,
    by decide +kernel⟩

/-- After a run that failed, a fresh one executes with the session id of that run. -/
theorem exists_stale_call :
    ∃ c, Config.numbered.FreshIds ∧
      Run (step .numbered) OwnAnswers {} (thenAnew (.runtimeError false "overloaded")) c ∧
      ¬ FreshCalls .numbered c ∧
      c.history.calls.map BackendCall.sessionId = ["home#slot:main", "home#slot:main"] := by
  have h : Run (step .numbered) OwnAnswers {} (thenAnew (.runtimeError false "overloaded")) _ :=
    .of_execute (by decide +kernel)
  exact ⟨_, freshIds_numbered, h, by unfold FreshCalls; decide +kernel, by decide +kernel⟩

end Coordinator

end Portex
