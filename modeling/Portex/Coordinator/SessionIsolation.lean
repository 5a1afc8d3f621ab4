import Portex.Coordinator.Moves
import Portex.Foundation.Text

/-!
# Sessions of different workspaces

A session id is the workspace key, or the key followed by a colon and the head of a uuid. Group
folders are arbitrary, and may hold the separators themselves; slot ids may not, and so the last
`#` of a session id tells the workspace. What the store hands out for a key was built from it:
previews, commits and invalidations of one key leave the others alone.

## Main definitions

* `isSlotId`: the pattern of slot ids
* `Config.Default`: the resolver and the id factory a coordinator has by default
* `SessionOf`: the session ids of a workspace
* `Isolated`: every session id in the coordinator is one of its workspace

## Main results

* `SessionOf.workspace_unique`: a session id tells its workspace
* `session_isolation`: runs of different workspaces execute with different session ids
-/

namespace Portex

open Foundation

/-! ## Session ids tell their workspace -/

def isLowerOrDigit (ch : Char) : Bool := ch.isLower || ch.isDigit

/-- `^[a-z0-9][a-z0-9-]*$`. -/
def isSlotId (slotId : String) : Bool :=
  match slotId.toList with
  | [] => false
  | ch :: rest => isLowerOrDigit ch && rest.all fun ch => isLowerOrDigit ch || ch == '-'

/-- The head of a `uuid4().hex`: eight hex digits. -/
def isHex8 (s : String) : Bool :=
  s.toList.length == 8 && s.toList.all fun ch => ch.isDigit || ('a' ≤ ch && ch ≤ 'f')

/-- The resolver and the id factory a coordinator has by default. -/
structure Config.Default (cfg : Config) : Prop where
  resolver : cfg.resolveWorkspaceKey = buildSlotWorkspaceKey
  factory : cfg.newSessionId = fun n workspaceKey => workspaceKey ++ ":" ++ cfg.uuidHex n
  hex : ∀ n, isHex8 (cfg.uuidHex n) = true

/-- The session ids of a workspace: its key, or the key with the head of a uuid. -/
def SessionOf (workspaceKey sessionId : String) : Prop :=
  sessionId = workspaceKey ∨ ∃ hex, isHex8 hex = true ∧ sessionId = workspaceKey ++ ":" ++ hex

theorem not_mem_of_isSlotId {slotId : String} (h : isSlotId slotId = true) {ch : Char}
    (hch : (isLowerOrDigit ch || ch == '-') = false) : ch ∉ slotId.toList := by
  intro hmem
  unfold isSlotId at h
  split at h
  · cases h
  · rename_i first rest heq
    rw [heq] at hmem
    rw [Bool.and_eq_true, List.all_eq_true] at h
    rcases List.mem_cons.mp hmem with rfl | hmem
    · simp [h.1] at hch
    · rw [h.2 ch hmem] at hch
      cases hch

theorem not_mem_of_isHex8 {hex : String} (h : isHex8 hex = true) {ch : Char}
    (hch : (ch.isDigit || ('a' ≤ ch && ch ≤ 'f')) = false) : ch ∉ hex.toList := by
  intro hmem
  unfold isHex8 at h
  rw [Bool.and_eq_true, List.all_eq_true] at h
  rw [h.2 ch hmem] at hch
  cases hch

theorem hash_not_mem {slotId : String} (h : isSlotId slotId = true) :
    '#' ∉ ("slot:" ++ slotId).toList := by
  rw [String.toList_append, List.mem_append, not_or]
  exact ⟨by decide, not_mem_of_isSlotId h rfl⟩

theorem buildSlotWorkspaceKey_eq (g slotId : String) :
    buildSlotWorkspaceKey g slotId = g ++ "#" ++ ("slot:" ++ slotId) := by
  apply String.toList_inj.mp
  simp [buildSlotWorkspaceKey]

/-- The workspace of a key: the slot id follows the last `#`. -/
theorem buildSlotWorkspaceKey_inj {g g' slot slot' : String} (hslot : isSlotId slot = true)
    (hslot' : isSlotId slot' = true)
    (h : buildSlotWorkspaceKey g slot = buildSlotWorkspaceKey g' slot') :
    g = g' ∧ slot = slot' := by
  rw [buildSlotWorkspaceKey_eq, buildSlotWorkspaceKey_eq] at h
  obtain ⟨hg, hs⟩ := append_separator_inj rfl (hash_not_mem hslot) (hash_not_mem hslot') h
  exact ⟨hg, String.append_right_inj _ |>.mp hs⟩

theorem SessionOf.of_fresh {workspaceKey hex : String} (h : isHex8 hex = true) :
    SessionOf workspaceKey (workspaceKey ++ ":" ++ hex) :=
  .inr ⟨hex, h, rfl⟩

/-- A bare key is not a key with the head of a uuid: after its last `:` comes the slot id, and
what precedes that ends in `#slot`. -/
theorem key_ne_fresh {g g' slot slot' hex : String} (hslot : isSlotId slot = true)
    (hslot' : isSlotId slot' = true) (hhex : isHex8 hex = true) :
    buildSlotWorkspaceKey g slot ≠ buildSlotWorkspaceKey g' slot' ++ ":" ++ hex := by
  intro h
  have hkey : buildSlotWorkspaceKey g slot =
      g ++ "#" ++ "slot" ++ ":" ++ slot := by
    apply String.toList_inj.mp
    simp [buildSlotWorkspaceKey]
  rw [hkey] at h
  have hkey' : g ++ "#" ++ "slot" = buildSlotWorkspaceKey g' slot' :=
    (append_separator_inj rfl (not_mem_of_isSlotId hslot rfl) (not_mem_of_isHex8 hhex rfl) h).1
  rw [buildSlotWorkspaceKey_eq] at hkey'
  have hslot := (append_separator_inj rfl (by decide) (hash_not_mem hslot') hkey').2
  exact absurd (congrArg String.toList hslot) (by simp [String.toList_append])

/-- **A session id tells its workspace**, whatever the group folders hold. -/
theorem SessionOf.workspace_unique {g g' slot slot' sessionId : String}
    (hslot : isSlotId slot = true) (hslot' : isSlotId slot' = true)
    (h : SessionOf (buildSlotWorkspaceKey g slot) sessionId)
    (h' : SessionOf (buildSlotWorkspaceKey g' slot') sessionId) : g = g' ∧ slot = slot' := by
  rcases h with rfl | ⟨hex, hhex, rfl⟩
  · rcases h' with h' | ⟨hex', hhex', h'⟩
    · exact buildSlotWorkspaceKey_inj hslot hslot' h'
    · exact absurd h' (key_ne_fresh hslot hslot' hhex')
  · rcases h' with h' | ⟨hex', hhex', h'⟩
    · exact absurd h'.symm (key_ne_fresh hslot' hslot hhex)
    · exact buildSlotWorkspaceKey_inj hslot hslot'
        (append_separator_inj rfl (not_mem_of_isHex8 hhex rfl) (not_mem_of_isHex8 hhex' rfl) h').1

namespace Coordinator

/-! ## Every session id is one of its workspace -/

/-- The committed sessions of the store are ones of their workspaces. -/
def StoreIsolated (store : WorkspaceSessionStore) : Prop :=
  ∀ workspaceKey sessionId, (store.state workspaceKey).sessionId = some sessionId →
    SessionOf workspaceKey sessionId

def keyOf (request : ExecutionRequest) : String :=
  buildSlotWorkspaceKey request.groupFolder request.slotId

structure ExecutionIsolated (execution : Execution) : Prop where
  slot : isSlotId execution.request.slotId = true
  key : execution.workspaceKey = keyOf execution.request
  session : SessionOf (keyOf execution.request) execution.sessionId
  retry : ∀ sessionId, execution.phase = .retrying sessionId →
    SessionOf (keyOf execution.request) sessionId

structure CallIsolated (call : BackendCall) : Prop where
  slot : isSlotId call.request.slotId = true
  session : SessionOf (keyOf call.request) call.sessionId

structure Isolated (c : Coordinator) : Prop where
  store : StoreIsolated c.workspaceSessionStore
  queues : ∀ g, ∀ entry ∈ c.queue g, isSlotId entry.2.slotId = true
  requests : ∀ r request, c.runRequests.get? r = some request → isSlotId request.slotId = true
  executions : ∀ task execution, c.executions.get? task = some execution →
    ExecutionIsolated execution
  calls : ∀ call ∈ c.history.calls, CallIsolated call

/-- Slot ids have their pattern, and no backend answers with a result of its own making, which
could carry any session id. -/
def Slotted (_ : Coordinator) : Action → Prop
  | .submit request _ => isSlotId request.slotId = true
  | .backendEnds _ (.executionResult _) => False
  | _ => True

instance (c : Coordinator) : DecidablePred c.Slotted := fun a => by
  unfold Slotted
  split <;> infer_instance

variable {cfg : Config} {c c' : Coordinator}

/-- Nothing but sessions, deques, requests, tasks and calls matters. -/
theorem Isolated.congr {d : Coordinator} (h : Isolated c)
    (hstore : d.workspaceSessionStore = c.workspaceSessionStore)
    (hqueues : d.groupQueues = c.groupQueues) (hrequests : d.runRequests = c.runRequests)
    (hexecutions : d.executions = c.executions) (hcalls : d.history.calls = c.history.calls) :
    Isolated d where
  store := hstore ▸ h.store
  queues g entry hentry := h.queues g entry (by rwa [queue, hqueues] at hentry)
  requests := hrequests ▸ h.requests
  executions := hexecutions ▸ h.executions
  calls := hcalls ▸ h.calls

theorem isolated_empty : Isolated {} where
  store _ _ h := by cases h
  queues _ _ h := by cases h
  requests _ _ h := by cases h
  executions _ _ h := by simp at h
  calls _ h := by cases h

theorem workspaceKey_eq (hcfg : cfg.Default) (request : ExecutionRequest) :
    workspaceKey cfg request = keyOf request := by
  rw [workspaceKey, hcfg.resolver, keyOf]

theorem StoreIsolated.preview {store : WorkspaceSessionStore} (h : StoreIsolated store)
    (workspaceKey backend fresh : String) (freshSession : Bool) :
    StoreIsolated (store.previewSessionId workspaceKey backend freshSession fresh).2 := by
  intro key sessionId hcommitted
  rw [WorkspaceSessionStore.state_previewSessionId] at hcommitted
  exact h key sessionId hcommitted

theorem StoreIsolated.commit {store : WorkspaceSessionStore} (h : StoreIsolated store)
    {workspaceKey sessionId : String} (backend : String)
    (hsession : SessionOf workspaceKey sessionId) :
    StoreIsolated (store.commitSuccess workspaceKey backend sessionId) := by
  intro key committed hcommitted
  rw [WorkspaceSessionStore.state_commitSuccess] at hcommitted
  split at hcommitted
  · rename_i hkey
    obtain rfl := Option.some.inj hcommitted
    rwa [hkey]
  · exact h key committed hcommitted

theorem StoreIsolated.invalidate {store : WorkspaceSessionStore} (h : StoreIsolated store)
    (workspaceKey : String) : StoreIsolated (store.invalidate workspaceKey) := by
  intro key committed hcommitted
  rw [WorkspaceSessionStore.state_invalidate] at hcommitted
  split at hcommitted
  · cases hcommitted
  · exact h key committed hcommitted

/-- **Session ids**: what a run of a workspace gets is a session id of the workspace. -/
theorem resolveSessionId_sessionOf (hcfg : cfg.Default) (h : StoreIsolated c.workspaceSessionStore)
    (request : ExecutionRequest) (backendName : String) (freshSession : Option Bool) :
    ∃ sessionId store, c.resolveSessionId cfg request backendName freshSession =
        (sessionId, { c with draws := c.draws + 1, workspaceSessionStore := store }) ∧
      SessionOf (keyOf request) sessionId ∧ StoreIsolated store := by
  have hfresh : SessionOf (keyOf request) (keyOf request ++ ":" ++ cfg.uuidHex c.draws) :=
    .of_fresh (hcfg.hex c.draws)
  unfold resolveSessionId
  simp only [workspaceKey_eq hcfg, hcfg.factory]
  split
  · refine ⟨_, _, rfl, ?_, h.preview _ _ _ _⟩
    rcases c.workspaceSessionStore.previewSessionId_cases (keyOf request) backendName
      (freshSession.getD request.freshSession) (keyOf request ++ ":" ++ cfg.uuidHex c.draws) with
      hs | hs | hs
    · exact h _ _ hs
    · exact .inl hs
    · rw [hs]
      exact hfresh
  · split
    · exact ⟨_, c.workspaceSessionStore, rfl, hfresh, h⟩
    · exact ⟨_, c.workspaceSessionStore, rfl, .inl rfl, h⟩

theorem Isolated.closing {result : ExecutionResult} (h : Isolated c) (k : Closing c result) :
    Isolated k.apply where
  store := h.store
  queues := h.queues
  requests r request hr := by
    simp only [Closing.apply, Dict.get?_erase] at hr
    split at hr
    · cases hr
    · exact h.requests r request hr
  executions := h.executions
  calls := h.calls

theorem Isolated.storeTerminalResult (h : Isolated c) (result : ExecutionResult) :
    Isolated (c.storeTerminalResult cfg result) := by
  obtain ⟨k, hk⟩ := storeTerminalResult_eq cfg result c
  exact hk ▸ h.closing k

theorem Isolated.setSessions (h : Isolated c) {store : WorkspaceSessionStore}
    (hstore : StoreIsolated store) (draws : ℕ) :
    Isolated { c with draws, workspaceSessionStore := store } :=
  ⟨hstore, h.queues, h.requests, h.executions, h.calls⟩

theorem Isolated.failBeforeStart (hcfg : cfg.Default) (h : Isolated c) (runId : String)
    (request : ExecutionRequest) (backend slotId error : String) :
    Isolated (c.failBeforeStart cfg runId request backend slotId error) := by
  unfold Coordinator.failBeforeStart peekSessionId
  obtain ⟨sessionId, store, hpeek, -, hstore⟩ :=
    resolveSessionId_sessionOf hcfg h.store request backend none
  rw [hpeek]
  exact (h.setSessions hstore _).storeTerminalResult _

theorem Isolated.launch (hcfg : cfg.Default) (h : Isolated c) (runId : String)
    {request : ExecutionRequest} (hslot : isSlotId request.slotId = true) (backendName : String) :
    Isolated (c.launch cfg runId request backendName) := by
  unfold Coordinator.launch markRunning
  obtain ⟨sessionId, store, hresolve, hsession, hstore⟩ :=
    resolveSessionId_sessionOf hcfg h.store request backendName none
  rw [hresolve]
  simp only
  obtain ⟨snapshots, hsnapshots⟩ := modifySnapshot_eq runId
    (fun snapshot =>
      { snapshot with
        status := .running, backend := some backendName, sessionId := some sessionId,
        startedAt := some c.now })
    { c with
      draws := c.draws + 1
      workspaceSessionStore := store
      runSessionIds := c.runSessionIds.insert runId sessionId
      statuses := c.statuses.insert runId .running
      history := { c.history with started := c.history.started ++ [(runId, request)] } }
  rw [hsnapshots]
  refine ⟨hstore, h.queues, h.requests, fun task execution he => ?_, h.calls⟩
  rcases Heap.get?_alloc_cases he with ⟨-, rfl⟩ | he
  · exact ⟨hslot, workspaceKey_eq hcfg request, hsession, nofun⟩
  · exact h.executions task execution he

theorem Isolated.executeRequest (hcfg : cfg.Default) (h : Isolated c) (runId : String)
    {request : ExecutionRequest} (hslot : isSlotId request.slotId = true) :
    (c.executeRequest cfg runId request).elim Isolated fun r => Isolated r.2 := by
  rcases executeRequest_cases cfg runId request with
    ⟨backend, slotId, error, heq⟩ | ⟨backendName, heq⟩
  · rw [heq]
    exact h.failBeforeStart hcfg ..
  · rw [heq]
    exact h.launch hcfg runId hslot backendName

theorem Isolated.setWorkerPhase (h : Isolated c) (worker : ℕ) (phase : WorkerPhase) :
    Isolated (c.setWorkerPhase worker phase) :=
  ⟨h.store, h.queues, h.requests, h.executions, h.calls⟩

/-- The worker loop, by induction on the deque. -/
theorem Isolated.drainQueue (hcfg : cfg.Default) {worker : ℕ} {groupFolder : String}
    (queue : List (String × ExecutionRequest))
    (hqueue : ∀ entry ∈ queue, isSlotId entry.2.slotId = true) (h : Isolated c) :
    Isolated (drainQueue cfg worker groupFolder queue c) := by
  induction queue generalizing c with
  | nil => exact ⟨h.store, h.queues, h.requests, h.executions, h.calls⟩
  | cons entry rest ih =>
    obtain ⟨runId, request⟩ := entry
    have hslot : isSlotId request.slotId = true := hqueue _ List.mem_cons_self
    have hrest : ∀ entry ∈ rest, isSlotId entry.2.slotId = true :=
      fun entry hentry => hqueue entry (List.mem_cons_of_mem _ hentry)
    have hpopped : Isolated { c with groupQueues := c.groupQueues.insert groupFolder rest } := by
      refine ⟨h.store, fun g entry hentry => ?_, h.requests, h.executions, h.calls⟩
      simp only [Coordinator.queue, Dict.getD, Dict.get?_insert] at hentry
      split at hentry
      · exact hrest entry hentry
      · exact h.queues g entry hentry
    unfold Coordinator.drainQueue
    simp only
    split
    · have hexecute := hpopped.executeRequest hcfg runId hslot
      split
      · rename_i heq
        rw [heq] at hexecute
        exact ih hrest hexecute
      · rename_i heq
        rw [heq] at hexecute
        exact Isolated.setWorkerPhase hexecute ..
    · exact ih hrest hpopped

/-! ## Every action keeps the sessions apart -/

theorem Isolated.ensureWorker (h : Isolated c) (groupFolder : String) :
    Isolated (c.ensureWorker groupFolder) := by
  rcases ensureWorker_cases groupFolder c with ⟨heq, -⟩ | ⟨heq, -⟩
  · rwa [heq]
  · rw [heq]
    exact h.congr rfl rfl rfl rfl rfl

theorem Isolated.submitExecution (h : Isolated c) {request : ExecutionRequest} (uuid : String)
    (hslot : isSlotId request.slotId = true) : Isolated (c.submitExecution request uuid).2 := by
  have hsubmitted : Isolated (c.submitted (runIdOf request uuid) request) := by
    refine ⟨h.store, fun g entry hentry => ?_, fun r request' hr => ?_, h.executions, h.calls⟩
    · simp only [submitted, queue, Dict.getD, Dict.get?_insert] at hentry
      split at hentry
      · rcases List.mem_append.mp hentry with hentry | hentry
        · exact h.queues _ entry hentry
        · obtain rfl := List.mem_singleton.mp hentry
          exact hslot
      · exact h.queues g entry hentry
    · simp only [submitted, Dict.get?_insert] at hr
      split at hr
      · obtain rfl := Option.some.inj hr
        exact hslot
      · exact h.requests r request' hr
  unfold Coordinator.submitExecution
  refine Isolated.ensureWorker ?_ request.groupFolder
  exact hsubmitted.congr rfl rfl rfl rfl rfl

theorem Isolated.modifyExecution (h : Isolated c) (task : ℕ) {f : Execution → Execution}
    (hf : ∀ execution, c.executions.get? task = some execution → ExecutionIsolated execution →
      ExecutionIsolated (f execution)) :
    Isolated { c with executions := c.executions.modify task f } := by
  refine ⟨h.store, h.queues, h.requests, fun other execution he => ?_, h.calls⟩
  rcases Heap.get?_modify_cases he with ⟨before, hbefore, hother, rfl⟩ | ⟨-, he⟩
  · exact hf before (hother ▸ hbefore) (h.executions other before hbefore)
  · exact h.executions other execution he

theorem ExecutionIsolated.cancel {execution : Execution} (h : ExecutionIsolated execution) :
    ExecutionIsolated execution.cancel := by
  unfold Execution.cancel
  split
  · exact h
  · exact ⟨h.slot, h.key, h.session, h.retry⟩

theorem Isolated.cancel (hcfg : cfg.Default) (h : Isolated c) (runId : String) :
    Isolated (c.cancel cfg runId).2 := by
  unfold Coordinator.cancel
  split
  · split
    · exact h
    · rename_i request hrequest
      unfold cancelQueued peekSessionId
      obtain ⟨sessionId, store, hpeek, -, hstore⟩ :=
        resolveSessionId_sessionOf hcfg h.store request (safeSelectBackendName cfg request) none
      simp only [hpeek]
      exact ((h.setSessions hstore _).storeTerminalResult _).congr rfl rfl rfl rfl rfl
  · split
    · exact h
    · rename_i request hrequest
      unfold cancelRunning peekSessionId
      obtain ⟨sessionId, store, hpeek, -, hstore⟩ :=
        resolveSessionId_sessionOf hcfg h.store request (safeSelectBackendName cfg request) none
      simp only [hpeek]
      have hpeeked := h.setSessions hstore (c.draws + 1)
      split
      · exact hpeeked
      · have hcancelled : Isolated { c with
            draws := c.draws + 1
            workspaceSessionStore := store
            executions := c.cancelExecution runId } := by
          unfold cancelExecution
          split
          · exact hpeeked
          · exact hpeeked.modifyExecution _ fun _ _ he => he.cancel
        refine (Isolated.storeTerminalResult ?_ _).congr rfl rfl rfl rfl rfl
        exact hcancelled.congr rfl rfl rfl rfl rfl
  · exact h

theorem Isolated.collect (hcfg : cfg.Default) (h : Isolated c) (runId : String)
    (request : ExecutionRequest) (outcome : Outcome) :
    ∀ d ∈ c.collect cfg runId request outcome, Isolated d := by
  have hforgotten : Isolated (c.forgetRunning runId) := h.congr rfl rfl rfl rfl rfl
  intro d hd
  unfold Coordinator.collect at hd
  simp only at hd
  split at hd
  · split at hd
    · obtain rfl := Option.some.inj hd
      exact hforgotten.congr rfl rfl rfl rfl rfl
    · cases hd
  · split at hd
    · obtain rfl := Option.some.inj hd
      exact hforgotten.congr rfl rfl rfl rfl rfl
    · obtain rfl := Option.some.inj hd
      exact hforgotten.storeTerminalResult _
  · obtain rfl := Option.some.inj hd
    exact hforgotten.failBeforeStart hcfg ..

theorem Isolated.workerStep (hcfg : cfg.Default) (h : Isolated c) {worker : ℕ}
    (hstep : c.workerStep cfg worker = some c') : Isolated c' := by
  unfold Coordinator.workerStep at hstep
  split at hstep
  · obtain rfl := Option.some.inj hstep
    exact (h.setWorkerPhase worker .active).drainQueue hcfg _ (h.queues _)
  · split at hstep
    · split at hstep
      · rename_i d hd
        obtain rfl := Option.some.inj hstep
        have hcollected := (h.setWorkerPhase worker .active).collect hcfg _ _ _ d hd
        exact hcollected.drainQueue hcfg _ (hcollected.queues _)
      · obtain rfl := Option.some.inj hstep
        exact h.congr rfl rfl rfl rfl rfl
    · cases hstep
  · cases hstep

theorem Isolated.setExecutionPhase (h : Isolated c) {task : ℕ} {execution : Execution}
    {phase : ExecutionPhase} (he : c.executions.get? task = some execution)
    (hphase : ∀ sessionId, phase = .retrying sessionId →
      SessionOf (keyOf execution.request) sessionId) :
    Isolated (c.setExecutionPhase task phase) := by
  refine h.modifyExecution task fun before hbefore hisolated => ?_
  obtain rfl := Option.some.inj (hbefore.symm.trans he)
  exact ⟨hisolated.slot, hisolated.key, hisolated.session, hphase⟩

theorem Isolated.recordCall (h : Isolated c) {execution : Execution}
    (he : ExecutionIsolated execution) {sessionId : String} (retry : Bool)
    (hsession : SessionOf (keyOf execution.request) sessionId) :
    Isolated (c.recordCall execution sessionId retry) := by
  refine ⟨h.store, h.queues, h.requests, h.executions, fun call hcall => ?_⟩
  rcases List.mem_append.mp hcall with hcall | hcall
  · exact h.calls call hcall
  · obtain rfl := List.mem_singleton.mp hcall
    exact ⟨he.slot, hsession⟩

theorem Isolated.executionStep (h : Isolated c) {task : ℕ}
    (hstep : c.executionStep task = some c') : Isolated c' := by
  obtain ⟨e, he, hstarts⟩ := starts_of_step hstep
  have hisolated := h.executions task e he
  cases hstarts with
  | drop => exact h.setExecutionPhase he nofun
  | call => exact (h.recordCall hisolated false hisolated.session).setExecutionPhase he nofun

theorem Isolated.finishExecution (h : Isolated c) {task : ℕ} {execution : Execution}
    {result : ExecutionResult} (he : c.executions.get? task = some execution)
    (hsession : SessionOf (keyOf execution.request) result.sessionId) :
    Isolated (c.finishExecution task execution result) := by
  have hkey := (h.executions task execution he).key
  unfold Coordinator.finishExecution
  split
  · have hcommitted : Isolated { c with
        workspaceSessionStore := c.workspaceSessionStore.commitSuccess execution.workspaceKey
          execution.backendName result.sessionId
        history := { c.history with
          committed := c.history.committed ++ [execution.runId] } } :=
      ⟨h.store.commit _ (hkey ▸ hsession), h.queues, h.requests, h.executions, h.calls⟩
    exact hcommitted.setExecutionPhase he nofun
  · exact h.setExecutionPhase he nofun

theorem Isolated.retryExecution (hcfg : cfg.Default) (h : Isolated c) {task : ℕ}
    {execution : Execution} (he : c.executions.get? task = some execution) (reason : String) :
    Isolated (c.retryExecution cfg task execution reason) := by
  have hisolated := h.executions task execution he
  obtain ⟨snapshots, hsnapshots⟩ := markRecoveryAttempt_eq execution.runId reason c
  obtain ⟨sessionId, store, hresolve, hsession, hstore⟩ := resolveSessionId_sessionOf hcfg
    (c := { c with
      runSnapshots := snapshots
      workspaceSessionStore := c.workspaceSessionStore.invalidate execution.workspaceKey })
    (h.store.invalidate execution.workspaceKey) execution.request execution.backendName (some true)
  unfold Coordinator.retryExecution
  simp only [hsnapshots, hresolve]
  have hresolved : Isolated { c with
      draws := c.draws + 1
      workspaceSessionStore := store
      runSnapshots := snapshots
      runSessionIds := c.runSessionIds.insert execution.runId sessionId } :=
    ⟨hstore, h.queues, h.requests, h.executions, h.calls⟩
  refine (hresolved.recordCall hisolated true hsession).setExecutionPhase he fun s hs => ?_
  obtain rfl := ExecutionPhase.retrying.inj hs
  exact hsession

/-- A result that is not the backend's own carries the session id the backend was called with. -/
theorem runBackendWithTimeout_sessionId {execution : Execution} {sessionId : String}
    {ending : Ending} {result : ExecutionResult} (hown : ∀ r, ending ≠ .executionResult r)
    (h : runBackendWithTimeout execution sessionId ending = .ok result) :
    result.sessionId = sessionId := by
  cases ending with
  | executionResult r => exact absurd rfl (hown r)
  | dict raw | timeoutError | exception message =>
    obtain rfl := Except.ok.inj h
    rfl
  | runtimeError sessionResumeFailed message | cancelledError | malformed message => cases h

theorem Isolated.backendEndsStep (hcfg : cfg.Default) (h : Isolated c) {task : ℕ}
    {ending : Ending} (hown : ∀ r, ending ≠ .executionResult r)
    (hstep : c.backendEndsStep cfg task ending = some c') : Isolated c' := by
  obtain ⟨e, he, hends⟩ := callEnds_of_step hstep
  have hisolated := h.executions task e he
  have hnoted (succeeded : Bool) : Isolated (c.noted e succeeded) ∧
      (c.noted e succeeded).executions.get? task = some e := by
    obtain ⟨snapshots, hsnapshots⟩ := noted_eq e succeeded c
    rw [hsnapshots]
    exact ⟨h.congr rfl rfl rfl rfl rfl, he⟩
  cases hends with
  | finish called run =>
    refine (hnoted true).1.finishExecution (hnoted true).2 ?_
    rw [runBackendWithTimeout_sessionId hown run]
    rcases called with ⟨-, rfl⟩ | hretrying
    · exact hisolated.session
    · exact hisolated.retry _ hretrying
  | retry => exact h.retryExecution hcfg he _
  | fail => exact (hnoted false).1.setExecutionPhase (hnoted false).2 nofun
  | cancelled | raised => exact h.setExecutionPhase he nofun

/-- **Every action keeps the session ids in their workspaces.** -/
theorem Isolated.step (hcfg : cfg.Default) (h : Isolated c) {a : Action} (ha : c.Slotted a)
    (hstep : step cfg c a = some c') : Isolated c' := by
  cases a with
  | submit request uuid =>
    obtain rfl := Option.some.inj hstep
    exact h.submitExecution uuid ha
  | cancel runId =>
    obtain rfl := Option.some.inj hstep
    exact h.cancel hcfg runId
  | worker worker => exact h.workerStep hcfg hstep
  | execution task => exact h.executionStep hstep
  | backendEnds task ending =>
    refine h.backendEndsStep hcfg (fun r hr => ?_) hstep
    rw [hr] at ha
    exact ha
  | tick =>
    obtain rfl := Option.some.inj hstep
    exact h.congr rfl rfl rfl rfl rfl
  | wait _ | waiter _ | cancelWaiter _ =>
    rcases step_waiter rfl hstep with ⟨waiters, rfl, -⟩ | ⟨waiter, future, -, -, rfl⟩
    · exact h.congr rfl rfl rfl rfl rfl
    · exact h.congr rfl rfl rfl rfl rfl

/-- **Sessions of different workspaces are different**: whatever was previewed, committed,
invalidated and retried before, two runs of different workspaces execute with different session
ids. -/
theorem session_isolation (hcfg : cfg.Default) {actions : List Action}
    (hrun : Run (Coordinator.step cfg) Slotted {} actions c) {call call' : BackendCall}
    (hcall : call ∈ c.history.calls) (hcall' : call' ∈ c.history.calls)
    (hne : (call.request.groupFolder, call.request.slotId) ≠
      (call'.request.groupFolder, call'.request.slotId)) :
    call.sessionId ≠ call'.sessionId := by
  intro hsame
  have hisolated : Isolated c := hrun.invariant isolated_empty fun h ha hstep => h.step hcfg ha hstep
  have h := hisolated.calls call hcall
  have h' := hisolated.calls call' hcall'
  obtain ⟨hg, hs⟩ := SessionOf.workspace_unique h.slot h'.slot h.session (hsame ▸ h'.session)
  exact hne (Prod.ext hg hs)

theorem isHex8_sample : isHex8 "0a1b2c3d" = true := by decide

theorem sample_default : Config.sample.Default where
  resolver := rfl
  factory := rfl
  hex _ := isHex8_sample

/-- A run that commits its session, a fresh one of the same workspace, and one of a group folder
that is itself the key of that workspace. -/
def nestedKeys : List Action :=
  [.submit (.sample "first") "", .worker 0, .execution 0, .backendEnds 0 (.dict {}), .worker 0,
    .submit { ExecutionRequest.sample "fresh" with freshSession := true } "",
    .submit { ExecutionRequest.sample "nested" with groupFolder := "home#slot:main" } "",
    .worker 1, .worker 2, .execution 1, .execution 2]

theorem session_isolation_nestedKeys :
    ∃ c, Run (step .sample) Slotted {} nestedKeys c ∧
      ∃ call ∈ c.history.calls, ∃ call' ∈ c.history.calls,
        call.sessionId = "home#slot:main:0a1b2c3d" ∧ call'.runId = "nested" ∧
        call.sessionId ≠ call'.sessionId := by
  have hrun : Run (step .sample) Slotted {} nestedKeys _ := .of_execute (by decide)
  refine ⟨_, hrun, ⟨"fresh", { ExecutionRequest.sample "fresh" with freshSession := true },
    "home#slot:main:0a1b2c3d", false⟩, by decide, ⟨"nested", { ExecutionRequest.sample "nested" with
    groupFolder := "home#slot:main" }, "home#slot:main#slot:main", false⟩, by decide, rfl, rfl, ?_⟩
  exact session_isolation sample_default hrun (by decide) (by decide) (by decide)

end Coordinator

end Portex
